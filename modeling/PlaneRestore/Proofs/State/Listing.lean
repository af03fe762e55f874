import Mathlib.Data.List.Perm.Subperm
import PlaneRestore.Proofs.State.Tree
/-!
Listings of directories, and walks by listings.

* `ExportedState.items` is what is directly inside a directory: `itemsOf_eq_ok_iff`.
* `ExportedState.below` is everything inside a directory, at any depth. It is what is directly
  inside, each followed by what is inside that: `WellFormed.below_eq`.
* `ExportedState.Walks` says which paths a walk visits that lists every directory it comes to.
  `WellFormed.walks` finds that a walk comes to its end and visits all entries, and
  `WellFormed.listing_eq` that they are listed in their order.
-/

namespace PlaneRestore.ExportedState

variable {s : ExportedState} {p q : Path}

/-! ### Directories -/

/-- What is directly inside a directory, in the order of the names. -/
def items (s : ExportedState) (p : Path) : List Item :=
  (s.children p).map fun c => ⟨c.1, c.2.isDirectory⟩

theorem itemsOf_eq_ok_iff {path : String} {items : List Item} (hp : Path.parse? path = some p) :
    s.itemsOf path = .ok items ↔ s.HasDirectory p ∧ items = s.items p := by
  rw [itemsOf, parsePath_eq_of_parse? hp]
  show (if p.isEmpty then Except.ok (s.items p) else _) = _ ↔ _
  by_cases hne : p = []
  · simp [hne, HasDirectory, eq_comm]
  · rw [if_neg (by simpa using hne)]
    cases hget : Table.get? p s.entries with
    | none => simp [HasDirectory, hne, hget, throw, throwThe, MonadExceptOf.throw]
    | some e =>
      cases e with
      | directory mode =>
        have hdir : s.HasDirectory p := .inr ⟨mode, hget⟩
        simp [hdir, ExportedState.items, pure, Except.pure, eq_comm]
      | file mode contents =>
        simp [HasDirectory, hne, hget, throw, throwThe, MonadExceptOf.throw]

theorem WellFormed.mem_items_iff (hs : s.WellFormed) {item : Item} :
    item ∈ s.items p ↔ ∃ e, Table.get? (p ++ [item.name]) s.entries = some e ∧
      item.isDir = e.isDirectory := by
  rw [items, List.mem_map]
  constructor
  · rintro ⟨⟨n, e⟩, hmem, rfl⟩
    exact ⟨e, hs.mem_children_iff.mp hmem, rfl⟩
  · rintro ⟨e, hget, hdir⟩
    exact ⟨(item.name, e), hs.mem_children_iff.mpr hget, by rw [← hdir]⟩

theorem WellFormed.items_ordered (hs : s.WellFormed) (p : Path) :
    (s.items p).Pairwise fun a b => a.name < b.name :=
  List.pairwise_map.mpr (List.pairwise_map.mp (hs.children_ordered p))

/-- Everything inside a directory, at any depth. -/
def below (s : ExportedState) (p : Path) : List (Path × Entry) :=
  s.entries.filter fun e => p.isPrefixOf e.1 && e.1 ≠ p

theorem mem_below_iff {e : Path × Entry} :
    e ∈ s.below p ↔ e ∈ s.entries ∧ ∃ n r, e.1 = p ++ n :: r := by
  rw [below, List.mem_filter, Bool.and_eq_true, List.isPrefixOf_iff_prefix, decide_eq_true_eq]
  refine and_congr_right fun _ => ⟨?_, ?_⟩
  · rintro ⟨⟨r, hr⟩, hne⟩
    cases r with
    | nil => exact absurd (by rw [← hr, List.append_nil]) hne
    | cons n r => exact ⟨n, r, hr.symm⟩
  · rintro ⟨n, r, hr⟩
    refine ⟨⟨n :: r, hr.symm⟩, fun hp => ?_⟩
    rw [hp] at hr
    exact absurd (List.self_eq_append_right.mp hr) (by simp)

theorem mem_below_of_mem_below_concat {e : Path × Entry} {n : String}
    (h : e ∈ s.below (p ++ [n])) : e ∈ s.below p := by
  obtain ⟨hmem, n', r, hr⟩ := mem_below_iff.mp h
  exact mem_below_iff.mpr ⟨hmem, n, n' :: r, by rw [hr, ← List.append_cons]⟩

/-- Everything is inside the root. -/
theorem WellFormed.below_nil (hs : s.WellFormed) : s.below [] = s.entries := by
  refine List.filter_eq_self.mpr fun e he => ?_
  have hne := hs.ne_root e.1 (Option.isSome_of_eq_some (hs.ordered.mem_iff_get?.mp he))
  simpa using hne

/-- There is nothing inside a file. -/
theorem WellFormed.below_file (hs : s.WellFormed) {mode : Nat} {contents : List UInt8}
    (h : Table.get? p s.entries = some (.file mode contents)) : s.below p = [] := by
  refine List.eq_nil_iff_forall_not_mem.mpr fun e he => ?_
  obtain ⟨hmem, n, r, hr⟩ := mem_below_iff.mp he
  have hsome : (Table.get? (p ++ n :: r) s.entries).isSome :=
    Option.isSome_of_eq_some (hr ▸ hs.ordered.mem_iff_get?.mp hmem)
  have hne : p ≠ [] := hs.ne_root p (Option.isSome_of_eq_some h)
  obtain ⟨mode', hmode'⟩ := (hs.hasDirectory_of_append (by simp) hsome).resolve_left hne
  cases h.symm.trans hmode'

/-- What is inside a directory is what is directly inside, each followed by what is inside that. -/
theorem WellFormed.below_eq (hs : s.WellFormed) (p : Path) :
    s.below p = (s.children p).flatMap fun c => (p ++ [c.1], c.2) :: s.below (p ++ [c.1]) := by
  have hordered : ∀ p, Table.Ordered (s.below p) := fun p => hs.ordered.sublist List.filter_sublist
  -- two ordered tables with the same members: first the order of the right side, child by child and
  -- then between children, then the members
  refine (hordered p).eq_of_mem_iff (List.pairwise_flatMap.mpr ⟨fun c _ => ?_, ?_⟩) fun e => ?_
  · refine List.pairwise_cons.mpr ⟨fun e he => ?_, hordered _⟩
    obtain ⟨-, n, r, hr⟩ := mem_below_iff.mp he
    rw [hr]
    exact Path.compare_lt_append _ (by simp)
  -- all that comes from one child has its name in front
  · have hform : ∀ c : String × Entry, ∀ e ∈ (p ++ [c.1], c.2) :: s.below (p ++ [c.1]),
        ∃ r, e.1 = p ++ c.1 :: r := by
      intro c e he
      rcases List.mem_cons.mp he with rfl | he
      · exact ⟨[], rfl⟩
      · obtain ⟨-, n, r, hr⟩ := mem_below_iff.mp he
        exact ⟨n :: r, by rw [hr, ← List.append_cons]⟩
    refine (List.pairwise_map.mp (hs.children_ordered p)).imp ?_
    intro c c' hlt e he e' he'
    obtain ⟨r, hr⟩ := hform c e he
    obtain ⟨r', hr'⟩ := hform c' e' he'
    rw [hr, hr']
    exact Path.compare_append_lt p hlt r r'
  · rw [List.mem_flatMap, mem_below_iff]
    constructor
    · rintro ⟨hmem, n, r, hr⟩
      obtain ⟨q, e⟩ := e
      obtain rfl : q = p ++ n :: r := hr
      cases r with
      | nil => exact ⟨(n, e), ExportedState.mem_children_iff.mpr hmem, List.mem_cons_self⟩
      | cons n' r =>
        have hsome : (Table.get? ((p ++ [n]) ++ n' :: r) s.entries).isSome := by
          rw [← List.append_cons]
          exact Option.isSome_of_eq_some (hs.ordered.mem_iff_get?.mp hmem)
        -- an entry further down has a directory on its way, which is the child
        obtain ⟨mode, hmode⟩ := (hs.hasDirectory_of_append (by simp) hsome).resolve_left (by simp)
        refine ⟨(n, .directory mode), hs.mem_children_iff.mpr hmode, List.mem_cons_of_mem _ ?_⟩
        exact mem_below_iff.mpr ⟨hmem, n', r, by rw [← List.append_cons]⟩
    · rintro ⟨⟨n, e'⟩, hc, he⟩
      rcases List.mem_cons.mp he with rfl | he
      · exact ⟨ExportedState.mem_children_iff.mp hc, n, [], rfl⟩
      · exact mem_below_iff.mp (mem_below_of_mem_below_concat he)

/-! ### How deep entries are -/

/-- The paths that lead to an entry are those of entries. -/
theorem WellFormed.take_mem_keys (hs : s.WellFormed) (hp : p ∈ Table.keys s.entries)
    {k : Nat} (hpos : 0 < k) (hle : k ≤ p.length) : p.take k ∈ Table.keys s.entries := by
  by_cases hlast : k = p.length
  · rw [hlast, List.take_length]
    exact hp
  · have hne : p.take k ≠ [] := by
      rw [ne_eq, List.take_eq_nil_iff, not_or]
      exact ⟨by omega, List.ne_nil_of_length_pos (by omega)⟩
    have hrest : p.drop k ≠ [] := by
      rw [ne_eq, List.drop_eq_nil_iff]
      omega
    have habove : Path.IsAbove (p.take k) p :=
      ⟨hne, p.drop k, hrest, (List.take_append_drop k p).symm⟩
    obtain ⟨mode, hmode⟩ := hs.isDirectory_of_isAbove habove (hs.mem_keys_iff.mp hp)
    exact hs.mem_keys_iff.mpr (Option.isSome_of_eq_some hmode)

/-- There are at least as many entries as there are names in the path of one of them. -/
theorem WellFormed.length_le_size (hs : s.WellFormed) (hp : p ∈ Table.keys s.entries) :
    p.length ≤ s.size := by
  have hnodup : ((List.range' 1 p.length).map fun k => p.take k).Nodup := by
    refine List.Nodup.map_on ?_ List.nodup_range'
    intro k hk k' hk' heq
    rw [List.mem_range'_1] at hk hk'
    have hlen := congrArg List.length heq
    rw [List.length_take, List.length_take] at hlen
    omega
  have hsubset : ((List.range' 1 p.length).map fun k => p.take k) ⊆ Table.keys s.entries := by
    intro q hq
    obtain ⟨k, hk, rfl⟩ := List.mem_map.mp hq
    rw [List.mem_range'_1] at hk
    exact hs.take_mem_keys hp (by omega) (by omega)
  have hle := (List.subperm_of_subset hnodup hsubset).length_le
  rw [List.length_map, List.length_range', Table.keys, List.length_map] at hle
  exact hle

/-- Nothing inside a directory is deeper than that. -/
def Within (s : ExportedState) (p : Path) (depth : Nat) : Prop :=
  ∀ e ∈ s.below p, e.1.length ≤ p.length + depth

theorem WellFormed.within_size (hs : s.WellFormed) : s.Within [] s.size := by
  intro e he
  rw [hs.below_nil] at he
  have hle := hs.length_le_size (List.mem_map_of_mem he)
  rw [List.length_nil]
  omega

theorem Within.children_eq_nil (h : s.Within p 0) : s.children p = [] := by
  refine List.eq_nil_iff_forall_not_mem.mpr fun c hc => ?_
  have hle := h (p ++ [c.1], c.2)
    (mem_below_iff.mpr ⟨ExportedState.mem_children_iff.mp hc, c.1, [], rfl⟩)
  rw [List.length_append, List.length_singleton] at hle
  omega

theorem Within.child {depth : Nat} (h : s.Within p (depth + 1)) (n : String) :
    s.Within (p ++ [n]) depth := by
  intro e he
  have hle := h e (mem_below_of_mem_below_concat he)
  rw [List.length_append, List.length_singleton]
  omega

/-! ### Walks -/

/-- A walk that may go deep enough comes to everything inside a directory. -/
theorem WellFormed.walk_eq_below (hs : s.WellFormed) {depth : Nat} (h : s.Within p depth) :
    s.walk depth p = s.below p := by
  induction depth generalizing p with
  | zero =>
    rw [walk, hs.below_eq, h.children_eq_nil]
    rfl
  | succ depth ih =>
    rw [walk, hs.below_eq p]
    refine List.flatMap_congr fun c hc => ?_
    obtain ⟨n, e⟩ := c
    cases e with
    | directory mode =>
      show (p ++ [n], Entry.directory mode) :: s.walk depth (p ++ [n]) = _
      rw [ih (h.child n)]
    | file mode contents =>
      rw [hs.below_file (hs.mem_children_iff.mp hc)]
      rfl

/-- All entries are listed, in their order. -/
theorem WellFormed.listing_eq (hs : s.WellFormed) : s.listing = s.entries := by
  have hdeep : s.Within [] (s.size + 1) := by
    intro e he
    have hle := hs.within_size e he
    omega
  rw [listing, hs.walk_eq_below hdeep, hs.below_nil]

/-- A walk through what is directly inside a directory, and the paths that are visited: that of each
item, and those inside it if it is a directory. -/
inductive Walks (s : ExportedState) : Path → List Item → List Path → Prop
  | nil (p : Path) : Walks s p [] []
  | file {p : Path} {item : Item} {items : List Item} {visits : List Path}
      (isFile : item.isDir = false) (rest : Walks s p items visits) :
      Walks s p (item :: items) ((p ++ [item.name]) :: visits)
  | directory {p : Path} {item : Item} {items inside : List Item} {visits visits' : List Path}
      (isDirectory : item.isDir = true)
      (lists : s.itemsOf (Path.render (p ++ [item.name])) = .ok inside)
      (descends : Walks s (p ++ [item.name]) inside visits) (rest : Walks s p items visits') :
      Walks s p (item :: items) ((p ++ [item.name]) :: (visits ++ visits'))

/-- There is no choice in a walk. -/
theorem Walks.unique {items : List Item} {visits visits' : List Path} (h : s.Walks p items visits)
    (h' : s.Walks p items visits') : visits = visits' := by
  induction h generalizing visits' with
  | nil p =>
    cases h'
    rfl
  | file isFile _ ih =>
    cases h' with
    | file _ rest => rw [ih rest]
    | directory isDirectory => exact absurd (isFile.symm.trans isDirectory) (by simp)
  | directory isDirectory lists _ _ ihin ihrest =>
    cases h' with
    | file isFile => exact absurd (isFile.symm.trans isDirectory) (by simp)
    | directory _ lists' descends rest =>
      cases lists.symm.trans lists'
      rw [ihin descends, ihrest rest]

/-- A walk comes to its end, and has visited everything inside the directory. -/
theorem WellFormed.walks (hs : s.WellFormed) {depth : Nat} (h : s.Within p depth) :
    s.Walks p (s.items p) (Table.keys (s.below p)) := by
  induction depth generalizing p with
  | zero =>
    rw [items, hs.below_eq, h.children_eq_nil]
    exact .nil p
  | succ depth ih =>
    rw [items, hs.below_eq]
    -- one child after another
    suffices hsome : ∀ cs : List (String × Entry), (∀ c ∈ cs, c ∈ s.children p) →
        s.Walks p (cs.map fun c => ⟨c.1, c.2.isDirectory⟩) (Table.keys
          (cs.flatMap fun c => (p ++ [c.1], c.2) :: s.below (p ++ [c.1]))) from
      hsome _ fun _ hc => hc
    intro cs hcs
    induction cs with
    | nil => exact .nil p
    | cons c cs ihcs =>
      obtain ⟨n, e⟩ := c
      have hget := hs.mem_children_iff.mp (hcs (n, e) List.mem_cons_self)
      have hrest := ihcs fun c hc => hcs c (List.mem_cons_of_mem _ hc)
      cases e with
      | directory mode =>
        have hparse : Path.parse? (Path.render (p ++ [n])) = some (p ++ [n]) :=
          hs.parse?_render (Option.isSome_of_eq_some hget)
        have hlists : s.itemsOf (Path.render (p ++ [n])) = .ok (s.items (p ++ [n])) :=
          (itemsOf_eq_ok_iff hparse).mpr ⟨.inr ⟨mode, hget⟩, rfl⟩
        let item : Item := ⟨n, true⟩
        have hwalk : s.Walks p (item :: _) _ := .directory rfl hlists (ih (h.child n)) hrest
        simpa [Table.keys, Entry.isDirectory] using hwalk
      | file mode contents =>
        let item : Item := ⟨n, false⟩
        have hwalk : s.Walks p (item :: _) _ := .file rfl hrest
        simpa [Table.keys, hs.below_file hget, Entry.isDirectory] using hwalk

end PlaneRestore.ExportedState
