import PlaneRestore.Proofs.State.Tree
/-!
Entries that are added one after another.

* `ExportedState.added` tells what is at a path after some additions, without saying how they were
  made: `ExportedState.placed`.
* `ExportedState.IsClashFree` tells whether they can be made: `ExportedState.exists_placeAll_iff`.
* Neither depends on the order of additions to different paths: `ExportedState.added_perm` and
  `ExportedState.IsClashFree.perm`. A tree is what its own entries add up to, in any order:
  `ExportedState.added_entries`.
-/

namespace PlaneRestore.ExportedState

/-- Puts entries in their places, one after another. -/
def placeAll (as : List (Path × Entry)) : Except ImportError ExportedState :=
  as.foldlM (fun s a => s.place a.1 a.2) empty

/-- What is at a path after some additions: the last of those to this path, or else a directory that
no one has asked for if something was added below. -/
def added (as : List (Path × Entry)) (p : Path) : Option Entry :=
  ((as.filter (·.1 = p)).getLast?.map (·.2)).or
    (if as.any (fun a => p.IsAbove a.1) then some (.directory implicitMode) else none)

/-- If the first addition is a file, the second one is no directory with its path, and nothing
below. -/
def NoClash (a b : Path × Entry) : Prop :=
  a.2.isDirectory = false → (b.1 = a.1 → b.2.isDirectory = false) ∧ ¬a.1.IsAbove b.1

/-- No path is that of a file and of a directory that are added, and nothing is added below a
file. -/
def IsClashFree (as : List (Path × Entry)) : Prop := ∀ a ∈ as, ∀ b ∈ as, NoClash a b

variable {s s' : ExportedState} {as bs : List (Path × Entry)}

theorem added_concat (as : List (Path × Entry)) (p q : Path) (e : Entry) :
    added (as ++ [(p, e)]) q = if q = p then some e
      else (added as q).or (if q.IsAbove p then some (.directory implicitMode) else none) := by
  rw [added, List.filter_append, List.any_append]
  by_cases hq : q = p
  · subst hq
    simp
  · rw [if_neg hq, added, Option.or_assoc]
    have hne : ¬p = q := fun h => hq h.symm
    simp only [List.filter_cons, hne, decide_false, Bool.false_eq_true, ↓reduceIte, List.filter_nil,
      List.append_nil, List.any_cons, List.any_nil, Bool.or_false]
    congr 1
    by_cases hbelow : as.any (fun a => q.IsAbove a.1) = true <;> by_cases habove : q.IsAbove p <;>
      simp [hbelow, habove]

/-- What is at a path was added there, or is a directory above something that was added. -/
theorem mem_of_added {p : Path} {e : Entry} (h : added as p = some e) :
    (p, e) ∈ as ∨ e.isDirectory = true ∧ ∃ a ∈ as, p.IsAbove a.1 := by
  rw [added, Option.or_eq_some_iff] at h
  rcases h with h | ⟨-, h⟩
  · obtain ⟨⟨p', e'⟩, hlast, rfl⟩ := Option.map_eq_some_iff.mp h
    obtain ⟨hmem, hp⟩ := List.mem_filter.mp (List.mem_of_getLast? hlast)
    obtain rfl : p' = p := by simpa using hp
    exact .inl hmem
  · split at h
    · next hany =>
      cases h
      obtain ⟨a, ha, habove⟩ := List.any_eq_true.mp hany
      exact .inr ⟨rfl, a, ha, by simpa using habove⟩
    · cases h

theorem exists_added_of_mem {a : Path × Entry} (h : a ∈ as) :
    ∃ e, added as a.1 = some e ∧ (a.1, e) ∈ as := by
  have hne : as.filter (·.1 = a.1) ≠ [] :=
    List.ne_nil_of_mem (List.mem_filter.mpr ⟨h, by simp⟩)
  obtain ⟨⟨p, e⟩, hlast⟩ := Option.isSome_iff_exists.mp (List.getLast?_isSome.mpr hne)
  obtain ⟨hmem, hp⟩ := List.mem_filter.mp (List.mem_of_getLast? hlast)
  obtain rfl : p = a.1 := by simpa using hp
  exact ⟨e, by rw [added, hlast]; rfl, hmem⟩

/-- Where something was added there is something of this sort. -/
theorem IsClashFree.added_of_mem (hc : IsClashFree as) {a : Path × Entry} (h : a ∈ as) :
    ∃ e, added as a.1 = some e ∧ e.isDirectory = a.2.isDirectory := by
  obtain ⟨e, he, hmem⟩ := exists_added_of_mem h
  refine ⟨e, he, ?_⟩
  cases hd : e.isDirectory with
  | false => exact ((hc _ hmem a h hd).1 rfl).symm
  | true =>
    cases hd' : a.2.isDirectory with
    | true => rfl
    | false => exact absurd ((hc a h _ hmem hd').1 rfl) (by simp [hd])

/-- Above what was added there are directories. -/
theorem IsClashFree.added_of_isAbove (hc : IsClashFree as) {a : Path × Entry} (h : a ∈ as)
    {p : Path} (hp : p.IsAbove a.1) : ∃ e, added as p = some e ∧ e.isDirectory = true := by
  cases hadded : added as p with
  | none =>
    have hany : as.any (fun a => p.IsAbove a.1) = true :=
      List.any_eq_true.mpr ⟨a, h, by simpa using hp⟩
    rw [added, Option.or_eq_none_iff, if_pos hany] at hadded
    cases hadded.2
  | some e =>
    refine ⟨e, rfl, ?_⟩
    rcases mem_of_added hadded with hmem | ⟨hdir, -⟩
    · cases hd : e.isDirectory with
      | true => rfl
      | false => exact absurd hp (hc _ hmem a h hd).2
    · exact hdir

/-- An addition clashes with none of the others if it could be made in what they have left. -/
theorem IsClashFree.noClash_iff (hc : IsClashFree as) {p : Path} {e : Entry} :
    (∀ a ∈ as, NoClash a (p, e) ∧ NoClash (p, e) a) ↔
      (∀ e', added as p = some e' → e'.isDirectory = e.isDirectory) ∧
        ∀ q, q.IsAbove p → ∀ e', added as q = some e' → e'.isDirectory = true := by
  constructor
  · intro h
    refine ⟨fun e' he' => ?_, fun q hq e' he' => ?_⟩
    -- the entry was added itself, or is a directory above something that was
    · rcases mem_of_added he' with hmem | ⟨hdir, b, hb, habove⟩
      · obtain ⟨hleft, hright⟩ := h _ hmem
        cases hd' : e'.isDirectory with
        | false => exact ((hleft hd').1 rfl).symm
        | true =>
          cases hd : e.isDirectory with
          | true => rfl
          | false => exact absurd ((hright hd).1 rfl) (by simp [hd'])
      · cases hd : e.isDirectory with
        | true => exact hdir
        | false => exact absurd habove ((h b hb).2 hd).2
    · rcases mem_of_added he' with hmem | ⟨hdir, -⟩
      · cases hd' : e'.isDirectory with
        | true => rfl
        | false => exact absurd hq ((h _ hmem).1 hd').2
      · exact hdir
  · rintro ⟨hsort, habove⟩ a ha
    -- each addition has left something of its sort behind, against which the new one is held
    obtain ⟨e', he', hd'⟩ := hc.added_of_mem ha
    refine ⟨fun hfile => ⟨?_, fun hq => ?_⟩, fun hfile => ⟨?_, fun hp => ?_⟩⟩
    · rintro rfl
      rw [← hsort e' he', hd', hfile]
    · exact absurd (habove _ hq e' he') (by simp [hd', hfile])
    · rintro rfl
      rw [← hd', hsort e' he', hfile]
    · obtain ⟨e'', he'', hd''⟩ := hc.added_of_isAbove ha hp
      exact absurd (hsort e'' he'') (by simp [hd'', hfile])

theorem isClashFree_concat_iff {c : Path × Entry} :
    IsClashFree (as ++ [c]) ↔ IsClashFree as ∧ ∀ a ∈ as, NoClash a c ∧ NoClash c a := by
  have hself : NoClash c c := fun hfile => ⟨fun _ => hfile, fun habove => habove.ne rfl⟩
  simp only [IsClashFree, List.forall_mem_append, List.forall_mem_singleton]
  constructor
  · rintro ⟨has, hc, -⟩
    exact ⟨fun a ha => (has a ha).1, fun a ha => ⟨(has a ha).2, hc a ha⟩⟩
  · rintro ⟨has, hc⟩
    exact ⟨fun a ha => ⟨has a ha, (hc a ha).1⟩, fun a ha => (hc a ha).2, hself⟩

/-- Paths that can be those of entries. -/
def AllNamed (as : List (Path × Entry)) : Prop :=
  ∀ a ∈ as, a.1 ≠ [] ∧ ∀ n ∈ a.1, Path.IsEntryName n

theorem placeAll_concat_eq_ok {a : Path × Entry} :
    placeAll (as ++ [a]) = .ok s' ↔ ∃ s, placeAll as = .ok s ∧ s.place a.1 a.2 = .ok s' := by
  rw [placeAll, List.foldlM_append, bind_eq_ok_iff]
  simp only [List.foldlM_cons, List.foldlM_nil, bind_pure]
  rfl

/-- What can be added leaves a tree with what was added in it. -/
theorem placed (hnamed : AllNamed as) (h : placeAll as = .ok s) :
    s.WellFormed ∧ ∀ q, Table.get? q s.entries = added as q := by
  induction as using List.reverseRecOn generalizing s with
  | nil =>
    cases h
    exact ⟨wellFormed_empty, fun _ => rfl⟩
  | append_singleton as a ih =>
    obtain ⟨p, e⟩ := a
    obtain ⟨s₁, hbefore, hplace⟩ := placeAll_concat_eq_ok.mp h
    obtain ⟨hwf, hget⟩ := ih (fun a ha => hnamed a (List.mem_append_left _ ha)) hbefore
    obtain ⟨hne, hnames⟩ := hnamed (p, e) (by simp)
    refine ⟨hwf.place hne hnames hplace, fun q => ?_⟩
    rw [get?_of_place hwf hplace, added_concat, hget]

/-- Additions can be made one after another if, and only if, they are free of clashes. -/
theorem exists_placeAll_iff (hnamed : AllNamed as) :
    (∃ s, placeAll as = .ok s) ↔ IsClashFree as := by
  induction as using List.reverseRecOn with
  | nil => exact ⟨fun _ a ha => absurd ha List.not_mem_nil, fun _ => ⟨empty, rfl⟩⟩
  | append_singleton as a ih =>
    obtain ⟨p, e⟩ := a
    have hnamed' : AllNamed as := fun a ha => hnamed a (List.mem_append_left _ ha)
    -- the last one can be made if it clashes with none before it
    have hplace : ∀ s, placeAll as = .ok s → ((∃ s', s.place p e = .ok s') ↔
        ∀ a ∈ as, NoClash a (p, e) ∧ NoClash (p, e) a) := by
      intro s hs
      obtain ⟨hwf, hget⟩ := placed hnamed' hs
      rw [((ih hnamed').mp ⟨s, hs⟩).noClash_iff, exists_place_iff hwf]
      simp only [hget]
    rw [isClashFree_concat_iff, ← ih hnamed']
    constructor
    · rintro ⟨s', h⟩
      obtain ⟨s, hs, h⟩ := placeAll_concat_eq_ok.mp h
      exact ⟨⟨s, hs⟩, (hplace s hs).mp ⟨s', h⟩⟩
    · rintro ⟨⟨s, hs⟩, hfits⟩
      obtain ⟨s', h⟩ := (hplace s hs).mpr hfits
      exact ⟨s', placeAll_concat_eq_ok.mpr ⟨s, hs, h⟩⟩

/-! ### The order of additions -/

theorem IsClashFree.perm (h : IsClashFree as) (hperm : as.Perm bs) : IsClashFree bs :=
  fun a ha b hb => h a (hperm.mem_iff.mpr ha) b (hperm.mem_iff.mpr hb)

/-- If no two additions are to the same path, their order does not matter. -/
theorem added_perm (hperm : as.Perm bs) (hnodup : (Table.keys as).Nodup) (p : Path) :
    added as p = added bs p := by
  have hany : as.any (fun a => p.IsAbove a.1) = bs.any (fun a => p.IsAbove a.1) := hperm.any_eq
  have hperm' := hperm.filter (fun a => decide (a.1 = p))
  have hfilter : as.filter (·.1 = p) = bs.filter (·.1 = p) := by
    -- at most one addition is to this path
    have hone : ((as.filter (·.1 = p)).map (·.1)).length ≤ 1 := by
      have hsub : ((as.filter (·.1 = p)).map (·.1)).Nodup :=
        hnodup.sublist (List.filter_sublist.map _)
      have hall : ∀ q ∈ (as.filter (·.1 = p)).map (·.1), q = p := by
        intro q hq
        obtain ⟨a, ha, rfl⟩ := List.mem_map.mp hq
        simpa using (List.mem_filter.mp ha).2
      rw [List.eq_replicate_of_mem hall, List.nodup_replicate] at hsub
      exact hsub
    rw [List.length_map] at hone
    generalize as.filter (·.1 = p) = us at hone hperm'
    match us, hone with
    | [], _ => exact (List.nil_perm.mp hperm').symm
    | [a], _ => exact List.singleton_perm.mp hperm'
  rw [added, added, hfilter, hany]

/-- The entries of a tree, added in any order, leave this tree. -/
theorem added_entries (hs : s.WellFormed) (hperm : as.Perm s.entries) (p : Path) :
    added as p = Table.get? p s.entries := by
  have hmem : ∀ {q e}, (q, e) ∈ as ↔ Table.get? q s.entries = some e := fun {q e} =>
    hperm.mem_iff.trans hs.ordered.mem_iff_get?
  cases hget : Table.get? p s.entries with
  | some e =>
    obtain ⟨e', he', hmem'⟩ := exists_added_of_mem (hmem.mpr hget)
    rw [he', ← hmem.mp hmem', hget]
  | none =>
    refine Option.eq_none_iff_forall_ne_some.mpr fun e he => ?_
    rcases mem_of_added he with h | ⟨-, a, ha, habove⟩
    · cases hget.symm.trans (hmem.mp h)
    · obtain ⟨mode, hmode⟩ :=
        hs.isDirectory_of_isAbove habove (Option.isSome_of_eq_some (hmem.mp ha))
      cases hget.symm.trans hmode

theorem isClashFree_entries (hs : s.WellFormed) (hperm : as.Perm s.entries) : IsClashFree as := by
  have hget : ∀ a ∈ as, Table.get? a.1 s.entries = some a.2 := fun a ha =>
    hs.ordered.mem_iff_get?.mp (hperm.mem_iff.mp ha)
  intro a ha b hb hfile
  refine ⟨fun heq => ?_, fun habove => ?_⟩
  · have hb' := hget b hb
    rw [heq, hget a ha] at hb'
    rwa [← Option.some.inj hb']
  · obtain ⟨mode, hmode⟩ :=
      hs.isDirectory_of_isAbove habove (Option.isSome_of_eq_some (hget b hb))
    rw [Option.some.inj ((hget a ha).symm.trans hmode)] at hfile
    cases hfile

theorem WellFormed.ext (hs : s.WellFormed) (hs' : s'.WellFormed)
    (h : ∀ p, Table.get? p s.entries = Table.get? p s'.entries) : s = s' := by
  cases s
  cases s'
  exact congrArg ExportedState.mk (hs.ordered.ext hs'.ordered h)

end PlaneRestore.ExportedState
