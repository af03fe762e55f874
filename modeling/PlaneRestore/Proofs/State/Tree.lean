import Mathlib.Data.List.Induction
import PlaneRestore.Archive
import PlaneRestore.Proofs.Outcome
import PlaneRestore.Proofs.State.Path
/-!
Exported states are trees.

* `ExportedState.Reachable`: the states that come from adding files and directories. What is
  extracted from an archive is one of them: `reachable_of_extract`.
* `ExportedState.WellFormed`: entries are in the order of their paths, their names are names, and
  above every entry there are directories; `Reachable.wellFormed` finds this in all of them.
* `ExportedState.place` puts an entry in its place, which is what adding a file or a directory comes
  to; `exists_place_iff` tells when it can be put there, and `get?_of_place` what is new then.
* `ExportedState.WellFormed.children_ordered`: a directory is listed by the names in it.
-/

namespace PlaneRestore.ExportedState

/-- The states that come from adding files and directories. -/
inductive Reachable : ExportedState → Prop
  | empty : Reachable empty
  | addDirectory {s s' : ExportedState} {path : String} {mode : Nat} (h : Reachable s)
      (added : s.addDirectory path mode = .ok s') : Reachable s'
  | addFile {s s' : ExportedState} {path : String} {contents : List UInt8} {mode : Nat}
      (h : Reachable s) (added : s.addFile path contents mode = .ok s') : Reachable s'

/-- Whether a path leads to a directory. The root is one. -/
def HasDirectory (s : ExportedState) (p : Path) : Prop :=
  p = [] ∨ ∃ mode, Table.get? p s.entries = some (.directory mode)

/-- A tree: every entry has a name, and a directory to be in. -/
structure WellFormed (s : ExportedState) : Prop where
  ordered : Table.Ordered s.entries
  ne_root : ∀ p, (Table.get? p s.entries).isSome → p ≠ []
  named : ∀ p, (Table.get? p s.entries).isSome → ∀ n ∈ p, Path.IsEntryName n
  parents : ∀ p n, (Table.get? (p ++ [n]) s.entries).isSome → s.HasDirectory p

theorem WellFormed.parse?_render {s : ExportedState} (hs : s.WellFormed) {p : Path}
    (h : (Table.get? p s.entries).isSome) : Path.parse? (Path.render p) = some p :=
  Path.parse?_render (hs.named p h)

theorem WellFormed.mem_keys_iff {s : ExportedState} (hs : s.WellFormed) {p : Path} :
    p ∈ Table.keys s.entries ↔ (Table.get? p s.entries).isSome := by
  rw [Table.keys, List.mem_map, Option.isSome_iff_exists]
  constructor
  · rintro ⟨⟨q, e⟩, hmem, rfl⟩
    exact ⟨e, hs.ordered.mem_iff_get?.mp hmem⟩
  · rintro ⟨e, hget⟩
    exact ⟨(p, e), hs.ordered.mem_iff_get?.mpr hget, rfl⟩

/-! ### What adding an entry does -/

@[simp]
theorem get?_put (s : ExportedState) (p q : Path) (e : Entry) :
    Table.get? q (s.put p e).entries = if q = p then some e else Table.get? q s.entries := by
  rw [put]
  split
  · next h => rw [h, Table.get?_put_self]
  · next h => rw [Table.get?_put_of_ne h]

/-- Adds a list of directories that no one has asked for. -/
def putAll (s : ExportedState) (dirs : List Path) : ExportedState :=
  dirs.foldl (fun s d => s.put d (.directory implicitMode)) s

theorem get?_putAll (s : ExportedState) (dirs : List Path) (q : Path) :
    Table.get? q (s.putAll dirs).entries
      = if q ∈ dirs then some (.directory implicitMode) else Table.get? q s.entries := by
  induction dirs generalizing s with
  | nil => simp [putAll]
  | cons d dirs ih =>
    have := ih (s.put d (.directory implicitMode))
    rw [putAll] at this ⊢
    rw [List.foldl_cons, this, get?_put]
    by_cases hq : q ∈ dirs
    · simp [hq]
    · by_cases hd : q = d <;> simp [hq, hd]

theorem ordered_putAll {s : ExportedState} (h : Table.Ordered s.entries) (dirs : List Path) :
    Table.Ordered (s.putAll dirs).entries := by
  induction dirs generalizing s with
  | nil => exact h
  | cons d dirs ih => exact ih (Table.ordered_put d _ h)

variable {s s' : ExportedState} {p q : Path} {e : Entry}

/-- An added entry, and the directories that were missing above it, are all that is new. -/
theorem eq_put_of_add {s s' : ExportedState} {p : Path} {e : Entry} (h : s.add p e = .ok s') :
    ∃ dirs, s.missing (Path.ancestors p) = .ok dirs ∧ s' = (s.putAll dirs).put p e := by
  rw [add] at h
  obtain ⟨dirs, hdirs, h⟩ := bind_eq_ok_iff.mp h
  cases h
  exact ⟨dirs, hdirs, rfl⟩

/-- Whatever leads to an entry is a directory. -/
theorem WellFormed.hasDirectory_of_append (hs : s.WellFormed) (hq : q ≠ [])
    (h : (Table.get? (p ++ q) s.entries).isSome) : s.HasDirectory p := by
  induction q using List.reverseRecOn with
  | nil => exact absurd rfl hq
  | append_singleton q n ih =>
    rw [← List.append_assoc] at h
    have hparent := hs.parents _ n h
    by_cases hnil : q = []
    · rwa [hnil, List.append_nil] at hparent
    · obtain ⟨mode, hmode⟩ := hparent.resolve_left (by simp [hnil])
      exact ih hnil (by simp [hmode])

/-- Above an entry that is there, there are directories. -/
theorem WellFormed.isDirectory_of_isAbove (hs : s.WellFormed) (hq : q.IsAbove p)
    (hp : (Table.get? p s.entries).isSome) :
    ∃ mode, Table.get? q s.entries = some (.directory mode) := by
  obtain ⟨hne, r, hr, rfl⟩ := hq
  exact (hs.hasDirectory_of_append hr hp).resolve_left hne

/-- Above an entry that is there, nothing is missing. -/
theorem WellFormed.ancestors_filter_eq_nil (hs : s.WellFormed)
    (hp : (Table.get? p s.entries).isSome) :
    (Path.ancestors p).filter (fun q => (Table.get? q s.entries).isNone) = [] := by
  refine List.filter_eq_nil_iff.mpr fun q hq => ?_
  obtain ⟨mode, hmode⟩ := hs.isDirectory_of_isAbove (Path.mem_ancestors_iff.mp hq) hp
  simp [hmode]

/-- What is missing above an entry are the entries above it that are not there. It can be told
unless there is a file among those that are. -/
theorem missing_eq_ok_iff (hs : s.WellFormed) {dirs : List Path} :
    s.missing (Path.ancestors p) = .ok dirs ↔
      (∀ q, q.IsAbove p → ∀ e, Table.get? q s.entries = some e → e.isDirectory = true) ∧
        dirs = (Path.ancestors p).filter fun q => (Table.get? q s.entries).isNone := by
  induction p using List.reverseRecOn generalizing dirs with
  | nil =>
    constructor
    · rintro ⟨⟩
      exact ⟨fun q hq => absurd hq Path.not_isAbove_nil, rfl⟩
    · rintro ⟨-, rfl⟩
      rfl
  | append_singleton p n ih =>
    simp only [Path.isAbove_concat_iff]
    -- directly below the root nothing can be missing
    by_cases hp : p = []
    · subst hp
      constructor
      · rintro ⟨⟩
        exact ⟨fun q hq => absurd hq.2 (not_or.mpr ⟨hq.1, Path.not_isAbove_nil⟩), rfl⟩
      · rintro ⟨-, rfl⟩
        rfl
    rw [Path.ancestors_concat hp, missing]
    cases hget : Table.get? p s.entries with
    | none =>
      rw [List.filter_cons_of_pos (by rw [hget]; rfl)]
      constructor
      · intro h
        obtain ⟨above, habove, h⟩ := bind_eq_ok_iff.mp h
        cases h
        obtain ⟨hdir, rfl⟩ := ih.mp habove
        refine ⟨?_, rfl⟩
        rintro q ⟨-, rfl | hq⟩ e he
        · cases hget.symm.trans he
        · exact hdir q hq e he
      · rintro ⟨hdir, rfl⟩
        exact bind_eq_ok_iff.mpr ⟨_, ih.mpr ⟨fun q hq => hdir q ⟨hq.1, .inr hq⟩, rfl⟩, rfl⟩
    | some e =>
      rw [List.filter_cons_of_neg (by rw [hget]; simp)]
      cases e with
      -- what is above a directory is there, so the search may stop here
      | directory mode =>
        have hsome : (Table.get? p s.entries).isSome := Option.isSome_of_eq_some hget
        rw [hs.ancestors_filter_eq_nil hsome]
        refine ⟨fun h => ?_, fun h => h.2 ▸ rfl⟩
        cases h
        refine ⟨?_, rfl⟩
        rintro q ⟨-, rfl | hq⟩ e he
        · cases hget.symm.trans he
          rfl
        · obtain ⟨mode', hmode'⟩ := hs.isDirectory_of_isAbove hq hsome
          cases hmode'.symm.trans he
          rfl
      | file mode contents =>
        constructor
        · intro h
          cases h
        · intro h
          exact absurd (h.1 p ⟨hp, .inl rfl⟩ _ hget) (by simp [Entry.isDirectory])

/-- Puts an entry in its place, unless something of the other sort is there. -/
def place (s : ExportedState) (p : Path) (e : Entry) : Except ImportError ExportedState :=
  if (Table.get? p s.entries).all fun e' => e'.isDirectory = e.isDirectory then s.add p e
  else throw (.pathConflict (Path.render p))

/-- An entry can be put in its place unless something of the other sort is there, or a file is
above it. -/
theorem exists_place_iff (hs : s.WellFormed) :
    (∃ s', s.place p e = .ok s') ↔
      (∀ e', Table.get? p s.entries = some e' → e'.isDirectory = e.isDirectory) ∧
        ∀ q, q.IsAbove p → ∀ e', Table.get? q s.entries = some e' → e'.isDirectory = true := by
  -- only what is missing can keep an entry from being added
  have hadd : (∃ s', s.add p e = .ok s') ↔ ∃ dirs, s.missing (Path.ancestors p) = .ok dirs := by
    constructor
    · rintro ⟨s', h⟩
      obtain ⟨dirs, hdirs, -⟩ := eq_put_of_add h
      exact ⟨dirs, hdirs⟩
    · rintro ⟨dirs, hdirs⟩
      exact ⟨_, bind_eq_ok_iff.mpr ⟨dirs, hdirs, rfl⟩⟩
  have hmissing : (∃ dirs, s.missing (Path.ancestors p) = .ok dirs) ↔
      ∀ q, q.IsAbove p → ∀ e', Table.get? q s.entries = some e' → e'.isDirectory = true :=
    ⟨fun ⟨_, h⟩ => ((missing_eq_ok_iff hs).mp h).1,
      fun h => ⟨_, (missing_eq_ok_iff hs).mpr ⟨h, rfl⟩⟩⟩
  -- what is left is the comparison with the entry that is already there
  rw [← hmissing, ← hadd, place]
  split
  · next h =>
    refine ⟨fun hok => ⟨fun e' he' => ?_, hok⟩, fun hok => hok.2⟩
    simpa [he'] using h
  · next h =>
    constructor
    · rintro ⟨s', hok⟩
      cases hok
    · rintro ⟨hsort, -⟩
      refine absurd ?_ h
      cases hget : Table.get? p s.entries with
      | none => rfl
      | some e' => simpa using hsort e' hget

/-- After that, the entry is in its place, and there are directories above it. -/
theorem get?_of_place (hs : s.WellFormed) (h : s.place p e = .ok s') (q : Path) :
    Table.get? q s'.entries = if q = p then some e
      else (Table.get? q s.entries).or
        (if q.IsAbove p then some (.directory implicitMode) else none) := by
  rw [place] at h
  split at h
  · obtain ⟨dirs, hdirs, rfl⟩ := eq_put_of_add h
    obtain ⟨-, rfl⟩ := (missing_eq_ok_iff hs).mp hdirs
    rw [get?_put, get?_putAll]
    congr 1
    simp only [List.mem_filter, Path.mem_ancestors_iff]
    cases hget : Table.get? q s.entries with
    | none => simp
    | some e' => simp
  · cases h

theorem ordered_of_place (hs : Table.Ordered s.entries) (h : s.place p e = .ok s') :
    Table.Ordered s'.entries := by
  rw [place] at h
  split at h
  · obtain ⟨dirs, -, rfl⟩ := eq_put_of_add h
    exact Table.ordered_put _ _ (ordered_putAll hs dirs)
  · cases h

/-- Trees stay trees. -/
theorem WellFormed.place (hs : s.WellFormed) (hne : p ≠ [])
    (hnamed : ∀ n ∈ p, Path.IsEntryName n) (h : s.place p e = .ok s') : s'.WellFormed := by
  have hget := get?_of_place hs h
  obtain ⟨hsort, habove⟩ := (exists_place_iff hs).mp ⟨s', h⟩
  have hcases : ∀ q, (Table.get? q s'.entries).isSome →
      q = p ∨ q.IsAbove p ∨ (Table.get? q s.entries).isSome := by
    intro q hq
    by_cases hp : q = p
    · exact .inl hp
    by_cases ha : q.IsAbove p
    · exact .inr (.inl ha)
    · rw [hget, if_neg hp, if_neg ha, Option.or_none] at hq
      exact .inr (.inr hq)
  refine ⟨ordered_of_place hs.ordered h, fun q hq => ?_, fun q hq n hn => ?_, fun q n hq => ?_⟩
  · rcases hcases q hq with rfl | ha | hq
    · exact hne
    · exact ha.1
    · exact hs.ne_root q hq
  · rcases hcases q hq with rfl | ⟨-, r, -, rfl⟩ | hq
    · exact hnamed n hn
    · exact hnamed n (List.mem_append_left r hn)
    · exact hs.named q hq n hn
  · by_cases hroot : q = []
    · exact .inl hroot
    refine .inr ?_
    -- above the new entry there are directories, old or new ones
    have hnew : Path.IsAbove q p → ∃ mode, Table.get? q s'.entries = some (.directory mode) := by
      intro ha
      rw [hget, if_neg ha.ne, if_pos ha]
      cases hq' : Table.get? q s.entries with
      | none => exact ⟨_, rfl⟩
      | some e' =>
        cases e' with
        | directory mode => exact ⟨mode, rfl⟩
        | file mode contents => cases habove q ha _ hq'
    have hq' : Path.IsAbove q (q ++ [n]) := Path.isAbove_concat_iff.mpr ⟨hroot, .inl rfl⟩
    rcases hcases _ hq with hp | ha | hold
    · exact hnew (hp ▸ hq')
    · exact hnew (hq'.trans ha)
    · obtain ⟨mode, hmode⟩ := (hs.parents q n hold).resolve_left hroot
      by_cases hp : q = p
      · subst hp
        have he := hsort _ hmode
        rw [hget, if_pos rfl]
        cases e with
        | directory mode' => exact ⟨mode', rfl⟩
        | file mode' contents => cases he
      · exact ⟨mode, by rw [hget, if_neg hp, hmode, Option.some_or]⟩

theorem wellFormed_empty : WellFormed empty :=
  ⟨Table.ordered_nil, fun _ h => (nomatch h), fun _ h => (nomatch h), fun _ _ h => (nomatch h)⟩

theorem parsePath_eq_of_parse? {path : String} {p : Path} (h : Path.parse? path = some p) :
    parsePath path = .ok p := by
  rw [parsePath, h]
  rfl

theorem addDirectory_of_parse? {path : String} (mode : Nat) (hp : Path.parse? path = some p) :
    s.addDirectory path mode = if p = [] then .ok s else s.place p (.directory mode) := by
  rw [addDirectory, parsePath_eq_of_parse? hp, place]
  show (if p.isEmpty then _ else _) = _
  cases p with
  | nil => rfl
  | cons n p =>
    cases hget : Table.get? (n :: p) s.entries with
    | none => rfl
    | some e => cases e <;> rfl

theorem addFile_of_parse? {path : String} (contents : List UInt8) (mode : Nat)
    (hp : Path.parse? path = some p) : s.addFile path contents mode
      = if p = [] then .error (.invalidPath "/") else s.place p (.file mode contents) := by
  rw [addFile, parsePath_eq_of_parse? hp, place]
  show (if p.isEmpty then _ else _) = _
  cases p with
  | nil => rfl
  | cons n p =>
    cases hget : Table.get? (n :: p) s.entries with
    | none => rfl
    | some e => cases e <;> rfl

theorem addDirectory_eq_ok_iff {path : String} {mode : Nat} :
    s.addDirectory path mode = .ok s' ↔ ∃ p, Path.parse? path = some p ∧
      if p = [] then s = s' else s.place p (.directory mode) = .ok s' := by
  cases hp : Path.parse? path with
  | none =>
    have hno : ¬s.addDirectory path mode = .ok s' := by
      rw [addDirectory, parsePath, hp]
      intro h
      cases h
    simpa using hno
  | some p =>
    rw [addDirectory_of_parse? mode hp]
    by_cases hne : p = [] <;> simp [hne]

theorem addFile_eq_ok_iff {path : String} {contents : List UInt8} {mode : Nat} :
    s.addFile path contents mode = .ok s' ↔ ∃ p, Path.parse? path = some p ∧ p ≠ [] ∧
      s.place p (.file mode contents) = .ok s' := by
  cases hp : Path.parse? path with
  | none =>
    have hno : ¬s.addFile path contents mode = .ok s' := by
      rw [addFile, parsePath, hp]
      intro h
      cases h
    simpa using hno
  | some p =>
    rw [addFile_of_parse? contents mode hp]
    by_cases hne : p = [] <;> simp [hne]

theorem Reachable.wellFormed {s : ExportedState} (h : s.Reachable) : s.WellFormed := by
  induction h with
  | empty => exact wellFormed_empty
  | addDirectory _ added ih =>
    obtain ⟨p, hp, added⟩ := addDirectory_eq_ok_iff.mp added
    split at added
    · exact added ▸ ih
    · next hne => exact ih.place hne (Path.isEntryName_of_parse? hp) added
  | addFile _ added ih =>
    obtain ⟨p, hp, hne, added⟩ := addFile_eq_ok_iff.mp added
    exact ih.place hne (Path.isEntryName_of_parse? hp) added

/-! ### Archives -/

theorem Reachable.addMember {s s' : ExportedState} {path : String} {m : Tar.Member}
    (hs : s.Reachable) (h : ExportedState.addMember path s m = .ok s') : s'.Reachable := by
  rw [ExportedState.addMember] at h
  split at h
  · cases h
  · split at h
    · exact hs.addDirectory h
    · split at h
      · exact hs.addFile h
      · split at h
        · cases h
        · cases h
    · cases h
      exact hs
    · cases h

theorem reachable_of_ofMembers {s : ExportedState} {path : String} {members : List Tar.Member}
    (h : ofMembers path members = .ok s) : s.Reachable := by
  suffices hfold : ∀ s₀ : ExportedState, s₀.Reachable →
      members.foldlM (ExportedState.addMember path) s₀ = .ok s → s.Reachable from hfold _ .empty h
  clear h
  induction members with
  | nil =>
    rintro s₀ hs₀ ⟨⟩
    exact hs₀
  | cons m members ih =>
    intro s₀ hs₀ hfold
    rw [List.foldlM_cons] at hfold
    obtain ⟨s₁, hadded, hrest⟩ := bind_eq_ok_iff.mp hfold
    exact ih s₁ (hs₀.addMember hadded) hrest

/-- What is extracted from an archive comes from adding files and directories. -/
theorem reachable_of_extract {s : ExportedState} {path : String} {source : SourceFile}
    {isCancelled : Bool} (h : extract path source isCancelled = .ok s) : s.Reachable := by
  cases source with
  | closed reason => cases h
  | directory => cases h
  | file bytes =>
    rw [extract] at h
    generalize Tar.members (Gzip.Stream.ofGzip bytes) = found at h
    obtain ⟨members, isBroken⟩ := found
    split at h
    · cases h
    · dsimp only at h
      split at h
      · cases h
      -- only the last of the checks lets a state out
      · obtain ⟨s', hmembers, h⟩ := bind_eq_ok_iff.mp h
        split at h
        · cases h
        · cases h
          exact reachable_of_ofMembers hmembers

/-! ### Listings -/

theorem mem_children_iff {s : ExportedState} {p : Path} {n : String} {e : Entry} :
    (n, e) ∈ s.children p ↔ (p ++ [n], e) ∈ s.entries := by
  simp only [children, List.mem_filterMap, Option.map_eq_some_iff, Path.childName?_eq_some_iff,
    Prod.exists, Prod.mk.injEq]
  constructor
  · rintro ⟨q, e', hm, m, rfl, rfl, rfl⟩
    exact hm
  · intro hm
    exact ⟨p ++ [n], e, hm, n, rfl, rfl, rfl⟩

theorem WellFormed.mem_children_iff {s : ExportedState} (hs : s.WellFormed) {p : Path} {n : String}
    {e : Entry} : (n, e) ∈ s.children p ↔ Table.get? (p ++ [n]) s.entries = some e := by
  rw [ExportedState.mem_children_iff, hs.ordered.mem_iff_get?]

/-- A directory is listed by the names in it. -/
theorem WellFormed.children_ordered {s : ExportedState} (hs : s.WellFormed) (p : Path) :
    ((s.children p).map (·.1)).Pairwise (· < ·) := by
  rw [List.pairwise_map]
  refine List.Pairwise.filterMap _ ?_ hs.ordered
  rintro ⟨q, e⟩ ⟨q', e'⟩ hlt b hb b' hb'
  simp only [Option.map_eq_some_iff, Path.childName?_eq_some_iff] at hb hb'
  obtain ⟨m, rfl, rfl⟩ := hb
  obtain ⟨m', rfl, rfl⟩ := hb'
  rw [Path.compare_concat] at hlt
  exact compareOfLessAndEq_eq_lt.mp hlt

end PlaneRestore.ExportedState
