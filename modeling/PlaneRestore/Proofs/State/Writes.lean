import PlaneRestore.Proofs.State.Edits
/-!
Files and directories that are written in place.

* `ExportedState.Change`: something that changes a state step by step, and may fail on the way.
  `Change.writeFile` and `Change.createDirectory` put the missing directories in first, one after
  another, and then the new entry.
* `ExportedState.atomically s result`: the state is `result`, or it has failed and is `s` as before.
  `Change.run_writeFile` and `Change.run_createDirectory`: so it is with these changes.
* `ExportedState.Gains s s' p e`: all that is new in `s'` are the entry `e` at the path `p` and the
  directories that were missing above it.

`writes_are_atomic` tells when the changes fail, and that they do nothing else.
-/

namespace PlaneRestore.ExportedState

/-! ### Changes -/

/-- Changes a state step by step, and may fail. What was changed until then stays. -/
abbrev Change : Type → Type := ExceptT ImportError (StateM ExportedState)

namespace Change

/-- Puts in directories that no one has asked for. -/
def putDirectories (dirs : List Path) : Change Unit :=
  dirs.forM fun d => modify fun s => s.put d (.directory implicitMode)

/-- Puts in the directories that are missing above an entry. -/
def ensureParents (p : Path) : Change Unit := do
  putDirectories (← ofExcept ((← get).missing (Path.ancestors p)))

/-- Puts in an entry after the directories that are missing above it. -/
def insert (p : Path) (e : Entry) : Change Unit := do
  ensureParents p
  modify fun s => s.put p e

/-- Puts in an entry, unless something of the other sort is at its path. -/
def place (p : Path) (e : Entry) : Change Unit := do
  match Table.get? p (← get).entries with
  | some e' =>
    if e'.isDirectory = e.isDirectory then insert p e else throw (.pathConflict (Path.render p))
  | none => insert p e

def createDirectory (path : String) (mode : Nat) : Change Unit := do
  let p ← ofExcept (parsePath path)
  if p.isEmpty then return else place p (.directory mode)

def writeFile (path : String) (contents : List UInt8) (mode : Nat) : Change Unit := do
  let p ← ofExcept (parsePath path)
  if p.isEmpty then throw (.invalidPath "/") else place p (.file mode contents)

end Change

/-- A change that has succeeded, or has failed and done nothing. -/
def atomically (s : ExportedState) :
    Except ImportError ExportedState → Except ImportError Unit × ExportedState
  | .ok s' => (.ok (), s')
  | .error e => (.error e, s)

namespace Change

theorem run_bind {α β : Type} (x : Change α) (f : α → Change β) (s : ExportedState) :
    (x >>= f).run.run s = match x.run.run s with
      | (.ok a, s') => (f a).run.run s'
      | (.error e, s') => (.error e, s') := by
  rw [ExceptT.run_bind, StateT.run_bind]
  obtain ⟨result, s'⟩ := x.run.run s
  cases result <;> rfl

theorem run_putDirectories (s : ExportedState) (dirs : List Path) :
    (putDirectories dirs).run.run s = (.ok (), s.putAll dirs) := by
  induction dirs generalizing s with
  | nil => rfl
  | cons d dirs ih => exact ih (s.put d (.directory implicitMode))

/-- Nothing is put in before it is known that there is no file above. -/
theorem run_insert (s : ExportedState) (p : Path) (e : Entry) :
    (insert p e).run.run s = s.atomically (s.add p e) := by
  have hparents : (ensureParents p).run.run s
      = s.atomically ((s.missing (Path.ancestors p)).map s.putAll) := by
    show ((ofExcept (s.missing (Path.ancestors p)) : Change _) >>= putDirectories).run.run s = _
    cases s.missing (Path.ancestors p) with
    | error e => rfl
    | ok dirs => exact run_putDirectories s dirs
  -- once the parents are there, nothing fails any more
  rw [insert, run_bind, hparents, add]
  cases s.missing (Path.ancestors p) <;> rfl

theorem run_place (s : ExportedState) (p : Path) (e : Entry) :
    (place p e).run.run s = s.atomically (s.place p e) := by
  show (match Table.get? p s.entries with
      | some e' => if e'.isDirectory = e.isDirectory then insert p e else
        throw (.pathConflict (Path.render p))
      | none => insert p e : Change Unit).run.run s = _
  rw [ExportedState.place]
  cases Table.get? p s.entries with
  | none => exact run_insert s p e
  | some e' =>
    by_cases hsort : e'.isDirectory = e.isDirectory
    · simpa [hsort] using run_insert s p e
    · simp [hsort]
      rfl

theorem run_createDirectory (s : ExportedState) (path : String) (mode : Nat) :
    (createDirectory path mode).run.run s = s.atomically (s.addDirectory path mode) := by
  cases hp : Path.parse? path with
  | none =>
    rw [addDirectory, createDirectory, parsePath, hp]
    rfl
  | some p =>
    rw [addDirectory_of_parse? mode hp, createDirectory, parsePath_eq_of_parse? hp]
    cases p with
    | nil => rfl
    | cons n p => exact run_place s _ _

theorem run_writeFile (s : ExportedState) (path : String) (contents : List UInt8) (mode : Nat) :
    (writeFile path contents mode).run.run s = s.atomically (s.addFile path contents mode) := by
  cases hp : Path.parse? path with
  | none =>
    rw [addFile, writeFile, parsePath, hp]
    rfl
  | some p =>
    rw [addFile_of_parse? contents mode hp, writeFile, parsePath_eq_of_parse? hp]
    cases p with
    | nil => rfl
    | cons n p => exact run_place s _ _

end Change

/-! ### What is new -/

/-- What is read from the entry at a path. -/
def readEntry (p : Path) : Entry → Except ImportError (List UInt8)
  | .file _ contents => .ok contents
  | .directory _ => .error (.notAFile (Path.render p))

/-- All that is new in `s'` are an entry and the directories that were missing above it. -/
structure Gains (s s' : ExportedState) (p : Path) (e : Entry) : Prop where
  /-- The entry is at its path, whatever was there. -/
  new : Table.get? p s'.entries = some e
  /-- What was missing above are directories with the mode that no one has asked for. -/
  above : ∀ q, q.IsAbove p → Table.get? q s.entries = none →
    Table.get? q s'.entries = some (.directory 0o755)
  kept : ∀ q, q ≠ p → (q.IsAbove p → Table.get? q s.entries ≠ none) →
    Table.get? q s'.entries = Table.get? q s.entries
  /-- However its path is spelled, the entry is found. -/
  found : ∀ path, Path.parse? path = some p → s'.entryAt? path = some e
  read : ∀ path, Path.parse? path = some p → s'.contentsOf path = readEntry p e

variable {s s' : ExportedState} {p : Path} {e : Entry}

theorem contentsOf_eq_readEntry {path : String} (hp : Path.parse? path = some p)
    (h : Table.get? p s.entries = some e) : s.contentsOf path = readEntry p e := by
  rw [contentsOf, parsePath_eq_of_parse? hp]
  simp only [bind, Except.bind, h]
  cases e <;> rfl

theorem WellFormed.gains (hs : s.WellFormed) (h : s.place p e = .ok s') : s.Gains s' p e := by
  have hget := get?_of_place hs h
  have hnew : Table.get? p s'.entries = some e := by rw [hget, if_pos rfl]
  refine ⟨hnew, fun q hq hnone => ?_, fun q hne hthere => ?_, fun path hp => ?_, fun path hp => ?_⟩
  · rw [hget, if_neg hq.ne, hnone, if_pos hq]
    rfl
  · rw [hget, if_neg hne]
    by_cases hq : q.IsAbove p
    · obtain ⟨e', he'⟩ := Option.ne_none_iff_exists'.mp (hthere hq)
      rw [he', Option.some_or]
    · rw [if_neg hq, Option.or_none]
  · rw [entryAt?, hp]
    exact hnew
  · exact contentsOf_eq_readEntry hp hnew

/-! ### Obstacles -/

/-- There is a file above a path. -/
def HasFileAbove (s : ExportedState) (p : Path) : Prop :=
  ∃ q, q.IsAbove p ∧ ∃ mode contents, Table.get? q s.entries = some (.file mode contents)

theorem WellFormed.place_fails_iff (hs : s.WellFormed) :
    (∃ err, s.place p e = .error err) ↔
      (∃ e', Table.get? p s.entries = some e' ∧ e'.isDirectory ≠ e.isDirectory) ∨
        s.HasFileAbove p := by
  -- what is above and no directory is a file
  have hfile : s.HasFileAbove p ↔
      ¬∀ q, q.IsAbove p → ∀ e', Table.get? q s.entries = some e' → e'.isDirectory = true := by
    constructor
    · rintro ⟨q, hq, mode, contents, hget⟩ hall
      cases hall q hq _ hget
    · intro hnot
      push Not at hnot
      obtain ⟨q, hq, e', hget, hne⟩ := hnot
      cases e' with
      | directory mode => exact absurd rfl hne
      | file mode contents => exact ⟨q, hq, mode, contents, hget⟩
  rw [exists_error_iff, exists_place_iff hs, not_and_or, hfile]
  refine or_congr_left ?_
  push Not
  rfl

theorem WellFormed.place_file_fails_iff (hs : s.WellFormed) (mode : Nat) (contents : List UInt8) :
    (∃ err, s.place p (.file mode contents) = .error err) ↔
      (∃ mode', Table.get? p s.entries = some (.directory mode')) ∨ s.HasFileAbove p := by
  rw [hs.place_fails_iff]
  refine or_congr_left ⟨?_, fun ⟨mode', hget⟩ => ⟨_, hget, nofun⟩⟩
  rintro ⟨e', hget, hsort⟩
  cases e' with
  | directory mode' => exact ⟨mode', hget⟩
  | file mode' contents' => exact absurd rfl hsort

theorem WellFormed.place_directory_fails_iff (hs : s.WellFormed) (mode : Nat) :
    (∃ err, s.place p (.directory mode) = .error err) ↔
      (∃ mode' contents, Table.get? p s.entries = some (.file mode' contents)) ∨
        s.HasFileAbove p := by
  rw [hs.place_fails_iff]
  refine or_congr_left ⟨?_, fun ⟨mode', contents, hget⟩ => ⟨_, hget, nofun⟩⟩
  rintro ⟨e', hget, hsort⟩
  cases e' with
  | directory mode' => exact absurd rfl hsort
  | file mode' contents => exact ⟨mode', contents, hget⟩

theorem parse?_eq_none_iff {path : String} :
    Path.parse? path = none ↔ ".." ∈ Path.segments path := by
  rw [← not_iff_not, ← Path.parse?_isSome_iff, Option.isSome_iff_ne_none]

/-- What keeps a file from being written at a path. -/
inductive BlocksFile (s : ExportedState) (path : String) : Prop
  | upwards (h : ".." ∈ Path.segments path)
  | root (h : Path.parse? path = some [])
  | directory {p : Path} {mode : Nat} (h : Path.parse? path = some p)
      (there : Table.get? p s.entries = some (.directory mode))
  | below {p : Path} (h : Path.parse? path = some p) (file : s.HasFileAbove p)

/-- What keeps a directory from being created at a path. -/
inductive BlocksDirectory (s : ExportedState) (path : String) : Prop
  | upwards (h : ".." ∈ Path.segments path)
  | file {p : Path} {mode : Nat} {contents : List UInt8} (h : Path.parse? path = some p)
      (there : Table.get? p s.entries = some (.file mode contents))
  | below {p : Path} (h : Path.parse? path = some p) (file : s.HasFileAbove p)

theorem WellFormed.addFile_fails_iff (hs : s.WellFormed) (path : String) (contents : List UInt8)
    (mode : Nat) :
    (∃ err, s.addFile path contents mode = .error err) ↔ s.BlocksFile path := by
  cases hp : Path.parse? path with
  | none =>
    refine ⟨fun _ => .upwards (parse?_eq_none_iff.mp hp), fun _ => ⟨.invalidPath path, ?_⟩⟩
    rw [addFile, parsePath, hp]
    rfl
  | some p =>
    rw [addFile_of_parse? contents mode hp]
    by_cases hroot : p = []
    · exact ⟨fun _ => .root (hroot ▸ hp), fun _ => ⟨_, if_pos hroot⟩⟩
    -- a proper path: all depends on what is there, and above it
    rw [if_neg hroot, hs.place_file_fails_iff]
    constructor
    · rintro (⟨mode', hget⟩ | habove)
      · exact .directory hp hget
      · exact .below hp habove
    · rintro (hup | hroot' | ⟨hp', hget⟩ | ⟨hp', habove⟩)
      · cases hp.symm.trans (parse?_eq_none_iff.mpr hup)
      · exact absurd (Option.some.inj (hp.symm.trans hroot')) hroot
      · cases hp.symm.trans hp'
        exact .inl ⟨_, hget⟩
      · cases hp.symm.trans hp'
        exact .inr habove

theorem WellFormed.addDirectory_fails_iff (hs : s.WellFormed) (path : String) (mode : Nat) :
    (∃ err, s.addDirectory path mode = .error err) ↔ s.BlocksDirectory path := by
  cases hp : Path.parse? path with
  | none =>
    refine ⟨fun _ => .upwards (parse?_eq_none_iff.mp hp), fun _ => ⟨.invalidPath path, ?_⟩⟩
    rw [addDirectory, parsePath, hp]
    rfl
  | some p =>
    -- of a path that can be parsed, the blocks are a file at it and one above it
    have hblocks : ((∃ mode' contents, Table.get? p s.entries = some (.file mode' contents)) ∨
        s.HasFileAbove p) ↔ s.BlocksDirectory path := by
      constructor
      · rintro (⟨mode', contents, hget⟩ | habove)
        · exact .file hp hget
        · exact .below hp habove
      · rintro (hup | ⟨hp', hget⟩ | ⟨hp', habove⟩)
        · cases hp.symm.trans (parse?_eq_none_iff.mpr hup)
        · cases hp.symm.trans hp'
          exact .inl ⟨_, _, hget⟩
        · cases hp.symm.trans hp'
          exact .inr habove
    rw [addDirectory_of_parse? mode hp, ← hblocks]
    by_cases hroot : p = []
    · -- nothing is at the root, and nothing above it
      subst hroot
      rw [if_pos rfl]
      refine iff_of_false (fun h => exists_error_iff.mp h ⟨s, rfl⟩) ?_
      rintro (⟨mode', contents, hget⟩ | ⟨q, hq, -⟩)
      · exact absurd rfl (hs.ne_root [] (Option.isSome_of_eq_some hget))
      · exact Path.not_isAbove_nil hq
    · rw [if_neg hroot, hs.place_directory_fails_iff]

/-- A change in place, what it comes to, and what keeps it from that. -/
structure IsAtomic (s : ExportedState) (change : Change Unit)
    (result : Except ImportError ExportedState) (blocked : Prop) (done : ExportedState → Prop) :
    Prop where
  /-- Step by step, the change comes to the result, or fails and leaves the state as it was. -/
  runs : change.run.run s = s.atomically result
  fails_iff : (∃ err, result = .error err) ↔ blocked
  succeeds : ∀ s', result = .ok s' → done s'

/-- **Writes are atomic, and touch only what they must.** In every state that comes from adding
files and directories: a file can be written unless its path leads upwards, is the root or that of a
directory, or leads through a file. A directory can be created unless its path leads upwards, is
that of a file, or leads through one; creating the root does nothing. What fails leaves the state as
it was. What succeeds puts in the entry and the directories that were missing above it, and that is
all. -/
theorem writes_are_atomic {s : ExportedState} (hs : s.Reachable) (path : String) (mode : Nat) :
    (∀ contents,
      s.IsAtomic (Change.writeFile path contents mode) (s.addFile path contents mode)
        (s.BlocksFile path)
        fun s' => ∃ p, Path.parse? path = some p ∧ s.Gains s' p (.file mode contents)) ∧
      s.IsAtomic (Change.createDirectory path mode) (s.addDirectory path mode)
        (s.BlocksDirectory path)
        fun s' => ∃ p, Path.parse? path = some p ∧
          if p = [] then s' = s else s.Gains s' p (.directory mode) := by
  have hs := hs.wellFormed
  refine ⟨fun contents => ⟨Change.run_writeFile s path contents mode,
    hs.addFile_fails_iff path contents mode, fun s' h => ?_⟩,
    Change.run_createDirectory s path mode, hs.addDirectory_fails_iff path mode, fun s' h => ?_⟩
  -- what was gained can be told from the place where it was put
  · obtain ⟨p, hp, -, h⟩ := addFile_eq_ok_iff.mp h
    exact ⟨p, hp, hs.gains h⟩
  · obtain ⟨p, hp, h⟩ := addDirectory_eq_ok_iff.mp h
    refine ⟨p, hp, ?_⟩
    split at h
    · next hroot => rw [if_pos hroot, h]
    · next hroot =>
      rw [if_neg hroot]
      exact hs.gains h

namespace Sample

/-- A state with one file. -/
def noted : ExportedState := afterEdits [.file "docs/a.txt" [104] 0o600]

end Sample

theorem writes_are_atomic_sample :
    (∃ s', Sample.noted.addFile "./docs//new/b.txt" [105] 0o644 = .ok s' ∧
        Sample.noted.Gains s' ["docs", "new", "b.txt"] (.file 0o644 [105])) ∧
      (Change.writeFile "docs/a.txt/x/y" [105] 0o644).run.run Sample.noted
        = (.error (.pathConflict "docs/a.txt"), Sample.noted) := by
  have hnoted : Sample.noted.Reachable := reachable_afterEdits _
  constructor
  · have hsome : (Sample.noted.addFile "./docs//new/b.txt" [105] 0o644).toOption.isSome = true := by
      decide +kernel
    have hparse : Path.parse? "./docs//new/b.txt" = some ["docs", "new", "b.txt"] := by
      decide +kernel
    cases hadd : Sample.noted.addFile "./docs//new/b.txt" [105] 0o644 with
    | error e => simp [hadd, Except.toOption] at hsome
    | ok s' =>
      obtain ⟨p, hp, hgains⟩ :=
        ((writes_are_atomic hnoted "./docs//new/b.txt" 0o644).1 [105]).succeeds s' hadd
      cases hparse.symm.trans hp
      exact ⟨s', rfl, hgains⟩
  · have hadd :
        Sample.noted.addFile "docs/a.txt/x/y" [105] 0o644
          = .error (.pathConflict "docs/a.txt") := by
      decide +kernel
    rw [((writes_are_atomic hnoted "docs/a.txt/x/y" 0o644).1 [105]).runs, hadd]
    rfl

end PlaneRestore.ExportedState
