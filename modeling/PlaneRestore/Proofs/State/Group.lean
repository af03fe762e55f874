import PlaneRestore.Proofs.State.Manifests
/-!
Reading a group, whatever its directory is called and whatever is in it.

* `ExportedState.childrenOf` is what is directly inside the directory that a text denotes, in the
  order of the names; `WellFormed.mem_childrenOf_iff` says what that is.
* `ExportedState.readChild` reads the manifest in one of them. `WellFormed.readGroup_eq`: a group is
  read child by child, up to the first one that is no file with a manifest.
-/

namespace PlaneRestore.ExportedState

variable {s : ExportedState} {group : String}

/-- What is directly inside the directory that a text denotes. -/
def childrenOf (s : ExportedState) (group : String) : List (String × Entry) :=
  (Path.parse? group).elim [] s.children

/-- The manifest in a child of a group's directory. Its file is named as the group is. -/
def readChild (group : String) : String × Entry → Except ImportError Manifest
  | (name, .directory _) => throw (.notAFile (group ++ "/" ++ name))
  | (name, .file _ contents) =>
    match Resource.ofYaml contents with
    | .ok r => return ⟨group ++ "/" ++ name, r⟩
    | .error e => throw (.manifest (group ++ "/" ++ name) (.invalidResource e))

theorem WellFormed.childrenOf_ordered (hs : s.WellFormed) (group : String) :
    ((s.childrenOf group).map (·.1)).Pairwise (· < ·) := by
  rw [childrenOf]
  cases Path.parse? group with
  | none => exact .nil
  | some p => exact hs.children_ordered p

theorem entryAt?_append_name (s : ExportedState) (group : String) {name : String}
    (hname : Path.IsEntryName name) :
    s.entryAt? (group ++ "/" ++ name)
      = (Path.parse? group).bind fun p => Table.get? (p ++ [name]) s.entries := by
  rw [entryAt?, Path.parse?_append_name group hname, Option.bind_map]
  rfl

theorem WellFormed.mem_childrenOf_iff (hs : s.WellFormed) {name : String} {e : Entry} :
    (name, e) ∈ s.childrenOf group ↔
      Path.IsEntryName name ∧ s.entryAt? (group ++ "/" ++ name) = some e := by
  rw [childrenOf]
  cases hp : Path.parse? group with
  | none =>
    refine iff_of_false List.not_mem_nil fun ⟨hname, hentry⟩ => ?_
    rw [entryAt?_append_name s group hname, hp] at hentry
    cases hentry
  | some p =>
    refine hs.mem_children_iff.trans ⟨fun hget => ?_, fun ⟨hname, hentry⟩ => ?_⟩
    · have hname : Path.IsEntryName name :=
        hs.named (p ++ [name]) (Option.isSome_of_eq_some hget) name (by simp)
      exact ⟨hname, by rw [entryAt?_append_name s group hname, hp, Option.bind_some, hget]⟩
    · rwa [entryAt?_append_name s group hname, hp, Option.bind_some] at hentry

/-- A child is read as what it is. -/
theorem WellFormed.readManifest_eq (hs : s.WellFormed) {child : String × Entry}
    (hchild : child ∈ s.childrenOf group) :
    s.readManifest group ⟨child.1, child.2.isDirectory⟩ = readChild group child := by
  obtain ⟨name, mode | ⟨mode, contents⟩⟩ := child
  · rfl
  · obtain ⟨hname, hentry⟩ := hs.mem_childrenOf_iff.mp hchild
    rw [entryAt?_append_name s group hname] at hentry
    obtain ⟨p, hp, hget⟩ := Option.bind_eq_some_iff.mp hentry
    have hparse : Path.parse? (group ++ "/" ++ name) = some (p ++ [name]) := by
      rw [Path.parse?_append_name group hname, hp, Option.map_some]
    have hcontents : s.contentsOf (group ++ "/" ++ name) = .ok contents := by
      rw [contentsOf, parsePath_eq_of_parse? hparse]
      simp only [bind, Except.bind, hget]
      rfl
    simp only [readManifest, Entry.isDirectory, Bool.false_eq_true, if_false, hcontents, readChild]
    rfl

/-- A group that is not there holds no manifests. -/
theorem readGroup_of_absent (h : s.entryAt? group = none) : s.readGroup group = .ok [] := by
  rw [readGroup, h]
  rfl

/-- A file is not read as a group. -/
theorem WellFormed.readGroup_of_file (hs : s.WellFormed) {p : Path} {mode : Nat}
    {contents : List UInt8} (hp : Path.parse? group = some p)
    (h : s.entryAt? group = some (.file mode contents)) :
    s.readGroup group = .error (.notADirectory (Path.render p)) := by
  have hget : Table.get? p s.entries = some (.file mode contents) := by
    rwa [entryAt?, hp, Option.bind_some] at h
  have hne : p ≠ [] := hs.ne_root p (Option.isSome_of_eq_some hget)
  have hitems : s.itemsOf group = .error (.notADirectory (Path.render p)) := by
    rw [itemsOf, parsePath_eq_of_parse? hp]
    simp only [bind, Except.bind, hget, List.isEmpty_iff, hne, if_false]
    rfl
  rw [readGroup, h, hitems]
  rfl

/-- The directory of a group is read child by child. -/
theorem WellFormed.readGroup_eq (hs : s.WellFormed) {mode : Nat}
    (h : s.entryAt? group = some (.directory mode)) :
    s.readGroup group = (s.childrenOf group).mapM (readChild group) := by
  obtain ⟨p, hp, hget⟩ := Option.bind_eq_some_iff.mp h
  have hitems : s.itemsOf group = .ok (s.items p) :=
    (itemsOf_eq_ok_iff hp).mpr ⟨.inr ⟨mode, hget⟩, rfl⟩
  have hchildren : s.childrenOf group = s.children p := by rw [childrenOf, hp, Option.elim_some]
  rw [readGroup, h, hitems]
  show (s.items p).mapM (s.readManifest group) = _
  rw [items, ← hchildren, List.mapM_map]
  exact mapM_congr fun c hc => hs.readManifest_eq hc

end PlaneRestore.ExportedState
