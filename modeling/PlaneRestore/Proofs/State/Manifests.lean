import PlaneRestore.Import.Run
import PlaneRestore.Proofs.State.Listing
/-!
The manifests of an exported state, in the order in which they are restored.

* `ExportedState.baseManifests` and `ExportedState.laterManifests` list them: first those of the
  base groups, then those of the other groups.
* `ExportedState.ListedByName` says that groups and files come by their names, and that none of them
  is left out; `WellFormed.listedByName` finds this in every tree.
* `WellFormed.manifestsIn_of_readGroup` and `WellFormed.laterGroups_of_remainingGroups`: these are
  the manifests and the groups that an import reads, if it can read them.
-/

namespace PlaneRestore.ExportedState

/-- The manifest in a child of a group's directory, if it is a file with one. -/
def manifestOf? (group : String) : String × Entry → Option Manifest
  | (name, .file _ contents) =>
    (Resource.ofYaml contents).toOption.map fun r => ⟨group ++ "/" ++ name, r⟩
  | (_, .directory _) => none

/-- The manifests in the directory of a group. -/
def manifestsIn (s : ExportedState) (group : String) : List Manifest :=
  (s.children [group]).filterMap (manifestOf? group)

/-- Whether a child of the root is the directory of a group that is no base group. -/
def isLaterGroup (child : String × Entry) : Bool :=
  child.2.isDirectory && child.1 ≠ exportMetaFile && !isBaseGroup child.1

/-- The groups that are no base groups. -/
def laterGroups (s : ExportedState) : List String :=
  ((s.children []).filter isLaterGroup).map (·.1)

/-- The manifests of the base groups. -/
def baseManifests (s : ExportedState) : List Manifest := baseGroups.flatMap s.manifestsIn

/-- The manifests of the other groups. -/
def laterManifests (s : ExportedState) : List Manifest := s.laterGroups.flatMap s.manifestsIn

/-- The lists of groups and manifests are in the order of names, and hold what is there. -/
structure ListedByName (s : ExportedState) : Prop where
  groups_ordered : s.laterGroups.Pairwise (· < ·)
  mem_groups : ∀ g, g ∈ s.laterGroups ↔ g ≠ exportMetaFile ∧ isBaseGroup g = false ∧
    ∃ mode, Table.get? [g] s.entries = some (.directory mode)
  files_ordered : ∀ g, ∃ names : List String, names.Pairwise (· < ·) ∧
    (s.manifestsIn g).map (·.file) = names.map (g ++ "/" ++ ·)
  mem_manifests : ∀ g m, m ∈ s.manifestsIn g ↔ ∃ name mode contents, m.file = g ++ "/" ++ name ∧
    Table.get? [g, name] s.entries = some (.file mode contents) ∧
    Resource.ofYaml contents = .ok m.resource

theorem manifestOf?_eq_some_iff {g : String} {child : String × Entry} {m : Manifest} :
    manifestOf? g child = some m ↔
      m.file = g ++ "/" ++ child.1 ∧ ∃ mode contents, child.2 = .file mode contents ∧
        Resource.ofYaml contents = .ok m.resource := by
  obtain ⟨file, resource⟩ := m
  obtain ⟨name, mode | ⟨mode, contents⟩⟩ := child
  · simp [manifestOf?]
  · cases hr : Resource.ofYaml contents <;>
      simp [manifestOf?, hr, Except.toOption, and_comm, eq_comm]

theorem WellFormed.listedByName {s : ExportedState} (hs : s.WellFormed) : s.ListedByName := by
  refine ⟨?_, fun g => ?_, fun g => ?_, fun g m => ?_⟩
  · exact (hs.children_ordered []).sublist (List.filter_sublist.map _)
  · simp only [laterGroups, List.mem_map, List.mem_filter, Prod.exists, exists_and_right,
      exists_eq_right, hs.mem_children_iff, isLaterGroup, Bool.and_eq_true, decide_eq_true_eq,
      Bool.not_eq_true', List.nil_append]
    constructor
    · rintro ⟨e, hget, ⟨hdir, hmeta⟩, hbase⟩
      cases e with
      | directory mode => exact ⟨hmeta, hbase, mode, hget⟩
      | file mode contents => cases hdir
    · rintro ⟨hmeta, hbase, mode, hget⟩
      exact ⟨.directory mode, hget, ⟨rfl, hmeta⟩, hbase⟩
  -- the names of the manifests are some of those of the children, in their order
  · refine ⟨(s.children [g]).filterMap fun c => (manifestOf? g c).map fun _ => c.1, ?_, ?_⟩
    · have := hs.children_ordered [g]
      rw [List.pairwise_map] at this
      refine this.filterMap _ ?_
      intro c c' hlt n hn n' hn'
      obtain ⟨-, -, rfl⟩ := Option.map_eq_some_iff.mp hn
      obtain ⟨-, -, rfl⟩ := Option.map_eq_some_iff.mp hn'
      exact hlt
    · rw [manifestsIn, List.map_filterMap, List.map_filterMap]
      refine List.filterMap_congr fun c _ => ?_
      cases hm : manifestOf? g c with
      | none => rfl
      | some m => simp [(manifestOf?_eq_some_iff.mp hm).1]
  · simp only [manifestsIn, List.mem_filterMap, Prod.exists, hs.mem_children_iff,
      manifestOf?_eq_some_iff, List.cons_append, List.nil_append]
    constructor
    · rintro ⟨name, e, hget, hfile, mode, contents, rfl, hr⟩
      exact ⟨name, mode, contents, hfile, hget, hr⟩
    · rintro ⟨name, mode, contents, hfile, hget, hr⟩
      exact ⟨name, .file mode contents, hget, hfile, mode, contents, rfl, hr⟩

theorem WellFormed.isEntryName_of_mem_laterGroups {s : ExportedState} (hs : s.WellFormed)
    {g : String} (h : g ∈ s.laterGroups) : Path.IsEntryName g := by
  obtain ⟨-, -, mode, hget⟩ := (hs.listedByName.mem_groups g).mp h
  exact hs.named [g] (by simp [hget]) g List.mem_cons_self

theorem isEntryName_of_mem_baseGroups {g : String} (h : g ∈ baseGroups) : Path.IsEntryName g := by
  have hall : ∀ g ∈ baseGroups, g ≠ "" ∧ g ≠ "." ∧ g ≠ ".." ∧ '/' ∉ g.toList := by decide +kernel
  obtain ⟨h1, h2, h3, h4⟩ := hall g h
  exact ⟨h1, h2, h3, h4⟩

/-! ### What an import reads -/

theorem contentsOf_eq_ok {s : ExportedState} {path : String} {p : Path} {contents : List UInt8}
    (hp : Path.parse? path = some p) (h : s.contentsOf path = .ok contents) :
    ∃ mode, Table.get? p s.entries = some (.file mode contents) := by
  rw [contentsOf, parsePath_eq_of_parse? hp] at h
  obtain ⟨_, hp', h⟩ := bind_eq_ok_iff.mp h
  cases hp'
  split at h
  · next mode found hget =>
    cases h
    exact ⟨mode, hget⟩
  · cases h
  · cases h

theorem itemsOf_root (s : ExportedState) :
    s.itemsOf "/" = .ok ((s.children []).map fun c => ⟨c.1, c.2.isDirectory⟩) :=
  (itemsOf_eq_ok_iff Path.parse?_root).mpr ⟨.inl rfl, rfl⟩

/-- Only a directory can be listed. -/
theorem itemsOf_eq_ok {s : ExportedState} {g : String} {items : List Item}
    (hg : Path.IsEntryName g) (h : s.itemsOf g = .ok items) :
    (∃ mode, Table.get? [g] s.entries = some (.directory mode)) ∧
      items = (s.children [g]).map fun c => ⟨c.1, c.2.isDirectory⟩ := by
  obtain ⟨hdir, hitems⟩ := (itemsOf_eq_ok_iff (Path.parse?_name hg)).mp h
  exact ⟨hdir.resolve_left (by simp), hitems⟩

/-- One file of a group, read. -/
theorem WellFormed.readManifest_eq_ok {s : ExportedState} (hs : s.WellFormed) {g : String}
    (hg : Path.IsEntryName g) {child : String × Entry} (hchild : child ∈ s.children [g])
    {m : Manifest} (h : s.readManifest g ⟨child.1, child.2.isDirectory⟩ = .ok m) :
    manifestOf? g child = some m := by
  obtain ⟨name, e⟩ := child
  have hget : Table.get? [g, name] s.entries = some e := hs.mem_children_iff.mp hchild
  have hname : Path.IsEntryName name := hs.named [g, name] (by simp [hget]) name (by simp)
  simp only [readManifest] at h
  split at h
  · cases h
  · obtain ⟨contents, hcontents, h⟩ := bind_eq_ok_iff.mp h
    obtain ⟨mode, hfile⟩ := contentsOf_eq_ok (Path.parse?_child hg hname) hcontents
    -- what was read is what is listed
    obtain rfl : e = .file mode contents := Option.some.inj (hget.symm.trans hfile)
    cases hr : Resource.ofYaml contents with
    | error e => rw [hr] at h; cases h
    | ok r =>
      rw [hr] at h
      cases h
      exact manifestOf?_eq_some_iff.mpr ⟨rfl, mode, contents, rfl, hr⟩

/-- Nothing can be in a directory that is not there. -/
theorem WellFormed.children_eq_nil {s : ExportedState} (hs : s.WellFormed) {g : String}
    (h : ∀ mode, Table.get? [g] s.entries ≠ some (.directory mode)) : s.children [g] = [] := by
  refine List.eq_nil_iff_forall_not_mem.mpr ?_
  rintro ⟨n, e⟩ hm
  have hget : Table.get? ([g] ++ [n]) s.entries = some e := hs.mem_children_iff.mp hm
  have hparent := hs.parents [g] n (Option.isSome_of_eq_some hget)
  obtain ⟨mode, hmode⟩ := hparent.resolve_left (by simp)
  exact h mode hmode

/-- If the manifests of a group can be read, every child of its directory is a file with one. -/
theorem WellFormed.forall₂_of_readGroup {s : ExportedState} (hs : s.WellFormed) {g : String}
    (hg : Path.IsEntryName g) {ms : List Manifest} (h : s.readGroup g = .ok ms) :
    List.Forall₂ (fun c m => manifestOf? g c = some m) (s.children [g]) ms := by
  have hentry : s.entryAt? g = Table.get? [g] s.entries := by simp [entryAt?, Path.parse?_name hg]
  rw [readGroup, hentry] at h
  split at h
  · next hnone =>
    cases h
    rw [hs.children_eq_nil fun mode hmode => by simp [hmode] at hnone]
    exact .nil
  · obtain ⟨items, hitems, h⟩ := bind_eq_ok_iff.mp h
    obtain ⟨-, rfl⟩ := itemsOf_eq_ok hg hitems
    rw [mapM_eq_ok_iff, List.forall₂_map_left_iff] at h
    have hread := (List.forall₂_and_left (s.children [g]) ms).mpr ⟨fun _ hc => hc, h⟩
    exact hread.imp fun c m hcm => hs.readManifest_eq_ok hg hcm.1 hcm.2

/-- If the manifests of a group can be read, they are those in its directory. -/
theorem WellFormed.manifestsIn_of_readGroup {s : ExportedState} (hs : s.WellFormed) {g : String}
    (hg : Path.IsEntryName g) {ms : List Manifest} (h : s.readGroup g = .ok ms) :
    s.manifestsIn g = ms := by
  have hread := hs.forall₂_of_readGroup hg h
  clear h
  rw [manifestsIn]
  generalize s.children [g] = cs at hread
  induction hread with
  | nil => rfl
  | cons hm _ ih => rw [List.filterMap_cons_some hm, ih]

/-- Besides directories, only the record about the export may be in the root. -/
theorem isDirectory_of_remainingGroups {s : ExportedState} {items : List Item}
    {groups : List String} (hitems : s.itemsOf "/" = .ok items)
    (h : Work.remainingGroups items = .ok groups) :
    ∀ c ∈ s.children [], c.1 ≠ exportMetaFile → c.2.isDirectory = true := by
  intro c hc hmeta
  rw [itemsOf_root] at hitems
  cases hitems
  simp only [Work.remainingGroups] at h
  split at h
  · cases h
  · next hnone =>
    simp only [List.find?_eq_none, List.mem_filter, List.mem_map, Bool.not_not_eq] at hnone
    exact hnone ⟨c.1, c.2.isDirectory⟩ ⟨⟨c, hc, rfl⟩, by simpa using hmeta⟩

/-- If the groups to be imported last can be told, they are those that are no base groups. -/
theorem laterGroups_of_remainingGroups {s : ExportedState} {items : List Item}
    {groups : List String} (hitems : s.itemsOf "/" = .ok items)
    (h : Work.remainingGroups items = .ok groups) : s.laterGroups = groups := by
  have hroot := isDirectory_of_remainingGroups hitems h
  rw [itemsOf_root] at hitems
  cases hitems
  simp only [Work.remainingGroups] at h
  split at h
  · cases h
  · cases h
    simp only [List.filter_map, List.map_map, List.filter_filter, laterGroups]
    refine congrArg (List.map _) (List.filter_congr fun c hc => ?_)
    by_cases hmeta : c.1 = exportMetaFile
    · simp [isLaterGroup, hmeta]
    · simp [isLaterGroup, hmeta, hroot c hc hmeta]

end PlaneRestore.ExportedState
