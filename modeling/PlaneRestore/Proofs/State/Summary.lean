import Mathlib
import PlaneRestore.Proofs.State.Manifests
/-!
The files of an exported state, and their summary.

* `WellFormed.summary_eq_ok`: a summary counts the files in each directory of the root.
* `Restorable s`: all groups of `s` can be read, and there is nothing else in its root than groups
  and the record about the export.
* `Restorable.groupFiles_perm`: the files in the groups are all files but the record.
* `Restorable.get?_summary` and `Restorable.total_summary`: as many manifests are read from the
  groups as the summary counts.
-/

namespace PlaneRestore

theorem totalOf_eq_sum (counts : List (String × Nat)) :
    totalOf counts = (counts.map (·.2)).sum := by
  rw [totalOf, List.sum_eq_foldl, List.foldl_map]

/-- In a table of different keys, every count is there. -/
theorem totalOf_ofList {counts : List (String × Nat)} (h : (Table.keys counts).Nodup) :
    totalOf (Table.ofList counts) = (counts.map (·.2)).sum := by
  rw [totalOf_eq_sum]
  exact ((Table.ofList_perm h).map _).sum_eq

namespace ExportedState

variable {s : ExportedState}

def rootDirectories (s : ExportedState) : List String :=
  ((s.children []).filter (·.2.isDirectory)).map (·.1)

/-- How many files are directly inside a directory of the root. -/
def fileCount (s : ExportedState) (g : String) : Nat :=
  ((s.children [g]).filter fun c => !c.2.isDirectory).length

/-- The files other than the record about the export. -/
def filePaths (s : ExportedState) : List Path :=
  (s.entries.filter fun e => !e.2.isDirectory && e.1 ≠ [exportMetaFile]).map (·.1)

/-- The groups in the order in which they are restored. A base group may be missing. -/
def groups (s : ExportedState) : List String := baseGroups ++ s.laterGroups

def groupFiles (s : ExportedState) : List Path :=
  s.groups.flatMap fun g => (s.children [g]).map fun c => [g, c.1]

def Holds (s : ExportedState) (p : Path) (r : Resource) : Prop :=
  ∃ mode contents, Table.get? p s.entries = some (.file mode contents) ∧
    Resource.ofYaml contents = .ok r

/-! ### Entries in the tree -/

theorem nodup_of_lt {names : List String} (h : names.Pairwise (· < ·)) : names.Nodup := by
  refine h.imp ?_
  rintro n _ hlt rfl
  exact String.lt_irrefl n hlt

theorem WellFormed.mem_rootDirectories (hs : s.WellFormed) {g : String} :
    g ∈ s.rootDirectories ↔ ∃ mode, Table.get? [g] s.entries = some (.directory mode) := by
  simp only [rootDirectories, List.mem_map, List.mem_filter, Prod.exists, exists_and_right,
    exists_eq_right, hs.mem_children_iff, List.nil_append]
  constructor
  · rintro ⟨mode | ⟨mode, contents⟩, hget, hdir⟩
    · exact ⟨mode, hget⟩
    · cases hdir
  · rintro ⟨mode, hget⟩
    exact ⟨.directory mode, hget, rfl⟩

theorem WellFormed.nodup_rootDirectories (hs : s.WellFormed) : s.rootDirectories.Nodup :=
  nodup_of_lt ((hs.children_ordered []).sublist (List.filter_sublist.map _))

theorem WellFormed.mem_filePaths (hs : s.WellFormed) {p : Path} :
    p ∈ s.filePaths ↔ p ≠ [exportMetaFile] ∧
      ∃ mode contents, Table.get? p s.entries = some (.file mode contents) := by
  simp only [filePaths, List.mem_map, List.mem_filter, Prod.exists, exists_and_right,
    exists_eq_right, hs.ordered.mem_iff_get?, Bool.and_eq_true, decide_eq_true_eq]
  constructor
  · rintro ⟨mode | ⟨mode, contents⟩, hget, hfile, hmeta⟩
    · cases hfile
    · exact ⟨hmeta, mode, contents, hget⟩
  · rintro ⟨hmeta, mode, contents, hget⟩
    exact ⟨.file mode contents, hget, rfl, hmeta⟩

theorem WellFormed.nodup_filePaths (hs : s.WellFormed) : s.filePaths.Nodup := by
  have hordered := hs.ordered.sublist (List.filter_sublist (p := fun e : Path × Entry =>
    !e.2.isDirectory && e.1 ≠ [exportMetaFile]))
  refine List.pairwise_map.mpr (hordered.imp ?_)
  rintro ⟨p, e⟩ ⟨q, e'⟩ hlt rfl
  exact absurd hlt (by simp [Std.ReflCmp.compare_self])

theorem length_manifests (s : ExportedState) :
    (s.baseManifests ++ s.laterManifests).length =
      (s.groups.map fun g => (s.manifestsIn g).length).sum := by
  rw [baseManifests, laterManifests, ← List.flatMap_append, List.length_flatMap]
  rfl

theorem WellFormed.nodup_groups (hs : s.WellFormed) : s.groups.Nodup := by
  refine List.nodup_append.mpr ⟨by decide, nodup_of_lt hs.listedByName.groups_ordered, ?_⟩
  rintro g hg g' hg' rfl
  obtain ⟨-, hbase, -⟩ := (hs.listedByName.mem_groups g).mp hg'
  simp [isBaseGroup, hg] at hbase

/-! ### Summaries -/

/-- A summary needs the record about the export, and counts files in the directories of the root. -/
theorem WellFormed.summary_eq_ok (hs : s.WellFormed) {sum : StateSummary}
    (h : s.summary = .ok sum) :
    (∃ mode contents, Table.get? [exportMetaFile] s.entries = some (.file mode contents)) ∧
      sum.groups = Table.ofList (s.rootDirectories.map fun g => (g, s.fileCount g)) := by
  obtain ⟨record, hrecord, h⟩ := bind_eq_ok_iff.mp h
  obtain ⟨items, hitems, h⟩ := bind_eq_ok_iff.mp h
  obtain ⟨counts, hcounts, h⟩ := bind_eq_ok_iff.mp h
  cases h
  refine ⟨?_, ?_⟩
  · obtain ⟨contents, hcontents, -⟩ := bind_eq_ok_iff.mp hrecord
    obtain ⟨mode, hget⟩ := contentsOf_eq_ok (p := [exportMetaFile]) (by decide +kernel) hcontents
    exact ⟨mode, contents, hget⟩
  · rw [itemsOf_root] at hitems
    cases hitems
    rw [mapM_eq_ok_iff, List.filter_map, List.forall₂_map_left_iff] at hcounts
    refine congrArg Table.ofList ?_
    -- each count belongs to a directory, and is the number of the files in it
    have hnamed := (List.forall₂_and_left _ _).mpr ⟨fun c hc => hc, hcounts⟩
    have hcounted := hnamed.imp (S := fun c count => (c.1, s.fileCount c.1) = count) ?_
    · rw [← List.forall₂_map_left_iff (R := Eq), List.forall₂_eq_eq_eq] at hcounted
      rw [← hcounted, rootDirectories, List.map_map]
      rfl
    · rintro c count ⟨hc, hcount⟩
      have hname : Path.IsEntryName c.1 := by
        have hget := hs.mem_children_iff.mp (List.mem_of_mem_filter hc)
        exact hs.named _ (Option.isSome_of_eq_some hget) c.1 (by simp)
      obtain ⟨files, hfiles, hcount⟩ := bind_eq_ok_iff.mp hcount
      obtain ⟨-, rfl⟩ := itemsOf_eq_ok hname hfiles
      cases hcount
      simp [fileCount, List.filter_map, Function.comp_def]

theorem WellFormed.nodup_keys_fileCount (hs : s.WellFormed) :
    (Table.keys (s.rootDirectories.map fun g => (g, s.fileCount g))).Nodup := by
  simpa [Table.keys, Function.comp_def] using hs.nodup_rootDirectories

/-! ### What can be restored -/

/-- All groups can be read, and nothing else is in the root than groups and the record about the
export. -/
structure Restorable (s : ExportedState) : Prop where
  record : ∃ mode contents, Table.get? [exportMetaFile] s.entries = some (.file mode contents)
  root : ∀ c ∈ s.children [], c.1 ≠ exportMetaFile → c.2.isDirectory = true
  readable : ∀ g ∈ s.groups, ∃ ms, s.readGroup g = .ok ms

namespace Restorable

variable {g : String} {p : Path}

/-- Every child of a group's directory is a file with a manifest. -/
theorem forall₂_manifestsIn (h : s.Restorable) (hs : s.WellFormed) (hg : g ∈ s.groups) :
    List.Forall₂ (fun c m => manifestOf? g c = some m) (s.children [g]) (s.manifestsIn g) := by
  have hname : Path.IsEntryName g := by
    rcases List.mem_append.mp hg with hg | hg
    · exact isEntryName_of_mem_baseGroups hg
    · exact hs.isEntryName_of_mem_laterGroups hg
  obtain ⟨ms, hms⟩ := h.readable g hg
  rw [hs.manifestsIn_of_readGroup hname hms]
  exact hs.forall₂_of_readGroup hname hms

theorem exists_manifest (h : s.Restorable) (hs : s.WellFormed) (hg : g ∈ s.groups)
    {c : String × Entry} (hc : c ∈ s.children [g]) : ∃ m, manifestOf? g c = some m := by
  have hall : ∀ cs ms, List.Forall₂ (fun c m => manifestOf? g c = some m) cs ms →
      ∀ c ∈ cs, ∃ m, manifestOf? g c = some m := by
    intro cs ms hforall
    induction hforall with
    | nil => exact fun _ hc => nomatch hc
    | cons hm _ ih => exact List.forall_mem_cons.mpr ⟨⟨_, hm⟩, ih⟩
  exact hall _ _ (h.forall₂_manifestsIn hs hg) c hc

/-- The record about the export is no directory. -/
theorem ne_exportMetaFile (h : s.Restorable) {mode : Nat}
    (hget : Table.get? [g] s.entries = some (.directory mode)) : g ≠ exportMetaFile := by
  rintro rfl
  obtain ⟨mode', contents, hfile⟩ := h.record
  simp [hget] at hfile

theorem mem_groups_of_directory (h : s.Restorable) (hs : s.WellFormed) {mode : Nat}
    (hget : Table.get? [g] s.entries = some (.directory mode)) : g ∈ s.groups := by
  by_cases hbase : g ∈ baseGroups
  · exact List.mem_append_left _ hbase
  · have hother : isBaseGroup g = false := by simpa [isBaseGroup] using hbase
    exact List.mem_append_right _
      ((hs.listedByName.mem_groups g).mpr ⟨h.ne_exportMetaFile hget, hother, mode, hget⟩)

/-- All files but the record are directly inside the directories of groups. -/
theorem mem_filePaths_iff (h : s.Restorable) (hs : s.WellFormed) :
    p ∈ s.filePaths ↔ p ∈ s.groupFiles := by
  simp only [groupFiles, List.mem_flatMap, List.mem_map]
  rw [hs.mem_filePaths]
  constructor
  · rintro ⟨hmeta, mode, contents, hget⟩
    match p, hget with
    | [], hget => exact absurd rfl (hs.ne_root [] (by simp [hget]))
    | [n], hget =>
      -- a file in the root
      have hdir := h.root (n, .file mode contents) (hs.mem_children_iff.mpr hget) fun hn =>
        hmeta (congrArg (fun name => [name]) hn)
      cases hdir
    | g :: n :: rest, hget =>
      have hsome := Option.isSome_of_eq_some hget
      obtain ⟨gmode, hgroup⟩ :=
        (hs.hasDirectory_of_append (p := [g]) (by simp) hsome).resolve_left (by simp)
      have hg := h.mem_groups_of_directory hs hgroup
      cases rest with
      | nil => exact ⟨g, hg, (n, .file mode contents), hs.mem_children_iff.mpr hget, rfl⟩
      | cons n' rest =>
        -- a directory in that of the group
        obtain ⟨nmode, hnested⟩ :=
          (hs.hasDirectory_of_append (p := [g, n]) (by simp) hsome).resolve_left (by simp)
        obtain ⟨m, hm⟩ := h.exists_manifest hs hg (hs.mem_children_iff.mpr hnested)
        cases hm
  · rintro ⟨g, hg, ⟨n, e⟩, hc, rfl⟩
    obtain ⟨m, hm⟩ := h.exists_manifest hs hg hc
    obtain ⟨-, mode, contents, rfl, -⟩ := manifestOf?_eq_some_iff.mp hm
    exact ⟨by simp, mode, contents, hs.mem_children_iff.mp hc⟩

theorem exists_names (h : s.Restorable) (hs : s.WellFormed) (hp : p ∈ s.filePaths) :
    ∃ group file, p = [group, file] := by
  obtain ⟨g, -, hp⟩ := List.mem_flatMap.mp ((h.mem_filePaths_iff hs).mp hp)
  obtain ⟨c, -, rfl⟩ := List.mem_map.mp hp
  exact ⟨g, c.1, rfl⟩

theorem nodup_groupFiles (hs : s.WellFormed) : s.groupFiles.Nodup := by
  refine List.nodup_flatMap.mpr ⟨fun g _ => ?_, hs.nodup_groups.imp fun hne => ?_⟩
  · have hnames := nodup_of_lt (hs.children_ordered [g])
    have hpaths := hnames.map (f := fun n : String => [g, n]) fun _ _ heq => by simpa using heq
    rwa [List.map_map] at hpaths
  · intro p hp hp'
    obtain ⟨c, -, rfl⟩ := List.mem_map.mp hp
    obtain ⟨c', -, heq⟩ := List.mem_map.mp hp'
    exact hne (List.cons.inj heq).1.symm

/-- The files in the groups are all files but the record about the export. -/
theorem groupFiles_perm (h : s.Restorable) (hs : s.WellFormed) : s.groupFiles.Perm s.filePaths :=
  (List.perm_ext_iff_of_nodup (nodup_groupFiles hs) hs.nodup_filePaths).mpr fun _ =>
    (h.mem_filePaths_iff hs).symm

/-- The manifests that are restored are those in the files, one after another. -/
theorem forall₂_groupFiles (h : s.Restorable) (hs : s.WellFormed) :
    List.Forall₂ (fun p m => s.Holds p m.resource) s.groupFiles
      (s.baseManifests ++ s.laterManifests) := by
  have hgroup : ∀ g ∈ s.groups, List.Forall₂ (fun p m => s.Holds p m.resource)
      ((s.children [g]).map fun c => [g, c.1]) (s.manifestsIn g) := by
    intro g hg
    have hread := (List.forall₂_and_left _ _).mpr ⟨fun c hc => hc, h.forall₂_manifestsIn hs hg⟩
    rw [List.forall₂_map_left_iff]
    refine hread.imp fun c m hcm => ?_
    obtain ⟨-, mode, contents, hfile, hyaml⟩ := manifestOf?_eq_some_iff.mp hcm.2
    exact ⟨mode, contents, hfile ▸ hs.mem_children_iff.mp hcm.1, hyaml⟩
  rw [baseManifests, laterManifests, ← List.flatMap_append]
  change List.Forall₂ _ (s.groups.flatMap _) (s.groups.flatMap _)
  -- what is true of the files of each group is true of all of them, group after group
  generalize s.groups = groups at hgroup
  induction groups with
  | nil => exact .nil
  | cons g groups ih =>
    rw [List.flatMap_cons, List.flatMap_cons]
    exact List.rel_append (hgroup g List.mem_cons_self)
      (ih fun g' hg' => hgroup g' (List.mem_cons_of_mem g hg'))

/-! ### Counts -/

theorem fileCount_eq (h : s.Restorable) (hs : s.WellFormed) (hg : g ∈ s.groups) :
    s.fileCount g = (s.manifestsIn g).length := by
  have hfiles : ∀ c ∈ s.children [g], (!c.2.isDirectory) = true := by
    rintro ⟨n, e⟩ hc
    obtain ⟨m, hm⟩ := h.exists_manifest hs hg hc
    obtain ⟨-, mode, contents, rfl, -⟩ := manifestOf?_eq_some_iff.mp hm
    rfl
  rw [fileCount, List.filter_eq_self.mpr hfiles]
  exact (h.forall₂_manifestsIn hs hg).length_eq

theorem fileCount_eq_zero (hs : s.WellFormed) (hg : g ∉ s.rootDirectories) :
    s.fileCount g = 0 := by
  rw [hs.mem_rootDirectories, not_exists] at hg
  rw [fileCount, hs.children_eq_nil hg]
  rfl

/-- As many manifests are restored as there are files in the directories of the root. -/
theorem sum_fileCount (h : s.Restorable) (hs : s.WellFormed) :
    (s.rootDirectories.map s.fileCount).sum =
      (s.groups.map fun g => (s.manifestsIn g).length).sum := by
  have hlengths : (s.groups.map fun g => (s.manifestsIn g).length) = s.groups.map s.fileCount :=
    List.map_congr_left fun g hg => (h.fileCount_eq hs hg).symm
  -- the directories of the root are groups, and a group without a directory counts for nothing
  rw [hlengths, ← List.sum_toFinset _ hs.nodup_rootDirectories,
    ← List.sum_toFinset _ hs.nodup_groups]
  refine Finset.sum_subset ?_ ?_
  · intro g hg
    obtain ⟨mode, hget⟩ := hs.mem_rootDirectories.mp (List.mem_toFinset.mp hg)
    exact List.mem_toFinset.mpr (h.mem_groups_of_directory hs hget)
  · intro g _ hg
    exact fileCount_eq_zero hs fun hmem => hg (List.mem_toFinset.mpr hmem)

/-- Of a group in the summary, as many manifests are restored as the summary says. -/
theorem get?_summary (h : s.Restorable) (hs : s.WellFormed) {sum : StateSummary} {n : Nat}
    (hsum : s.summary = .ok sum) (hget : Table.get? g sum.groups = some n) :
    g ∈ s.groups ∧ (s.manifestsIn g).length = n := by
  rw [(hs.summary_eq_ok hsum).2, Table.get?_ofList_eq_some_iff hs.nodup_keys_fileCount] at hget
  obtain ⟨g', hroot, heq⟩ := List.mem_map.mp hget
  cases heq
  obtain ⟨mode, hdir⟩ := hs.mem_rootDirectories.mp hroot
  have hg := h.mem_groups_of_directory hs hdir
  exact ⟨hg, (h.fileCount_eq hs hg).symm⟩

theorem total_summary (h : s.Restorable) (hs : s.WellFormed) {sum : StateSummary}
    (hsum : s.summary = .ok sum) :
    sum.total = (s.groups.map fun g => (s.manifestsIn g).length).sum := by
  rw [StateSummary.total, (hs.summary_eq_ok hsum).2, totalOf_ofList hs.nodup_keys_fileCount,
    ← h.sum_fileCount hs, List.map_map]
  rfl

end Restorable

end ExportedState

end PlaneRestore
