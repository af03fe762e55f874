import PlaneRestore.Proofs.Import.Account
import PlaneRestore.Proofs.Import.Success
import PlaneRestore.Proofs.Plane.Play
import PlaneRestore.Proofs.State.Summary
/-!
Imports lose nothing.

* `ImportRun.restorable`: an import succeeds only if all groups can be read and nothing else is in
  the root than groups and the record about the export.
* `import_restores_everything`: then the object of every file is created once, and the report, the
  summary of the exported state and the calls of the run agree about how much there was.
-/

namespace PlaneRestore

open Words

variable {s : ExportedState} {o : ImportOptions} {ts : Turns} {report : ImportReport}

/-! ### What an import that succeeds has read -/

namespace Work

variable {m m' : Memory}

theorem readGroup_of_importGroup {g : String} {pause : Bool} {count : Nat}
    (h : (importGroup s g pause).Led m ts (some (.ok count, m'))) :
    ∃ ms, s.readGroup g = .ok ms := by
  obtain ⟨ms, _, _, _, -, hread, -⟩ := led_bind_ok (led_wrapping_ok h)
  exact ⟨ms, (led_orThrow_ok hread).1⟩

theorem readGroup_of_importGroups {groups : List String} {pause : Bool}
    {counts : List (String × Nat)}
    (h : (importGroups s groups pause).Led m ts (some (.ok counts, m'))) :
    ∀ g ∈ groups, ∃ ms, s.readGroup g = .ok ms := by
  intro g hg
  obtain ⟨i, hi, rfl⟩ := List.mem_iff_getElem.mp hg
  have hround := led_mapM_ok h (groups[i], 1 + i) ?_
  · obtain ⟨_, _, _, _, hround⟩ := hround
    obtain ⟨count, _, _, _, -, himport, -⟩ := led_bind_ok hround
    exact readGroup_of_importGroup himport
  · exact List.mk_add_mem_zipIdx_iff_getElem?.mpr (List.getElem?_eq_getElem hi)

theorem readGroup_of_importBase {counts : List (String × Nat)}
    (h : (importBase s).Led m ts (some (.ok counts, m'))) :
    ∀ g ∈ baseGroups, ∃ ms, s.readGroup g = .ok ms := by
  obtain ⟨us, -, h⟩ := led_step_ok h
  exact readGroup_of_importGroups (led_wrapping_ok h)

/-- Nothing but directories and the record is in the root, and all other groups can be read. -/
theorem readGroup_of_importRemaining {counts : List (String × Nat)}
    (h : (importRemaining s).Led m ts (some (.ok counts, m'))) :
    (∀ c ∈ s.children [], c.1 ≠ exportMetaFile → c.2.isDirectory = true) ∧
      ∀ g ∈ s.laterGroups, ∃ ms, s.readGroup g = .ok ms := by
  obtain ⟨us, -, h⟩ := led_step_ok h
  obtain ⟨items, _, _, _, -, hlist, h⟩ := led_bind_ok h
  have hitems := (led_orThrow_ok (led_wrapping_ok hlist)).1
  obtain ⟨groups, _, _, _, -, hgroups, himport⟩ := led_bind_ok (led_wrapping_ok h)
  have hgroups := (led_orThrow_ok hgroups).1
  refine ⟨ExportedState.isDirectory_of_remainingGroups hitems hgroups, ?_⟩
  rw [ExportedState.laterGroups_of_remainingGroups hitems hgroups]
  exact readGroup_of_importGroups himport

end Work

theorem ImportRun.restorable (hrun : ImportRun s o ts (some (.ok report)))
    (hrecord : ∃ mode contents,
      Table.get? [exportMetaFile] s.entries = some (.file mode contents)) : s.Restorable := by
  obtain ⟨m, r, hm, hfinds, hled, hr⟩ := hrun
  obtain ⟨⟨-, m'⟩, rfl, rfl⟩ := Option.map_eq_some_iff.mp hr.symm
  cases Work.succeeds_of_led hled with
  | @intro s' _ _ _ _ _ _ _ _ _ _ _ ts₁ _ _ _ _ _ _ reading bringing _ _ bringingLater _ _ =>
    -- the state that was read is the one in the archive
    have hsilent : Turns.Finds s ts₁ := fun path s₁ hmem => hfinds path s₁ (by simp [hmem])
    have hspeaks : Work.Speaks s (Work.readState o) m fun s₁ _ w => w = [] ∧ s₁ = s :=
      ((Work.speaks_heldState o.inputArchive hm).wrapping _).step _ _ _
    obtain ⟨-, rfl⟩ := (hspeaks ts₁ _ hsilent reading).2 s' _ rfl
    obtain ⟨hroot, hlater⟩ := Work.readGroup_of_importRemaining bringingLater
    refine ⟨hrecord, hroot, fun g hg => ?_⟩
    rcases List.mem_append.mp hg with hg | hg
    · exact Work.readGroup_of_importBase bringing g hg
    · exact hlater g hg

/-! ### What is counted -/

namespace ExportedState

theorem keys_countsOf (s : ExportedState) (groups : List String) :
    Table.keys (s.countsOf groups) = groups := by
  simp [Table.keys, countsOf, Function.comp_def]

theorem totalOf_countsOf {groups : List String} (h : groups.Nodup) :
    totalOf (Table.ofList (s.countsOf groups)) =
      (groups.map fun g => (s.manifestsIn g).length).sum := by
  rw [totalOf_ofList (by rwa [keys_countsOf]), countsOf, List.map_map]
  rfl

theorem get?_countsOf {groups : List String} (h : groups.Nodup) {g : String} {n : Nat} :
    Table.get? g (Table.ofList (s.countsOf groups)) = some n ↔
      g ∈ groups ∧ (s.manifestsIn g).length = n := by
  rw [Table.get?_ofList_eq_some_iff (by rwa [keys_countsOf]), countsOf, List.mem_map]
  constructor
  · rintro ⟨g', hg, heq⟩
    cases heq
    exact ⟨hg, rfl⟩
  · rintro ⟨hg, rfl⟩
    exact ⟨g, hg, rfl⟩

theorem keys_ofList_countsOf {groups : List String} (h : groups.Nodup) :
    (Table.keys (Table.ofList (s.countsOf groups))).Perm groups := by
  have hnodup : (Table.keys (s.countsOf groups)).Nodup := by rwa [keys_countsOf]
  have hperm := (Table.ofList_perm hnodup).map (·.1)
  rwa [← Table.keys, ← Table.keys, keys_countsOf] at hperm

/-- The groups that are no base groups are all other directories of the root. -/
theorem Restorable.laterGroups_perm (h : s.Restorable) (hs : s.WellFormed) :
    s.laterGroups.Perm (s.rootDirectories.filter (!isBaseGroup ·)) := by
  refine (List.perm_ext_iff_of_nodup (nodup_of_lt hs.listedByName.groups_ordered)
    (hs.nodup_rootDirectories.filter _)).mpr fun g => ?_
  rw [hs.listedByName.mem_groups, List.mem_filter, hs.mem_rootDirectories, Bool.not_eq_true']
  constructor
  · rintro ⟨-, hbase, hdir⟩
    exact ⟨hdir, hbase⟩
  · rintro ⟨⟨mode, hget⟩, hbase⟩
    exact ⟨h.ne_exportMetaFile hget, hbase, mode, hget⟩

end ExportedState

theorem total_importReport (hs : s.WellFormed) (counts : List Nat) :
    (importReport o s counts).total = (s.groups.map fun g => (s.manifestsIn g).length).sum := by
  obtain ⟨hbase, hlater, -⟩ := List.nodup_append.mp hs.nodup_groups
  rw [ExportedState.groups, List.map_append, List.sum_append,
    ← ExportedState.totalOf_countsOf hbase, ← ExportedState.totalOf_countsOf hlater]
  rfl

theorem totalOf_unpaused {counts : List Nat} (h : counts.length = (unpausedCategories o).length) :
    totalOf (importReport o s counts).unpaused = counts.sum := by
  have hnames : ((unpausedCategories o).map Category.name).Nodup := by
    rw [unpausedCategories, managedCategories]
    split <;> decide
  have hzip : List.zipWith (fun c n => (Category.name c, n)) (unpausedCategories o) counts
      = ((unpausedCategories o).map Category.name).zip counts := by
    simp [List.zip, List.zipWith_map_left]
  rw [importReport, hzip, totalOf_ofList]
  · rw [List.map_snd_zip (by simp [h])]
  · rwa [Table.keys, List.map_fst_zip (by simp [h])]

/-! ### What is restored -/

/-- The object of a file's manifest is created. -/
def ExportedState.IsSubmitted (s : ExportedState) (p : Path) (e : LoggedCall) : Prop :=
  ∃ r, s.Holds p r ∧ r.IsSubmittedBy e

/-- What is reported of a group, whether it is a base group or not. -/
def ImportReport.countOf? (report : ImportReport) (g : String) : Option Nat :=
  (Table.get? g report.base).or (Table.get? g report.remaining)

theorem countOf?_importReport (hs : s.WellFormed) {g : String} (hg : g ∈ s.groups)
    {counts : List Nat} :
    (importReport o s counts).countOf? g = some (s.manifestsIn g).length := by
  obtain ⟨hbase, hlater, hdisjoint⟩ := List.nodup_append.mp hs.nodup_groups
  rw [ImportReport.countOf?]
  rcases List.mem_append.mp hg with hg | hg
  · have hget := (ExportedState.get?_countsOf (s := s) hbase).mpr ⟨hg, rfl⟩
    rw [importReport, hget, Option.some_or]
  · have hget := (ExportedState.get?_countsOf (s := s) hlater).mpr ⟨hg, rfl⟩
    have hnone : Table.get? g (Table.ofList (s.countsOf baseGroups)) = none := by
      refine Option.eq_none_iff_forall_ne_some.mpr fun n hn => ?_
      exact hdisjoint g ((ExportedState.get?_countsOf hbase).mp hn).1 g hg rfl
    rw [importReport, hnone, hget, Option.none_or]

/-- A log creates what is in the files of an exported state, and both the report and the summary of
the state say how much that is. -/
structure RestoresAll (s : ExportedState) (sum : StateSummary) (log : List LoggedCall)
    (report : ImportReport) : Prop where
  named : ∀ p ∈ s.filePaths, ∃ group file, p = [group, file]
  submitted : ∃ files : List Path, files.Perm s.filePaths ∧ files.Nodup ∧
    List.Forall₂ s.IsSubmitted files (creations log)
  base : (Table.keys report.base).Perm baseGroups
  remaining : (Table.keys report.remaining).Perm (s.rootDirectories.filter (!isBaseGroup ·))
  agrees : ∀ g n, Table.get? g sum.groups = some n → report.countOf? g = some n
  absent : ∀ g ∈ baseGroups, Table.get? [g] s.entries = none →
    Table.get? g report.base = some 0
  total_eq : report.total = sum.total
  created : report.total = (creations log).length
  updated : totalOf report.unpaused = (updates log).length

/-- **An import that succeeds restores every file of a state that can be summarised, and each of
them once.** The report counts the twelve base groups and all other groups; it agrees with the
summary about every group, and with the calls of the run about how many objects were created and
how many were replaced. -/
theorem import_restores_everything {sum : StateSummary} (hs : s.Reachable)
    (hsum : s.summary = .ok sum) (hrun : ImportRun s o ts (some (.ok report))) :
    RestoresAll s sum (callLog ts) report := by
  have hwf := hs.wellFormed
  have h := hrun.restorable (hwf.summary_eq_ok hsum).1
  obtain ⟨counts, rfl, hlog⟩ := hrun.whole hwf
  obtain ⟨hcreated, hupdated⟩ := importing_le_accounted o s counts hlog
  obtain ⟨hbase, hlater, -⟩ := List.nodup_append.mp hwf.nodup_groups
  have htotal := total_importReport (o := o) hwf counts
  refine
    { named := fun p => h.exists_names hwf
      submitted := ⟨s.groupFiles, h.groupFiles_perm hwf,
        ExportedState.Restorable.nodup_groupFiles hwf, ?_⟩
      base := ExportedState.keys_ofList_countsOf hbase
      remaining := (ExportedState.keys_ofList_countsOf hlater).trans (h.laterGroups_perm hwf)
      agrees := fun g n hget => ?_
      absent := fun g hg hnone => ?_
      total_eq := by rw [htotal, h.total_summary hwf hsum]
      created := by rw [htotal, ← s.length_manifests, hcreated.length_eq]
      updated := (totalOf_unpaused (length_of_mem_importing hlog)).trans hupdated.symm }
  -- each creation is of the manifest that its file holds
  · have hsubmitted := forall₂_trans (h.forall₂_groupFiles hwf) hcreated
    exact hsubmitted.imp fun _ _ ⟨man, hholds, hby⟩ => ⟨man.resource, hholds, hby⟩
  · obtain ⟨hg, rfl⟩ := h.get?_summary hwf hsum hget
    exact countOf?_importReport hwf hg
  · -- a group without a directory has no manifests
    refine (ExportedState.get?_countsOf hbase).mpr ⟨hg, ?_⟩
    rw [ExportedState.manifestsIn, hwf.children_eq_nil fun mode hmode => by simp [hmode] at hnone]
    rfl

namespace Sample

def exportRecord : List UInt8 := "engineVersion: v1\n".toUTF8.toList

/-- The small exported state, with the record. -/
def recordedState : ExportedState :=
  ⟨[(["buckets.aws.example.io"], .directory 0o755),
    (["buckets.aws.example.io", "logs.yaml"], .file 0o644 logsManifest),
    (["export.yaml"], .file 0o644 exportRecord),
    (["namespaces"], .directory 0o755),
    (["namespaces", "team.yaml"], .file 0o644 teamManifest)]⟩

theorem reachable_recordedState : recordedState.Reachable :=
  reachable_of_addFile "export.yaml" exportRecord 0o644 reachable_state (by decide +kernel)

theorem summary_recordedState : ∃ sum, recordedState.summary = .ok sum := by
  have hsome : recordedState.summary.toOption.isSome = true := by decide +kernel
  cases h : recordedState.summary with
  | error e => simp [h, Except.toOption] at hsome
  | ok sum => exact ⟨sum, rfl⟩

def unpausingOptions : ImportOptions := { options with unpauseAfterImport := true }

def recordedReport : ImportReport := importReport unpausingOptions recordedState [0, 0, 1]

def recordedTurns : Turns := plane.playedTurns recordedState unpausingOptions

theorem importRun_recordedTurns :
    ImportRun recordedState unpausingOptions recordedTurns (some (.ok recordedReport)) :=
  MemoryPlane.importRun_of_played (by decide +kernel)

end Sample

theorem import_restores_everything_sample :
    ∃ sum, Sample.recordedState.summary = .ok sum ∧ sum.total = 2 ∧
      (creations (callLog Sample.recordedTurns)).length = 2 ∧
        (updates (callLog Sample.recordedTurns)).length = 1 := by
  obtain ⟨sum, hsum⟩ := Sample.summary_recordedState
  have h := import_restores_everything Sample.reachable_recordedState hsum
    Sample.importRun_recordedTurns
  refine ⟨sum, hsum, ?_, ?_, ?_⟩
  · rw [← h.total_eq]
    decide +kernel
  · rw [← h.created]
    decide +kernel
  · rw [← h.updated]
    decide +kernel

end PlaneRestore
