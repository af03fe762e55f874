import PlaneRestore.Import.Run
import PlaneRestore.Proofs.Trace.Spare
/-!
What an import does without its archive.

`Work.restore o s` is what an import does once it has the exported state `s`. By
`Work.sparesArchive_restore` it does not look at the archive again.
-/

namespace PlaneRestore

namespace Work

/-! ### Groups -/

theorem sparesArchive_orApply {α : Type} (r : Resource) (answer : Except ClientError α) :
    SparesArchive (orApply r answer) := by
  cases answer with
  | ok a => exact .pure a
  | error e => exact .throw (.apply r.display e)

theorem sparesArchive_apply (r : Resource) : SparesArchive (apply r) := by
  refine (SparesArchive.call _).bind fun answer => (sparesArchive_orApply r answer).bind fun m => ?_
  exact (SparesArchive.call _).bind fun answer => sparesArchive_orApply r _

theorem SparesArchive.get_bind {α : Type} {f : Memory → Work α} (h : ∀ m, SparesArchive (f m)) :
    SparesArchive (get >>= f) := fun m => h m m

theorem sparesArchive_pausableKinds : SparesArchive pausableKinds := by
  refine .get_bind fun m => ?_
  cases m.pausable with
  | some kinds => exact .pure kinds
  | none =>
    have hkinds : ∀ c, SparesArchive (kindsOf c) := by
      refine fun c => .wrapping ((SparesArchive.call _).bind fun answer => ?_) _
      exact (SparesArchive.orClient answer).bind fun mappings => .pure _
    refine (SparesArchive.mapM hkinds _).bind fun found => ?_
    exact .bind (.modify fun _ => rfl) fun _ => .pure _

theorem sparesArchive_importManifest (pause : Bool) (man : Manifest) :
    SparesArchive (importManifest pause man) := by
  have hpaused : SparesArchive (paused pause man.resource) := by
    cases pause with
    | false => exact .pure man.resource
    | true => exact sparesArchive_pausableKinds.bind fun kinds => .pure _
  exact hpaused.bind fun r => .wrapping (sparesArchive_apply r) _

theorem sparesArchive_importGroup (s : ExportedState) (group : String) (pause : Bool) :
    SparesArchive (importGroup s group pause) := by
  refine .wrapping ((SparesArchive.orThrow _).bind fun manifests => ?_) _
  refine (SparesArchive.forM (fun man => ?_) manifests).bind fun _ => .pure _
  exact (sparesArchive_importManifest pause man).bind fun _ => .pure PUnit.unit

theorem sparesArchive_importGroups (s : ExportedState) (groups : List String) (pause : Bool) :
    SparesArchive (importGroups s groups pause) := by
  refine SparesArchive.mapM (fun entry => ?_) _
  exact (sparesArchive_importGroup s entry.1 pause).bind fun count =>
    (SparesArchive.report _).bind fun _ => .pure _

/-! ### Waits -/

theorem sparesArchive_poll (w : Watch) : SparesArchive w.poll := by
  refine (SparesArchive.ask fun _ => rfl).bind fun reply => ?_
  cases reply with
  | cancelled => exact .throw .cancelled
  | late => exact .throw w.timeout
  | answered answer =>
    simp only
    split
    · exact .pure false
    · split
      · exact .pure true
      · exact (SparesArchive.report _).bind fun _ => .pure false

theorem sparesArchive_pollFrom (w : Watch) (tick : Nat) : SparesArchive (w.pollFrom tick) := by
  -- by what is left of the time until the deadline
  induction tick using Watch.pollFrom.induct w with
  | case1 tick ih =>
    rw [Watch.pollFrom]
    refine (SparesArchive.ask fun _ => rfl).bind fun now => ?_
    cases now with
    | none => exact .throw .cancelled
    | some now =>
      simp only
      split
      · next htime =>
        refine (sparesArchive_poll w).bind fun done => ?_
        cases done with
        | true => exact .pure PUnit.unit
        | false => exact ih now htime
      · exact .throw w.timeout

theorem sparesArchive_waitFor (settings : WaitSettings) (kind : GroupKind)
    (conditions : List String) : SparesArchive (waitFor settings kind conditions) := by
  refine (SparesArchive.call _).bind fun answer => (SparesArchive.orClient answer).bind fun m => ?_
  exact (SparesArchive.ask fun _ => rfl).bind fun start => sparesArchive_pollFrom _ start

/-! ### Categories -/

section

variable {σ : Type} (change : Resource → StateM σ Resource)

theorem sparesArchive_replaceAll (mapping : KindMapping) (rs : List Resource) (st : σ) :
    SparesArchive (replaceAll change mapping rs st) := by
  induction rs generalizing st with
  | nil => exact .pure st
  | cons r rs ih =>
    refine SparesArchive.bind ?_ fun _ => ih _
    exact (SparesArchive.call _).bind fun answer => (SparesArchive.orClient answer).bind fun _ =>
      .pure PUnit.unit

theorem sparesArchive_modifyKinds (mappings : List KindMapping) (st : σ) :
    SparesArchive (modifyKinds change mappings st) := by
  induction mappings generalizing st with
  | nil => exact .pure 0
  | cons mapping mappings ih =>
    refine (SparesArchive.call _).bind fun answer => ?_
    refine (SparesArchive.orClient answer).bind fun objects => ?_
    exact (sparesArchive_replaceAll change mapping objects st).bind fun st =>
      (ih st).bind fun _ => .pure _

end

theorem sparesArchive_modifyAll (c : Category) (change : Resource → Resource) :
    SparesArchive (modifyAll c change) := by
  refine .wrapping ((SparesArchive.call _).bind fun answer => ?_) _
  exact (SparesArchive.orClient answer).bind fun mappings => sparesArchive_modifyKinds _ mappings ()

/-! ### Steps -/

theorem sparesArchive_unpauseAll (c : Category) (shown : String) :
    SparesArchive (unpauseAll c shown) :=
  (SparesArchive.wrapping (sparesArchive_modifyAll c _) _).bind fun _ => .pure _

theorem sparesArchive_waitForPackages (o : ImportOptions) : SparesArchive (waitForPackages o) := by
  have hkind : ∀ conditions kind, SparesArchive (waitForPackageKind o conditions kind) :=
    fun _ _ => .wrapping (sparesArchive_waitFor _ _ _) _
  refine .step (.bind (.forM (hkind _) _) fun _ => ?_) _ _ _
  split
  · exact .forM (hkind _) _
  · exact .pure PUnit.unit

theorem sparesArchive_importRemaining (s : ExportedState) : SparesArchive (importRemaining s) := by
  refine .step (.bind (.wrapping (.orThrow _) _) fun items => .wrapping ?_ _) _ _ _
  exact (SparesArchive.orThrow _).bind fun groups => sparesArchive_importGroups s groups true

theorem sparesArchive_unpauseManaged (o : ImportOptions) : SparesArchive (unpauseManaged o) := by
  rw [unpauseManaged]
  split
  · exact .step ((sparesArchive_unpauseAll _ _).bind fun managed => .pure _) _ _ _
  · exact .pure []

/-! ### The whole import -/

/-- What an import does once it has the exported state. -/
def restore (o : ImportOptions) (s : ExportedState) : Work ImportReport := do
  modify fun m => { m with pausable := none }
  let base ← importBase s
  waitForDefinitions o
  waitForPackages o
  ask (.call .reset)
  let remaining ← importRemaining s
  let unpaused := (← unpauseComposites) ++ (← unpauseManaged o)
  return ⟨Table.ofList base, Table.ofList remaining, Table.ofList unpaused⟩

theorem importState_eq (o : ImportOptions) : importState o = readState o >>= restore o := rfl

/-- An import has no use for the archive once it has the exported state. -/
theorem sparesArchive_restore (o : ImportOptions) (s : ExportedState) :
    SparesArchive (restore o s) := by
  refine .bind (.modify fun _ => rfl) fun _ => ?_
  refine (SparesArchive.step
    (.wrapping (sparesArchive_importGroups s _ _) _) _ _ _).bind fun _ => ?_
  refine (SparesArchive.step (.wrapping (sparesArchive_waitFor _ _ _) _) _ _ _).bind fun _ => ?_
  refine (sparesArchive_waitForPackages o).bind fun _ => ?_
  refine (SparesArchive.ask fun _ => rfl).bind fun _ => ?_
  refine (sparesArchive_importRemaining s).bind fun remaining => ?_
  refine (SparesArchive.step ((sparesArchive_unpauseAll _ _).bind fun composites =>
    (sparesArchive_unpauseAll _ _).bind fun claims => .pure _) _ _ _).bind fun composites => ?_
  exact (sparesArchive_unpauseManaged o).bind fun managed => .pure _

end Work

end PlaneRestore
