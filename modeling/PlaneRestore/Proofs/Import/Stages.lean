import PlaneRestore.Import.Run
import PlaneRestore.Proofs.Trace.Stages
/-!
An import is work in steps.

`Work.isStaged_importState`: whatever the options are, an import is a chain of steps with one reset
between them. All that a step does is part of a phase, and stops when the run is cancelled.
-/

namespace PlaneRestore.Work

/-! ### Calls and their answers -/

theorem isErrand_call (c : Call) : IsErrand (call c) := by
  refine .asking rfl (fun reply hreply => ?_) fun reply hreply => ?_
  · cases reply with
    | cancelled => rfl
    | answered a | late => cases hreply
  · cases reply with
    | answered a => exact .pure a
    | cancelled => cases hreply
    | late => exact .throw .cancelled

theorem isErrand_orClient {α : Type} (answer : Except ClientError α) :
    IsErrand (orClient answer) := by
  cases answer with
  | ok a => exact .pure a
  | error e => exact .throw (.client e)

theorem isErrand_orApply {α : Type} (r : Resource) (answer : Except ClientError α) :
    IsErrand (orApply r answer) := by
  cases answer with
  | ok a => exact .pure a
  | error e => exact .throw (.apply r.display e)

theorem isErrand_orThrow {α : Type} (result : Except ImportError α) :
    IsErrand (orThrow result) := by
  cases result with
  | ok a => exact .pure a
  | error e => exact .throw e

/-! ### Groups -/

theorem isErrand_apply (r : Resource) : IsErrand (apply r) := by
  refine (isErrand_call _).bind fun answer => (isErrand_orApply r answer).bind fun mapping => ?_
  exact (isErrand_call _).bind fun answer => isErrand_orApply r _

theorem isErrand_pausableKinds : IsErrand pausableKinds := by
  refine IsErrand.get.bind fun m => ?_
  cases m.pausable with
  | some kinds => exact .pure kinds
  | none =>
    have hkinds : ∀ c, IsErrand (kindsOf c) := fun c => .wrapping _ <|
      (isErrand_call _).bind fun answer => (isErrand_orClient answer).bind fun _ => .pure _
    exact (IsErrand.mapM hkinds _).bind fun found => (IsErrand.modify _).bind fun _ => .pure _

theorem isErrand_importManifest (pause : Bool) (man : Manifest) :
    IsErrand (importManifest pause man) := by
  have hpaused : IsErrand (paused pause man.resource) := by
    cases pause with
    | false => exact .pure man.resource
    | true => exact isErrand_pausableKinds.bind fun kinds => .pure _
  exact hpaused.bind fun r => .wrapping _ (isErrand_apply r)

theorem isErrand_importGroup (s : ExportedState) (group : String) (pause : Bool) :
    IsErrand (importGroup s group pause) := by
  refine .wrapping _ ((isErrand_orThrow _).bind fun manifests => ?_)
  refine (IsErrand.forM (fun man => ?_) manifests).bind fun _ => .pure _
  exact (isErrand_importManifest pause man).bind fun _ => .pure PUnit.unit

theorem isErrand_importGroups (s : ExportedState) (groups : List String) (pause : Bool) :
    IsErrand (importGroups s groups pause) := by
  refine IsErrand.mapM (fun entry => ?_) _
  exact (isErrand_importGroup s entry.1 pause).bind fun count =>
    (IsErrand.update _).bind fun _ => .pure _

/-! ### Waits -/

theorem isErrand_poll (w : Watch) : IsErrand w.poll := by
  refine .asking rfl (fun reply hreply => ?_) fun reply hreply => ?_
  · cases reply with
    | cancelled => rfl
    | answered a | late => cases hreply
  · cases reply with
    | cancelled => cases hreply
    | late => exact .throw w.timeout
    | answered answer =>
      simp only
      split
      · exact .pure false
      · split
        · exact .pure true
        · exact (IsErrand.update _).bind fun _ => .pure false

theorem isErrand_pollFrom (w : Watch) (tick : Nat) : IsErrand (w.pollFrom tick) := by
  -- by what is left of the time until the deadline
  induction tick using Watch.pollFrom.induct w with
  | case1 tick ih =>
    rw [Watch.pollFrom]
    refine .asking rfl (fun now hnow => ?_) fun now hnow => ?_
    · cases now with
      | none => rfl
      | some now => cases hnow
    · cases now with
      | none => cases hnow
      | some now =>
        simp only
        split
        · next htime =>
          refine (isErrand_poll w).bind fun done => ?_
          cases done with
          | true => exact .pure PUnit.unit
          | false => exact ih now htime
        · exact .throw w.timeout

theorem isErrand_waitFor (settings : WaitSettings) (kind : GroupKind) (conditions : List String) :
    IsErrand (waitFor settings kind conditions) := by
  refine (isErrand_call _).bind fun answer => (isErrand_orClient answer).bind fun mapping => ?_
  exact (IsErrand.ask rfl fun _ => rfl).bind fun start => isErrand_pollFrom _ start

/-! ### Categories -/

theorem isErrand_replace (mapping : KindMapping) (r : Resource) : IsErrand (replace mapping r) :=
  (isErrand_call _).bind fun answer => (isErrand_orClient answer).bind fun _ => .pure PUnit.unit

section

variable {σ : Type} (change : Resource → StateM σ Resource)

theorem isErrand_replaceAll (mapping : KindMapping) (rs : List Resource) (st : σ) :
    IsErrand (replaceAll change mapping rs st) := by
  induction rs generalizing st with
  | nil => exact .pure st
  | cons r rs ih => exact (isErrand_replace mapping _).bind fun _ => ih _

theorem isErrand_modifyKinds (mappings : List KindMapping) (st : σ) :
    IsErrand (modifyKinds change mappings st) := by
  induction mappings generalizing st with
  | nil => exact .pure 0
  | cons mapping mappings ih =>
    refine (isErrand_call _).bind fun answer => (isErrand_orClient answer).bind fun objects => ?_
    refine (isErrand_replaceAll change mapping objects st).bind fun st => ?_
    exact (ih st).bind fun _ => .pure _

end

theorem isErrand_modifyAll (c : Category) (change : Resource → Resource) :
    IsErrand (modifyAll c change) := by
  refine .wrapping _ ((isErrand_call _).bind fun answer => ?_)
  exact (isErrand_orClient answer).bind fun mappings => isErrand_modifyKinds _ mappings ()

/-! ### The steps -/

theorem isErrand_heldState (archive : String) : IsErrand (heldState archive) := by
  refine IsErrand.get.bind fun m => ?_
  cases m.state with
  | some s => exact .pure s
  | none =>
    refine (IsErrand.ask rfl fun _ => rfl).bind fun found => ?_
    refine (isErrand_orThrow found).bind fun s => ?_
    exact (IsErrand.modify _).bind fun _ => .pure s

theorem isPhased_waitForPackageKind (o : ImportOptions) (conditions : List String)
    (kind : String) : IsPhased (waitForPackageKind o conditions kind) :=
  .phase _ (isErrand_waitFor _ _ _)

theorem isStaged_waitForPackages (o : ImportOptions) : IsStaged 0 (waitForPackages o) := by
  refine .step _ _ _ (.bind (.forM (isPhased_waitForPackageKind o _) _) fun _ => ?_)
  split
  · exact .forM (isPhased_waitForPackageKind o _) _
  · exact .pure PUnit.unit

theorem isStaged_importRemaining (s : ExportedState) : IsStaged 0 (importRemaining s) := by
  refine .step _ _ _ (.bind (.phase _ (isErrand_orThrow _)) fun items => .phase _ ?_)
  exact (isErrand_orThrow _).bind fun groups => isErrand_importGroups s groups true

theorem isPhased_unpauseAll (c : Category) (shown : String) : IsPhased (unpauseAll c shown) :=
  .bind (.phase _ (isErrand_modifyAll c _)) fun _ => .pure _

theorem isStaged_unpauseComposites : IsStaged 0 unpauseComposites := by
  refine .step _ _ _ (.bind (isPhased_unpauseAll _ _) fun composites => ?_)
  exact .bind (isPhased_unpauseAll _ _) fun claims => .pure _

theorem isStaged_unpauseManaged (o : ImportOptions) : IsStaged 0 (unpauseManaged o) := by
  rw [unpauseManaged]
  split
  · exact .step _ _ _ (.bind (isPhased_unpauseAll _ _) fun managed => .pure _)
  · exact .pure []

/-- An import is done in steps, with one reset. -/
theorem isStaged_importState (o : ImportOptions) : IsStaged 1 (importState o) := by
  refine .bind (k := 0) (n := 1) (.step _ _ _ (.phase _ (isErrand_heldState _))) fun s => ?_
  refine .bind (k := 0) (n := 1) (.modify _) fun _ => ?_
  refine .bind (k := 0) (n := 1) (.step _ _ _ (.phase _ (isErrand_importGroups s _ _))) fun base =>
    ?_
  refine .bind (k := 0) (n := 1) (.step _ _ _ (.phase _ (isErrand_waitFor _ _ _))) fun _ => ?_
  refine .bind (k := 0) (n := 1) (isStaged_waitForPackages o) fun _ => ?_
  refine .bind (k := 1) (n := 0) .reset fun _ => ?_
  refine .bind (k := 0) (n := 0) (isStaged_importRemaining s) fun remaining => ?_
  refine .bind (k := 0) (n := 0) isStaged_unpauseComposites fun composites => ?_
  exact .bind (k := 0) (n := 0) (isStaged_unpauseManaged o) fun managed => .pure _

end PlaneRestore.Work
