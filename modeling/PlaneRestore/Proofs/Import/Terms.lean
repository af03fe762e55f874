import PlaneRestore.Proofs.State.Failure
import PlaneRestore.Proofs.Trace.Terms
/-!
All work of an import keeps to terms.

Whatever the terms are, `Work.meets_apply`, `Work.meets_importGroup`, `Work.meets_waitFor`,
`Work.meets_modifyAll`, `Work.meets_preflight` and `Work.meets_importState` find that the work
writes no resource but where it fits, and fails with no errors but those with which it may.
-/

namespace PlaneRestore.Work

variable {T : Terms}

theorem meets_orThrow_of_plain {α : Type} {result : Except ImportError α}
    (h : FailsWith ImportError.IsPlain result) : Meets T (orThrow result) :=
  .orThrow fun e he => T.fails_plain (h e he)

/-! ### Groups -/

theorem meets_orApply_bind {α β : Type} {r : Resource} {answer : Except ClientError α}
    {f : α → Work β} (h : ∀ a, answer = .ok a → Meets T (f a)) :
    Meets T (orApply r answer >>= f) := by
  cases answer with
  | ok a => exact h a rfl
  | error e => exact .throw (T.fails_plain ⟨rfl, rfl⟩)

/-- A manifest is brought where its own kind is served. -/
theorem meets_apply (r : Resource) : Meets T (apply r) := by
  refine .call_bind (T.allows_of_written?_eq_none rfl) fun answer hanswer => ?_
  refine meets_orApply_bind fun mapping hmapping => ?_
  subst hmapping
  have hfits : T.fits mapping r.withoutServerFields :=
    T.fits_of_sameNames r.sameNames_withoutServerFields (T.fits_of_mapped hanswer r rfl)
  refine .call_bind ?_ fun answer _ => ?_
  · rintro _ _ ⟨⟩
    exact hfits
  · rw [← bind_pure (orApply r _)]
    exact meets_orApply_bind fun applied _ => .pure applied

theorem meets_kindsOf (c : Category) : Meets T (kindsOf c) := by
  refine .wrapping (.call_bind (T.allows_of_written?_eq_none rfl) fun answer _ => ?_) (.category _)
  exact .orClient_bind fun mappings _ => .pure _

theorem meets_pausableKinds : Meets T pausableKinds := by
  refine .get_bind fun m => ?_
  cases m.pausable with
  | some kinds => exact .pure kinds
  | none =>
    refine (Meets.mapM fun c _ => meets_kindsOf c).bind fun found => ?_
    exact (Meets.modify _).bind fun _ => .pure _

theorem meets_importManifest (pause : Bool) (man : Manifest) :
    Meets T (importManifest pause man) := by
  have hpaused : Meets T (paused pause man.resource) := by
    cases pause with
    | false => exact .pure man.resource
    | true => exact meets_pausableKinds.bind fun kinds => .pure _
  exact hpaused.bind fun r => .wrapping (meets_apply r) (.file _)

theorem meets_importGroup (s : ExportedState) (group : String) (pause : Bool) :
    Meets T (importGroup s group pause) := by
  refine .wrapping ((meets_orThrow_of_plain (s.readGroup_fails group)).bind fun manifests => ?_)
    (.group _)
  refine (Meets.forM fun man _ => ?_).bind fun _ => .pure _
  exact (meets_importManifest pause man).bind fun _ => .pure PUnit.unit

theorem meets_importGroups (s : ExportedState) (groups : List String) (pause : Bool) :
    Meets T (importGroups s groups pause) :=
  .mapM fun entry _ => (meets_importGroup s entry.1 pause).bind fun _ =>
    (Meets.report _).bind fun _ => .pure _

/-! ### Waits -/

theorem meets_poll (w : Watch) : Meets T w.poll := by
  refine .ask_bind (T.allows_of_written?_eq_none rfl) fun reply hreply => ?_
  cases reply with
  | cancelled => exact .throw (T.fails_cancelled hreply rfl)
  | late => exact .throw (T.fails_plain ⟨rfl, rfl⟩)
  | answered answer =>
    simp only
    split
    · exact .pure false
    · split
      · exact .pure true
      · exact (Meets.report _).bind fun _ => .pure false

theorem meets_pollFrom (w : Watch) (tick : Nat) : Meets T (w.pollFrom tick) := by
  -- by what is left of the time until the deadline
  induction tick using Watch.pollFrom.induct w with
  | case1 tick ih =>
    rw [Watch.pollFrom]
    refine .ask_bind (T.allows_of_written?_eq_none rfl) fun now hnow => ?_
    cases now with
    | none => exact .throw (T.fails_cancelled hnow rfl)
    | some now =>
      simp only
      split
      · next htime =>
        refine (meets_poll w).bind fun done => ?_
        cases done with
        | true => exact .pure PUnit.unit
        | false => exact ih now htime
      · exact .throw (T.fails_plain ⟨rfl, rfl⟩)

theorem meets_waitFor (settings : WaitSettings) (kind : GroupKind) (conditions : List String) :
    Meets T (waitFor settings kind conditions) := by
  refine .call_bind (T.allows_of_written?_eq_none rfl) fun answer _ => ?_
  refine .orClient_bind fun mapping _ => ?_
  exact .ask_bind (T.allows_of_written?_eq_none rfl) fun start _ => meets_pollFrom _ start

/-! ### Categories -/

section

variable {σ : Type} {change : Resource → StateM σ Resource}

theorem meets_replaceAll (hchange : ∀ m r st, T.fits m r → T.fits m ((change r).run st).1)
    {mapping : KindMapping} {rs : List Resource} (hrs : ∀ r ∈ rs, T.fits mapping r) (st : σ) :
    Meets T (replaceAll change mapping rs st) := by
  induction rs generalizing st with
  | nil => exact .pure st
  | cons r rs ih =>
    obtain ⟨hr, hrs⟩ := List.forall_mem_cons.mp hrs
    refine Meets.bind ?_ fun _ => ih hrs _
    refine .call_bind ?_ fun answer _ => .orClient_bind fun _ _ => .pure PUnit.unit
    rintro _ _ ⟨⟩
    exact hchange mapping r st hr

/-- What is listed is replaced where it was listed, if the change leaves it fit for that. -/
theorem meets_modifyKinds (hchange : ∀ m r st, T.fits m r → T.fits m ((change r).run st).1)
    (mappings : List KindMapping) (st : σ) : Meets T (modifyKinds change mappings st) := by
  induction mappings generalizing st with
  | nil => exact .pure 0
  | cons mapping mappings ih =>
    refine .call_bind (T.allows_of_written?_eq_none rfl) fun answer hanswer => ?_
    refine .orClient_bind fun objects hobjects => ?_
    subst hobjects
    refine (meets_replaceAll hchange (fun r hr => T.fits_of_listed hanswer r hr) st).bind ?_
    exact fun st => (ih st).bind fun _ => .pure _

end

theorem meets_modifyAll {change : Resource → Resource}
    (hchange : ∀ m r, T.fits m r → T.fits m (change r)) (c : Category) :
    Meets T (modifyAll c change) := by
  refine .wrapping (.call_bind (T.allows_of_written?_eq_none rfl) fun answer _ => ?_) (.category _)
  exact .orClient_bind fun mappings _ => meets_modifyKinds (fun m r _ => hchange m r) mappings ()

theorem meets_modifyAll_unpause (c : Category) : Meets T (modifyAll c Resource.unpause) :=
  meets_modifyAll (fun _ r hr => T.fits_of_sameNames r.sameNames_unpause hr) c

/-! ### The steps -/

theorem meets_heldState (archive : String) : Meets T (heldState archive) := by
  refine .get_bind fun m => ?_
  cases m.state with
  | some s => exact .pure s
  | none =>
    refine .ask_bind (T.allows_of_written?_eq_none rfl) fun found hfound => ?_
    refine (Meets.orThrow ?_).bind fun s => (Meets.modify _).bind fun _ => .pure s
    rintro e rfl
    exact T.fails_unread hfound

theorem meets_preflight (o : ImportOptions) : Meets T (preflight o) := by
  refine .ask_bind (T.allows_of_written?_eq_none rfl) fun reply _ => ?_
  cases reply with
  | cancelled => exact .pure _
  | late => exact .pure _
  | answered observed =>
    cases observed with
    | error e => exact .pure _
    | ok observed =>
      -- the state is got hold of without a call
      have hheld : Meets T (Except.ok <$> heldState o.inputArchive :
          Work (Except ImportError ExportedState)) := by
        rw [map_eq_pure_bind]
        exact (meets_heldState _).bind fun s => .pure _
      refine (hheld.tryCatch fun e _ => .pure _).bind fun found => ?_
      cases found with
      | error e => exact .pure _
      | ok s =>
        simp only
        split <;> exact .pure _

theorem meets_waitForPackages (o : ImportOptions) : Meets T (waitForPackages o) := by
  have hkind : ∀ conditions kind, Meets T (waitForPackageKind o conditions kind) :=
    fun _ _ => .wrapping (meets_waitFor _ _ _) (.phase _)
  refine .step ((Meets.forM fun kind _ => hkind _ kind).bind fun _ => ?_) _ _ _
  split
  · exact .forM fun kind _ => hkind _ kind
  · exact .pure PUnit.unit

theorem meets_importRemaining (s : ExportedState) : Meets T (importRemaining s) := by
  refine .step (.bind (.wrapping (meets_orThrow_of_plain (s.itemsOf_fails _)) (.phase _))
    fun items => .wrapping ?_ (.phase _)) _ _ _
  exact (meets_orThrow_of_plain (remainingGroups_fails items)).bind fun groups =>
    meets_importGroups s groups true

theorem meets_unpauseAll (c : Category) (shown : String) : Meets T (unpauseAll c shown) :=
  (Meets.wrapping (meets_modifyAll_unpause c) (.phase _)).bind fun _ => .pure _

theorem meets_unpauseManaged (o : ImportOptions) : Meets T (unpauseManaged o) := by
  rw [unpauseManaged]
  split
  · exact .step ((meets_unpauseAll _ _).bind fun managed => .pure _) _ _ _
  · exact .pure []

theorem meets_importState (o : ImportOptions) : Meets T (importState o) := by
  refine (Meets.step (.wrapping (meets_heldState _) (.phase _)) _ _ _).bind fun s => ?_
  refine (Meets.modify _).bind fun _ => ?_
  refine (Meets.step (.wrapping (meets_importGroups s _ _) (.phase _)) _ _ _).bind fun base => ?_
  refine (Meets.step (.wrapping (meets_waitFor _ _ _) (.phase _)) _ _ _).bind fun _ => ?_
  refine (meets_waitForPackages o).bind fun _ => ?_
  refine (Meets.ask (T.allows_of_written?_eq_none rfl)).bind fun _ => ?_
  refine (meets_importRemaining s).bind fun remaining => ?_
  refine (Meets.step ((meets_unpauseAll _ _).bind fun composites =>
    (meets_unpauseAll _ _).bind fun claims => .pure _) _ _ _).bind fun composites => ?_
  exact (meets_unpauseManaged o).bind fun managed => .pure _

end PlaneRestore.Work
