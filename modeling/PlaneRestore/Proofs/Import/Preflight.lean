import PlaneRestore.Import.Run
import PlaneRestore.Proofs.Simulation.Ends
/-!
Preflights.

* `Work.Holds` says how an import comes by its exported state, and `Work.Checks` which turns a
  preflight takes and what it finds: it stops at the first step that fails.
* `preflight_is_exact`: whatever the plane does and whatever is in the archive, every preflight is
  one of these. It makes one call at most, and it finds nothing if, and only if, there is nothing to
  be found.
-/

namespace PlaneRestore

namespace Work

variable {α : Type} {archive : String} {m m' : Memory} {ts : Turns} {o : ImportOptions}
  {issues : List PreflightIssue}

/-- The control plane is asked what it is. -/
def observing (reply : Reply (Except ClientError EngineInfo)) :
    Dialogue.Turn Question Question.Answer :=
  ⟨.guarded .observe none, reply⟩

/-- The exported state is known, or it is read from the archive and is known then. -/
inductive Holds (archive : String) (m : Memory) :
    Turns → Except ImportError ExportedState → Memory → Prop
  | known {s : ExportedState} (before : m.state = some s) : Holds archive m [] (.ok s) m
  | read {s : ExportedState} (before : m.state = none) :
      Holds archive m [⟨.extract archive, .ok s⟩] (.ok s) { m with state := some s }
  | unread {e : ImportError} (before : m.state = none) :
      Holds archive m [⟨.extract archive, .error e⟩] (.error e) m

/-- What a preflight does, and what it finds. -/
inductive Checks (archive : String) (m : Memory) : Turns → List PreflightIssue → Memory → Prop
  | refused (e : ClientError) :
      Checks archive m [observing (.answered (.error e))] [.engineInfo e] m
  | cancelled {reply : Reply (Except ClientError EngineInfo)}
      (unanswered : ∀ a, reply ≠ .answered a) : Checks archive m [observing reply] [.cancelled] m
  | unread {observed : EngineInfo} {ts : Turns} {e : ImportError} {m' : Memory}
      (holds : Holds archive m ts (.error e) m') (fails : e ≠ .cancelled) :
      Checks archive m (observing (.answered (.ok observed)) :: ts) [.unarchive e] m'
  | readCancelled {observed : EngineInfo} {ts : Turns} {m' : Memory}
      (holds : Holds archive m ts (.error .cancelled) m') :
      Checks archive m (observing (.answered (.ok observed)) :: ts) [.cancelled] m'
  | undescribed {observed : EngineInfo} {ts : Turns} {s : ExportedState} {m' : Memory}
      {e : ImportError} (holds : Holds archive m ts (.ok s) m') (fails : s.exportMeta = .error e) :
      Checks archive m (observing (.answered (.ok observed)) :: ts) [.metadata e] m'
  /-- All steps have succeeded. The version comes first, then the flags in the order in which they
  are recorded. -/
  | compared {observed : EngineInfo} {ts : Turns} {s : ExportedState} {m' : Memory}
      {exported : ExportMeta} (holds : Holds archive m ts (.ok s) m')
      (succeeds : s.exportMeta = .ok exported) :
      Checks archive m (observing (.answered (.ok observed)) :: ts)
        ((if observed.version = exported.engineVersion then []
            else [.versionMismatch observed.version exported.engineVersion]) ++
          (exported.featureFlags.filter (· ∉ observed.featureFlags)).map .missingFeatureFlag) m'

/-! ### The exported state -/

theorem led_heldState {r : Option (Except ImportError ExportedState × Memory)}
    (h : (heldState archive).Led m ts r) : ts = [] ∨ ∃ a, ts = [⟨.extract archive, a⟩] := by
  obtain ⟨state, pausable⟩ := m
  cases state with
  | some s => exact .inl (led_done (r := (.ok s, _)) h).1
  | none =>
    cases h with
    | brokenOff => exact .inl rfl
    | turn a rest =>
      refine .inr ⟨a, ?_⟩
      cases a with
      | ok s => rw [(led_done (r := (.ok s, _)) rest).1]
      | error e => rw [(led_done (r := (.error e, _)) rest).1]

theorem led_heldState_iff {result : Except ImportError ExportedState} :
    (heldState archive).Led m ts (some (result, m')) ↔ Holds archive m ts result m' := by
  obtain ⟨state, pausable⟩ := m
  constructor
  · intro h
    cases state with
    | some s =>
      obtain ⟨rfl, hr⟩ := led_done_some (p := (.ok s, _)) h
      cases hr
      exact .known rfl
    | none =>
      cases h with
      | turn a rest =>
        cases a with
        | ok s =>
          obtain ⟨rfl, hr⟩ := led_done_some (p := (.ok s, _)) rest
          cases hr
          exact .read rfl
        | error e =>
          obtain ⟨rfl, hr⟩ := led_done_some (p := (.error e, _)) rest
          cases hr
          exact .unread rfl
  · intro h
    cases h with
    -- conversely, each way of having the state is a run
    | known before =>
      cases before
      exact .ended _
    | read before =>
      cases before
      exact .turn _ (.ended _)
    | unread before =>
      cases before
      exact .turn _ (.ended _)

/-! ### Work whose errors are looked at -/

/-- Work that gives its error as a result. -/
def attempt (x : Work α) : Work (Except ImportError α) :=
  tryCatch (Except.ok <$> x) fun e => return .error e

theorem run_attempt (x : Work α) (m : Memory) :
    (attempt x).run.run m = x.run.run m >>= fun p => .done (.ok p.1, p.2) := by
  rw [attempt, Dialogue.run_tryCatch, map_eq_pure_bind, Dialogue.run_bind, bind_assoc]
  congr 1
  funext ⟨r, m'⟩
  cases r <;> rfl

theorem led_attempt {x : Work α} {r : Option (Except ImportError (Except ImportError α) × Memory)}
    (h : (attempt x).Led m ts r) : ∃ r', x.Led m ts r' := by
  rw [Led, run_attempt] at h
  rcases Dialogue.led_bind_iff.mp h with ⟨-, hx⟩ | ⟨p, us, vs, rfl, hx, hend⟩
  · exact ⟨none, hx⟩
  · obtain ⟨rfl, -⟩ := led_done hend
    rw [List.append_nil]
    exact ⟨some p, hx⟩

theorem led_attempt_iff {x : Work α} {result : Except ImportError (Except ImportError α)} :
    (attempt x).Led m ts (some (result, m')) ↔ ∃ r, result = .ok r ∧ x.Led m ts (some (r, m')) := by
  rw [Led, run_attempt, Dialogue.led_bind_iff]
  constructor
  · rintro (⟨hr, -⟩ | ⟨⟨r, m₁⟩, us, vs, rfl, hx, hend⟩)
    · cases hr
    · obtain ⟨rfl, hr⟩ := led_done_some hend
      cases hr
      rw [List.append_nil]
      exact ⟨r, rfl, hx⟩
  · rintro ⟨r, rfl, hx⟩
    exact .inr ⟨(r, m'), ts, [], (List.append_nil ts).symm, hx, .ended _⟩

/-! ### Preflights -/

/-- What is found once the control plane has been observed and the archive has been read. -/
def judge (observed : EngineInfo) : Except ImportError ExportedState → List PreflightIssue
  | .ok s =>
    match s.exportMeta with
    | .ok exported => compatibilityIssues exported observed
    | .error e => [.metadata e]
  | .error e => [unarchiveIssue e]

/-- What a preflight does with the answer to its first question. -/
def afterObserving (archive : String) :
    Reply (Except ClientError EngineInfo) → Work (List PreflightIssue)
  | .answered (.ok observed) => do return judge observed (← attempt (heldState archive))
  | .answered (.error e) => return [.engineInfo e]
  | _ => return [.cancelled]

theorem preflight_eq (o : ImportOptions) :
    preflight o = ask (.guarded .observe none) >>= afterObserving o.inputArchive := by
  rw [preflight]
  refine bind_congr fun reply => ?_
  cases reply with
  | cancelled | late => rfl
  | answered answer =>
    cases answer with
    | error e => rfl
    | ok observed =>
      -- what is left is the judgement on a state that has been read
      refine bind_congr fun r => ?_
      cases r with
      | error e => rfl
      | ok s =>
        dsimp only [judge]
        cases s.exportMeta with
        | error e => rfl
        | ok exported => rfl

theorem compatibilityIssues_eq (exported : ExportMeta) (observed : EngineInfo) :
    compatibilityIssues exported observed =
      (if observed.version = exported.engineVersion then []
        else [.versionMismatch observed.version exported.engineVersion]) ++
      (exported.featureFlags.filter (· ∉ observed.featureFlags)).map .missingFeatureFlag := by
  have hflags : ∀ f, (!observed.hasFeatureFlag f) = decide (f ∉ observed.featureFlags) := by
    intro f
    rw [EngineInfo.hasFeatureFlag, List.contains_eq_mem, decide_not]
  simp only [compatibilityIssues, hflags]

/-- Reading the archive decides how a preflight goes on. -/
theorem checks_iff_holds {observed : EngineInfo} :
    Checks archive m (observing (.answered (.ok observed)) :: ts) issues m' ↔
      ∃ r, Holds archive m ts r m' ∧ issues = judge observed r := by
  constructor
  · intro h
    cases h with
    | cancelled unanswered => exact absurd rfl (unanswered _)
    | @unread _ _ e _ holds fails =>
      refine ⟨.error e, holds, ?_⟩
      cases e with
      | cancelled => exact absurd rfl fails
      | _ => rfl
    | readCancelled holds => exact ⟨_, holds, rfl⟩
    | undescribed holds fails => exact ⟨_, holds, by rw [judge, fails]⟩
    | compared holds succeeds =>
      exact ⟨_, holds, by rw [judge, succeeds]; exact (compatibilityIssues_eq _ _).symm⟩
  · rintro ⟨r, holds, rfl⟩
    cases r with
    | error e =>
      -- a cancellation is told as such, every other error as one of the archive
      by_cases he : e = .cancelled
      · subst he
        exact .readCancelled holds
      · have hissue : judge observed (.error e) = [.unarchive e] := by
          cases e with
          | cancelled => exact absurd rfl he
          | _ => rfl
        rw [hissue]
        exact .unread holds he
    | ok s =>
      rw [judge]
      cases hmeta : s.exportMeta with
      | error e => exact .undescribed holds hmeta
      | ok exported =>
        dsimp only
        rw [compatibilityIssues_eq]
        exact .compared holds hmeta

/-- Every preflight does and finds one of these. -/
theorem led_preflight_iff {result : Except ImportError (List PreflightIssue)} :
    (preflight o).Led m ts (some (result, m')) ↔
      ∃ issues, result = .ok issues ∧ Checks o.inputArchive m ts issues m' := by
  rw [preflight_eq, led_ask_bind_iff]
  constructor
  · rintro (⟨-, hr⟩ | ⟨reply, us, rfl, hrest⟩)
    · cases hr
    cases reply with
    | cancelled | late =>
      obtain ⟨rfl, hr⟩ := led_done_some hrest
      cases hr
      exact ⟨_, rfl, .cancelled (by simp)⟩
    | answered answer =>
      cases answer with
      | error e =>
        obtain ⟨rfl, hr⟩ := led_done_some hrest
        cases hr
        exact ⟨_, rfl, .refused e⟩
      | ok observed =>
        -- an attempt never fails, so the archive has been read one way or the other
        rcases led_bind_some hrest with ⟨e, -, hfailed⟩ | ⟨r, m₁, us, vs, rfl, hread, hend⟩
        · obtain ⟨r, hr, -⟩ := led_attempt_iff.mp hfailed
          cases hr
        · obtain ⟨r, hr, hheld⟩ := led_attempt_iff.mp hread
          cases hr
          obtain ⟨rfl, hend⟩ := led_done_some hend
          cases hend
          rw [List.append_nil]
          exact ⟨_, rfl, checks_iff_holds.mpr ⟨r, led_heldState_iff.mp hheld, rfl⟩⟩
  · rintro ⟨issues, rfl, h⟩
    -- once the plane has been observed, the same is done in each case
    have hread : ∀ {observed us}, Checks o.inputArchive m
        (observing (.answered (.ok observed)) :: us) issues m' →
          (afterObserving o.inputArchive (.answered (.ok observed))).Led m us
            (some (.ok issues, m')) := by
      intro observed us h
      obtain ⟨r, holds, rfl⟩ := checks_iff_holds.mp h
      have hled := led_attempt_iff.mpr ⟨r, rfl, led_heldState_iff.mpr holds⟩
      exact led_bind_iff.mpr
        (.inr (.inr ⟨r, m', us, [], (List.append_nil us).symm, hled, .ended _⟩))
    have hchecks := h
    cases h with
    | refused e => exact .inr ⟨_, [], rfl, .ended _⟩
    | @cancelled reply unanswered =>
      refine .inr ⟨reply, [], rfl, ?_⟩
      cases reply with
      | answered a => exact absurd rfl (unanswered a)
      | cancelled | late => exact .ended _
    | unread | readCancelled | undescribed | compared => exact .inr ⟨_, _, rfl, hread hchecks⟩

/-- After the control plane has been observed, a preflight makes no calls. -/
theorem callLog_preflight {r : Option (Except ImportError (List PreflightIssue) × Memory)}
    (h : (preflight o).Led m ts r) : callLog ts = [] ∨ ∃ a, callLog ts = [⟨.observe, a⟩] := by
  rw [preflight_eq] at h
  rcases led_ask_bind_iff.mp h with ⟨rfl, -⟩ | ⟨reply, us, rfl, hrest⟩
  · exact .inl rfl
  -- reading the archive is no call
  have hnone : callLog us = [] := by
    cases reply with
    | cancelled | late => rw [(led_done hrest).1, callLog_nil]
    | answered answer =>
      cases answer with
      | error e => rw [(led_done hrest).1, callLog_nil]
      | ok observed =>
        have hread :
            ∀ {us r}, (attempt (heldState o.inputArchive)).Led m us r → callLog us = [] := by
          intro us r h
          obtain ⟨r', hheld⟩ := led_attempt h
          rcases led_heldState hheld with rfl | ⟨a, rfl⟩ <;> rfl
        rcases led_bind hrest with ⟨r', h, -⟩ | ⟨found, m₁, us, vs, rfl, h, hend⟩
        · exact hread h
        · rw [callLog_append, hread h, (led_done hend).1, callLog_nil, List.append_nil]
  rw [show (⟨.guarded .observe none, reply⟩ :: us : Turns) = [observing reply] ++ us from rfl,
    callLog_append, hnone, List.append_nil]
  cases reply with
  | answered a => exact .inr ⟨some a, rfl⟩
  | cancelled | late => exact .inr ⟨none, rfl⟩

/-- Nothing is found if, and only if, all steps succeed and the record fits the control plane. -/
theorem checks_nil_iff : Checks archive m ts [] m' ↔ ∃ observed us s exported,
    ts = observing (.answered (.ok observed)) :: us ∧ Holds archive m us (.ok s) m' ∧
      s.exportMeta = .ok exported ∧ observed.version = exported.engineVersion ∧
        ∀ f ∈ exported.featureFlags, f ∈ observed.featureFlags := by
  constructor
  · intro h
    generalize hnone : ([] : List PreflightIssue) = issues at h
    cases h with
    -- only a comparison can find nothing
    | @compared observed us s _ exported holds succeeds =>
      obtain ⟨hversion, hflags⟩ := List.append_eq_nil_iff.mp hnone.symm
      refine ⟨observed, us, s, exported, rfl, holds, succeeds, ?_, fun f hf => ?_⟩
      · by_contra hne
        rw [if_neg hne] at hversion
        cases hversion
      · rw [List.map_eq_nil_iff, List.filter_eq_nil_iff] at hflags
        simpa using hflags f hf
    | refused | cancelled | unread | readCancelled | undescribed => cases hnone
  · rintro ⟨observed, us, s, exported, rfl, holds, succeeds, hversion, hflags⟩
    have hchecks := @Checks.compared archive m observed us s m' exported holds succeeds
    have hmissing : exported.featureFlags.filter (· ∉ observed.featureFlags) = [] := by
      rw [List.filter_eq_nil_iff]
      simpa using hflags
    rw [if_pos hversion, hmissing] at hchecks
    exact hchecks

/-! ### Preflights in a world -/

variable {σ : Type} {P : Plane σ} {w w' : World σ}

theorem Holds.begun {result : Except ImportError ExportedState} (h : Holds archive m ts result m')
    (hrun : w.Answers P ts w') : w'.begun = w.begun := by
  cases h with
  | known =>
    cases hrun
    rfl
  | read | unread =>
    cases hrun with
    | cons first rest =>
      cases rest
      rw [(World.answer_spec first).2]
      exact List.append_nil _

theorem Checks.split (h : Checks archive m ts issues m') : ∃ reply us, ts = observing reply :: us ∧
    (us = [] ∨ ∃ result, Holds archive m us result m') := by
  cases h with
  | refused e => exact ⟨_, [], rfl, .inl rfl⟩
  | cancelled unanswered => exact ⟨_, [], rfl, .inl rfl⟩
  | unread holds | readCancelled holds | undescribed holds | compared holds =>
    exact ⟨_, _, rfl, .inr ⟨_, holds⟩⟩

/-- The control plane is asked first, and nothing else is asked of it. -/
theorem Checks.begun (h : Checks archive m ts issues m') (hrun : w.Answers P ts w') :
    (∃ p, w.answer P (.guarded .observe none) = some p) ∧
      w'.begun = w.begun ++ if w.isCancelled then [] else [.observe] := by
  obtain ⟨reply, us, rfl, hrest⟩ := h.split
  cases hrun with
  | @cons _ w₁ _ _ _ _ first rest =>
    have hfirst : w₁.begun = w.begun ++ if w.isCancelled then [] else [.observe] := by
      rw [(World.answer_spec first).2]
      simp [World.beginning, World.comesBy]
    have hlater : w'.begun = w₁.begun := by
      rcases hrest with rfl | ⟨result, holds⟩
      · cases rest
        rfl
      · exact holds.begun rest
    exact ⟨⟨_, first⟩, hlater.trans hfirst⟩

/-- The exported state is come by in every world. -/
theorem exists_holds (P : Plane σ) (archive : String) (m : Memory) (w : World σ) :
    ∃ ts result m' w', Holds archive m ts result m' ∧ w.Answers P ts w' := by
  cases hstate : m.state with
  | some s => exact ⟨_, _, _, w, .known hstate, .nil w⟩
  | none =>
    obtain ⟨⟨found, w₁⟩, hanswer⟩ : ∃ p, w.answer P (.extract archive) = some p := ⟨_, rfl⟩
    cases found with
    | ok s => exact ⟨_, _, _, w₁, .read hstate, .cons hanswer (.nil w₁)⟩
    | error e => exact ⟨_, _, _, w₁, .unread hstate, .cons hanswer (.nil w₁)⟩

theorem exists_checks {reply : Reply (Except ClientError EngineInfo)} {w₁ : World σ}
    (h : w.answer P (.guarded .observe none) = some (reply, w₁)) (archive : String) (m : Memory) :
    ∃ ts issues m' w', Checks archive m ts issues m' ∧ w.Answers P ts w' := by
  cases reply with
  | cancelled | late => exact ⟨_, _, m, w₁, .cancelled (by simp), .cons h (.nil w₁)⟩
  | answered answer =>
    cases answer with
    | error e => exact ⟨_, _, m, w₁, .refused e, .cons h (.nil w₁)⟩
    | ok observed =>
      obtain ⟨us, result, m', w', holds, hrun⟩ := exists_holds P archive m w₁
      exact ⟨_, _, m', w', checks_iff_holds.mpr ⟨result, holds, rfl⟩, .cons h hrun⟩

end Work

/-- What there is to say about the preflights of an import. -/
structure PreflightIsExact {σ : Type} (P : Plane σ) (o : ImportOptions) (m : Memory) : Prop where
  /-- At most one call is made, even by a preflight that is broken off. It changes nothing. -/
  calls : ∀ ts r, (Work.preflight o).Led m ts r →
    callLog ts = [] ∨ ∃ a, callLog ts = [⟨.observe, a⟩]
  course : ∀ ts result m', (Work.preflight o).Led m ts (some (result, m')) ↔
    ∃ issues, result = .ok issues ∧ Work.Checks o.inputArchive m ts issues m'
  passes : ∀ ts m', (Work.preflight o).Led m ts (some (.ok [], m')) ↔
    ∃ observed us s exported, ts = Work.observing (.answered (.ok observed)) :: us ∧
      Work.Holds o.inputArchive m us (.ok s) m' ∧ s.exportMeta = .ok exported ∧
        observed.version = exported.engineVersion ∧
          ∀ f ∈ exported.featureFlags, f ∈ observed.featureFlags
  /-- A preflight comes to its end, unless it waits for ever to be told what the engine of the
  control plane is. -/
  ends : ∀ w : World σ, (∃ p, (Work.preflight o).runIn P m w = some p) ↔
    ∃ p, w.answer P (.guarded .observe none) = some p
  runs : ∀ (w w' : World σ) p, (Work.preflight o).runIn P m w = some (p, w') →
    (∃ ts, (Work.preflight o).Led m ts (some p) ∧ w.Answers P ts w') ∧
      w'.begun = w.begun ++ if w.isCancelled then [] else [.observe]

theorem preflight_is_exact {σ : Type} (P : Plane σ) (o : ImportOptions) (m : Memory) :
    PreflightIsExact P o m where
  calls _ _ h := Work.callLog_preflight h
  course _ _ _ := Work.led_preflight_iff
  passes ts m' := by
    rw [Work.led_preflight_iff, ← Work.checks_nil_iff]
    constructor
    · rintro ⟨issues, hissues, h⟩
      cases hissues
      exact h
    · exact fun h => ⟨[], rfl, h⟩
  ends w := by
    constructor
    · rintro ⟨⟨⟨result, m'⟩, w'⟩, hrun⟩
      obtain ⟨ts, hled, hanswers⟩ := Dialogue.led_of_runIn hrun
      obtain ⟨issues, -, hchecks⟩ := Work.led_preflight_iff.mp hled
      exact (hchecks.begun hanswers).1
    · rintro ⟨⟨reply, w₁⟩, h⟩
      -- an answer to the observation is all that a preflight waits for
      obtain ⟨ts, issues, m', w', hchecks, hrun⟩ := Work.exists_checks h o.inputArchive m
      exact ⟨_, Dialogue.runIn_of_led (Work.led_preflight_iff.mpr ⟨issues, rfl, hchecks⟩) hrun⟩
  runs w w' p hrun := by
    obtain ⟨ts, hled, hanswers⟩ := Dialogue.led_of_runIn hrun
    obtain ⟨issues, -, hchecks⟩ := Work.led_preflight_iff.mp hled
    exact ⟨⟨ts, hled, hanswers⟩, (hchecks.begun hanswers).2⟩

end PlaneRestore
