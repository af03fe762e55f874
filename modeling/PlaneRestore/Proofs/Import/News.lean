import PlaneRestore.Proofs.Import.Stages
import PlaneRestore.Proofs.Plane.Play
/-!
The news of an import.

* `newsLog` lists the news of some turns; `stepEnding` is the language of the news of one step.
* `Work.Tells result log`: a log of whole steps, of which the last has failed if there is an error,
  and no other one. `Work.IsStaged.tells` finds such a log for all work that is done in steps.
* `import_tells_whole_steps` says so of imports: whatever they meet, they leave no step open, and
  they fail if, and only if, their last step does.
-/

namespace PlaneRestore

open scoped Computability

namespace Progress

def isUpdate : Progress → Bool
  | update _ => true
  | _ => false

def isSuccess : Progress → Bool
  | success _ => true
  | _ => false

def isFail : Progress → Bool
  | fail _ => true
  | _ => false

theorem isFail_of_isUpdate {n : Progress} (h : n.isUpdate = true) : n.isFail = false := by
  cases n with
  | update text => rfl
  | start | success | fail => cases h

end Progress

/-- The news of a turn, if there are any. -/
def newsOf? : Dialogue.Turn Question Question.Answer → Option Progress
  | ⟨.report news, _⟩ => some news
  | _ => none

def newsLog (ts : Turns) : List Progress := ts.filterMap newsOf?

theorem isUpdate_of_newsOf? {q : Question} {a : q.Answer} {n : Progress} (hq : q.isInner = true)
    (h : newsOf? ⟨q, a⟩ = some n) : n.isUpdate = true := by
  cases q with
  | report news =>
    cases h
    cases n with
    | update text => rfl
    | start | success | fail => cases hq
  | call | guarded | now | sleepUntil | extract => cases h

theorem newsLog_append (ts us : Turns) : newsLog (ts ++ us) = newsLog ts ++ newsLog us :=
  List.filterMap_append

/-- The news of a step with such an end. -/
def stepEnding (isLast : Progress → Bool) : Language Progress :=
  {log | ∃ opening updates last, (∀ n ∈ updates, n.isUpdate = true) ∧ isLast last = true ∧
    log = .start opening :: (updates ++ [last])}

/-- A cancellation, or an error that names its phase. -/
def ImportError.IsOutermost (e : ImportError) : Prop :=
  e = .cancelled ∨ ∃ context cause, e = .phase context cause

theorem ImportError.isOutermost_inPhase (context : String) (e : ImportError) :
    (e.inPhase context).IsOutermost := by
  cases e
  case cancelled => exact .inl rfl
  all_goals exact .inr ⟨context, _, rfl⟩

namespace Work

variable {α : Type} {x : Work α} {m m' : Memory} {ts : Turns}
  {r : Option (Except ImportError α × Memory)}

/-! ### Inside a step -/

/-- Errands tell of nothing but how far they are. -/
theorem IsErrand.updates (h : IsErrand x) (hled : x.Led m ts r) :
    ∀ n ∈ newsLog ts, n.isUpdate = true := by
  induction h generalizing m ts with
  | pure a | throw e | get | modify change =>
    obtain ⟨rfl, -⟩ := led_done hled
    exact fun n hn => nomatch hn
  -- the news of a bind are those of its parts, where it gets to the second
  | bind hx hf ihx ihf =>
    intro n hn
    rcases led_bind_iff.mp hled with ⟨-, hx⟩ | ⟨e, m', -, hx⟩ | ⟨a, m', us, vs, rfl, hx, hf⟩
    · exact ihx hx n hn
    · exact ihx hx n hn
    · rw [newsLog_append, List.mem_append] at hn
      exact hn.elim (ihx hx n) (ihf a hf n)
  | wrapping outer hx ih =>
    obtain ⟨r', hwork, -⟩ := led_wrapping hled
    exact ih hwork
  -- nothing follows an answer by which the errand is refused
  | asking hq refused hf ih =>
    rcases led_ask_bind_iff.mp hled with ⟨rfl, -⟩ | ⟨a, vs, rfl, hrest⟩
    · exact fun n hn => nomatch hn
    have hvs : ∀ n ∈ newsLog vs, n.isUpdate = true := by
      cases ha : isRefusal ⟨_, a⟩ with
      | false => exact ih a ha hrest
      | true =>
        rw [refused a ha] at hrest
        obtain ⟨rfl, -⟩ := led_done hrest
        exact fun n hn => nomatch hn
    intro n hn
    -- the question itself may be news, and what an errand may say is an update
    rw [newsLog, List.filterMap_cons] at hn
    split at hn
    · exact hvs n hn
    · next news hnews =>
      rcases List.mem_cons.mp hn with rfl | hn
      · exact isUpdate_of_newsOf? hq hnews
      · exact hvs n hn

/-- So does what is done in phases, and its errors name theirs. -/
theorem IsPhased.updates (h : IsPhased x) (hled : x.Led m ts r) :
    (∀ n ∈ newsLog ts, n.isUpdate = true) ∧
      ∀ e m', r = some (.error e, m') → e.IsOutermost := by
  induction h generalizing m ts with
  | pure a =>
    obtain ⟨rfl, rfl | rfl⟩ := led_done hled
    · exact ⟨fun n hn => (nomatch hn), fun _ _ hr => nomatch hr⟩
    · exact ⟨fun n hn => (nomatch hn), fun _ _ hr => nomatch hr⟩
  | bind hx hf ihx ihf =>
    rcases led_bind_iff.mp hled with ⟨rfl, hx⟩ | ⟨e, m', rfl, hx⟩ | ⟨a, m', us, vs, rfl, hx, hf⟩
    · exact ⟨(ihx hx).1, fun _ _ hr => nomatch hr⟩
    · refine ⟨(ihx hx).1, ?_⟩
      rintro _ _ ⟨⟩
      exact (ihx hx).2 e m' rfl
    · refine ⟨fun n hn => ?_, (ihf a hf).2⟩
      rw [newsLog_append, List.mem_append] at hn
      exact hn.elim ((ihx hx).1 n) ((ihf a hf).1 n)
  | phase context hx =>
    -- inside the phase there is an errand; its error is outermost once the phase is named
    obtain ⟨r', hwork, rfl⟩ := led_wrapping hled
    refine ⟨hx.updates hwork, fun e m' hr => ?_⟩
    obtain ⟨⟨result, m''⟩, rfl, hr⟩ := Option.map_eq_some_iff.mp hr
    cases result with
    | ok a => cases hr
    | error e' =>
      cases hr
      exact e'.isOutermost_inPhase context

/-! ### Steps -/

/-- Whole steps, of which the last has failed if there is an error. -/
def Tells : Except ImportError α → List Progress → Prop
  | .ok _, log => log ∈ (stepEnding Progress.isSuccess)∗
  | .error e, log =>
    log ∈ (stepEnding Progress.isSuccess)∗ * stepEnding Progress.isFail ∧ e.IsOutermost

theorem Tells.of_step {title opening : String} {closing : α → String}
    {result : Except ImportError α} {us : Turns} (hphased : IsPhased x)
    (hled : x.Led m us (some (result, m'))) :
    Tells result (newsLog (⟨.report (.start (title ++ opening)), ()⟩ ::
      (us ++ [⟨.report (closingNews title closing result), ()⟩]))) := by
  obtain ⟨hupdates, herror⟩ := hphased.updates hled
  -- the news of the step are what is told inside, between its start and its end
  have hlog : newsLog (⟨.report (.start (title ++ opening)), ()⟩ ::
      (us ++ [⟨.report (closingNews title closing result), ()⟩])) =
        .start (title ++ opening) :: (newsLog us ++ [closingNews title closing result]) := by
    simp [newsLog, newsOf?]
  rw [hlog]
  cases result with
  | ok a =>
    have hstep : .start (title ++ opening) :: (newsLog us ++ [.success (title ++ closing a)]) ∈
        stepEnding Progress.isSuccess := ⟨_, _, _, hupdates, rfl, rfl⟩
    have hone : stepEnding Progress.isSuccess ≤ (stepEnding Progress.isSuccess)∗ := le_kstar
    exact Set.mem_of_mem_of_subset hstep hone
  | error e =>
    have hstep : .start (title ++ opening) :: (newsLog us ++ [.fail (title ++ "Failed!")]) ∈
        stepEnding Progress.isFail := ⟨_, _, _, hupdates, rfl, rfl⟩
    exact ⟨Language.append_mem_mul (Language.nil_mem_kstar _) hstep, herror e m' rfl⟩

/-- What is done in steps leaves none of them open. -/
theorem IsStaged.tells {n : Nat} {result : Except ImportError α} (h : IsStaged n x)
    (hled : x.Led m ts (some (result, m'))) : Tells result (newsLog ts) := by
  induction h generalizing m ts m' with
  | pure a | modify change =>
    obtain ⟨rfl, hr | hr⟩ := led_done hled
    · cases hr
    · cases hr
      exact Language.nil_mem_kstar _
  | bind hx hf ihx ihf =>
    rcases led_bind_iff.mp hled with ⟨hr, -⟩ | ⟨e, m'', hr, hx⟩ | ⟨a, m'', us, vs, rfl, hx, hf⟩
    · cases hr
    · cases hr
      exact ihx hx
    · have hfirst := ihx hx
      have hrest := ihf a hf
      rw [newsLog_append]
      -- whole steps may come before those of the second part
      cases result with
      | ok b =>
        rw [Tells, ← kstar_mul_kstar]
        exact Language.append_mem_mul hfirst hrest
      | error e =>
        refine ⟨?_, hrest.2⟩
        rw [← kstar_mul_kstar, mul_assoc]
        exact Language.append_mem_mul hfirst hrest.1
  | reset =>
    rcases led_ask hled with ⟨-, hr⟩ | ⟨a, rfl, hr | hr⟩
    · cases hr
    · cases hr
    · cases hr
      exact Language.nil_mem_kstar _
  | step title opening closing hx =>
    rcases led_step hled with ⟨-, hr⟩ | ⟨us, r', hwork, ⟨-, hr⟩ | ⟨result', m'', rfl, hr | hr, rfl⟩⟩
    · cases hr
    · cases hr
    · cases hr
    · cases hr
      exact .of_step hx hwork

/-! ### What the logs have in common -/

theorem not_isFail_of_mem {log : List Progress} (h : log ∈ (stepEnding Progress.isSuccess)∗) :
    ∀ n ∈ log, n.isFail = false := by
  obtain ⟨steps, rfl, hsteps⟩ := Language.mem_kstar.mp h
  intro n hn
  obtain ⟨step, hstep, hn⟩ := List.mem_flatten.mp hn
  obtain ⟨opening, updates, last, hupdates, hlast, rfl⟩ := hsteps step hstep
  rcases List.mem_cons.mp hn with rfl | hn
  · rfl
  rcases List.mem_append.mp hn with hn | hn
  · exact Progress.isFail_of_isUpdate (hupdates n hn)
  · obtain rfl := List.mem_singleton.mp hn
    cases n with
    | success text => rfl
    | start | update | fail => cases hlast

theorem stepEnding_mono {p q : Progress → Bool} (h : ∀ n, p n = true → q n = true) :
    stepEnding p ≤ stepEnding q := by
  rintro log ⟨opening, updates, last, hupdates, hlast, rfl⟩
  exact ⟨opening, updates, last, hupdates, h last hlast, rfl⟩

theorem Tells.whole {result : Except ImportError α} {log : List Progress} (h : Tells result log) :
    log ∈ (stepEnding fun n => n.isSuccess || n.isFail)∗ := by
  have hsuccess : stepEnding Progress.isSuccess ≤ stepEnding fun n => n.isSuccess || n.isFail :=
    stepEnding_mono fun n hn => by simp [hn]
  have hfail : stepEnding Progress.isFail ≤ stepEnding fun n => n.isSuccess || n.isFail :=
    stepEnding_mono fun n hn => by simp [hn]
  cases result with
  | ok a => exact Set.mem_of_mem_of_subset h (kstar_mono hsuccess)
  | error e =>
    have hle := (mul_le_mul' (kstar_mono hsuccess) hfail).trans kstar_mul_le_kstar
    exact Set.mem_of_mem_of_subset h.1 hle

/-- The last news of an error is a failure, and the first one. -/
theorem Tells.failure {e : ImportError} {log : List Progress}
    (h : Tells (.error e : Except ImportError α) log) :
    ∃ before text, log = before ++ [.fail text] ∧ ∀ n ∈ before, n.isFail = false := by
  obtain ⟨before, hbefore, -, ⟨opening, updates, last, hupdates, hlast, rfl⟩, rfl⟩ :=
    Language.mem_mul.mp h.1
  cases last with
  | fail text =>
    refine ⟨before ++ .start opening :: updates, text, by simp, fun n hn => ?_⟩
    rcases List.mem_append.mp hn with hn | hn
    · exact not_isFail_of_mem hbefore n hn
    rcases List.mem_cons.mp hn with rfl | hn
    · rfl
    · exact Progress.isFail_of_isUpdate (hupdates n hn)
  | start text | update text | success text => cases hlast

end Work

/-- **The news of an import that comes to its end are those of whole steps**: each is started, may
be updated, and is ended once before the next one is started. At most one step fails; one fails if,
and only if, the import does, and then this is the last news. The error is a cancellation or names
the phase in which it arose. -/
theorem import_tells_whole_steps {o : ImportOptions} {m m' : Memory} {ts : Turns}
    {result : Except ImportError ImportReport}
    (hled : (Work.importState o).Led m ts (some (result, m'))) :
    newsLog ts ∈ (stepEnding fun n => n.isSuccess || n.isFail)∗ ∧
      (newsLog ts).countP Progress.isFail ≤ 1 ∧
        ((∃ n ∈ newsLog ts, n.isFail = true) ↔ ∃ e, result = .error e) ∧
          ∀ e, result = .error e →
            (∃ text, (newsLog ts).getLast? = some (.fail text)) ∧ e.IsOutermost := by
  have htells := (Work.isStaged_importState o).tells hled
  refine ⟨htells.whole, ?_⟩
  cases result with
  -- all steps have ended with success, so none has failed
  | ok report =>
    have hno := Work.not_isFail_of_mem htells
    refine ⟨?_, ?_, fun _ h => nomatch h⟩
    · rw [List.countP_eq_zero.mpr (by simpa using hno)]
      exact Nat.zero_le 1
    · refine ⟨?_, fun ⟨_, h⟩ => nomatch h⟩
      rintro ⟨n, hn, hfail⟩
      rw [hno n hn] at hfail
      cases hfail
  | error e =>
    -- whole steps come before the news of the failure, which is last
    obtain ⟨before, text, hlog, hbefore⟩ := htells.failure
    rw [hlog]
    refine ⟨?_, ⟨fun _ => ⟨e, rfl⟩, fun _ => ⟨.fail text, by simp, rfl⟩⟩, ?_⟩
    · have hzero : before.countP Progress.isFail = 0 :=
        List.countP_eq_zero.mpr (by simpa using hbefore)
      rw [List.countP_append, hzero]
      simp [Progress.isFail]
    · rintro _ ⟨⟩
      exact ⟨⟨text, by simp⟩, htells.2⟩

theorem import_tells_whole_steps_sample :
    (newsLog (Sample.planeFailing.playedTurns Sample.state Sample.options)).countP
      Progress.isFail = 1 := by
  have hrun := Dialogue.led_play (MemoryPlane.reply Sample.state)
    ((Work.importState Sample.options).run.run .empty) Sample.planeFailing
  obtain ⟨-, hle, hiff, -⟩ := import_tells_whole_steps hrun
  have hpos := List.countP_pos_iff.mpr (hiff.mpr Sample.planeFailing_fails)
  exact Nat.le_antisymm hle hpos

end PlaneRestore
