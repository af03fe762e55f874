import PlaneRestore.Proofs.Import.Result
import PlaneRestore.Simulation.Scripted
/-!
Imports that are run in a world.

* `World.Answers P w ts w'`: the questions of the turns `ts` are answered in the world `w`, which is
  `w'` then. `Dialogue.led_of_runIn` finds such turns for every session that is led to its end.
* `World.Answers.serves`: behind an honest script, the plane in memory serves the calls.
* `importRun_of_runIn` and `runIn_yields_outcome`: a simulated import is a run, and has the outcome
  of one if it succeeds. So what is said about all runs is said about the simulation, too.
-/

namespace PlaneRestore

variable {σ α : Type} {P : Plane σ}

namespace World

/-- The questions of some turns are answered in a world, one after another. -/
inductive Answers (P : Plane σ) : World σ → Turns → World σ → Prop
  | nil (w : World σ) : Answers P w [] w
  | cons {w w₁ w' : World σ} {q : Question} {a : q.Answer} {ts : Turns}
      (first : w.answer P q = some (a, w₁)) (rest : Answers P w₁ ts w') :
      Answers P w (⟨q, a⟩ :: ts) w'

end World

/-- A session that is run to its end is led for the turns that are answered. -/
theorem Dialogue.led_of_runIn {session : Session α} {w w' : World σ} {a : α}
    (h : Dialogue.runIn P session w = some (a, w')) :
    ∃ ts, session.Led ts (some a) ∧ World.Answers P w ts w' := by
  induction session generalizing w with
  | done b =>
    cases h
    exact ⟨[], .ended _, .nil _⟩
  | andThen q next ih =>
    have hbind : (w.answer P q).bind (fun r => Dialogue.runIn P (next r.1) r.2)
        = some (a, w') := h
    obtain ⟨⟨b, w₁⟩, hfirst, hrest⟩ := Option.bind_eq_some_iff.mp hbind
    obtain ⟨ts, hled, hanswers⟩ := ih b hrest
    exact ⟨⟨q, b⟩ :: ts, .turn b hled, .cons hfirst hanswers⟩

/-! ### What an answer changes -/

namespace World

variable {w w' : World σ}

theorem take_eq (P : Plane σ) (w : World σ) (c : Call) :
    (w.take P c).1 = P.take w.plane w.clock c ∧
      (w.take P c).2.plane = (P.take w.plane w.clock c).plane ∧
        (w.take P c).2.source = w.source := by
  rw [take]
  refine ⟨rfl, ?_⟩
  dsimp only
  split <;> exact ⟨rfl, rfl⟩

/-- What a call does to a plane: it is answered when it was taken in, or given up after that, or not
even begun. -/
inductive Calls (P : Plane σ) (w w' : World σ) : LoggedCall → Prop
  | answered {c : Call} {a : c.Answer} (moment : Nat)
      (h : (a, w'.plane) =
        (P.take w.plane w.clock c).answer (P.take w.plane w.clock c).plane moment) :
      Calls P w w' ⟨c, some a⟩
  | givenUp {c : Call} (h : w'.plane = w.plane ∨ w'.plane = (P.take w.plane w.clock c).plane) :
      Calls P w w' ⟨c, none⟩

/-- Whoever waits for an answer gets it, or the wait has no effect on the plane. -/
theorem await_cases {taken : Taken σ α} {deadline : Option Nat} {reply : Reply α}
    (h : w.await taken deadline = some (reply, w')) :
    w'.source = w.source ∧
      ((∃ a moment, reply = .answered a ∧ (a, w'.plane) = taken.answer w.plane moment) ∨
        (reply = .cancelled ∨ reply = .late) ∧ w'.plane = w.plane) := by
  -- answered at once, cancelled, late, or answered after a while
  rw [await] at h
  split at h
  · cases h
    exact ⟨rfl, .inl ⟨_, w.clock, rfl, rfl⟩⟩
  · dsimp only at h
    split at h
    · cases h
      exact ⟨rfl, .inr ⟨.inl rfl, rfl⟩⟩
    · split at h
      · cases h
        exact ⟨rfl, .inr ⟨.inr rfl, rfl⟩⟩
      · split at h
        · next moment _ =>
          cases h
          exact ⟨rfl, .inl ⟨_, max w.clock moment, rfl, rfl⟩⟩
        · cases h

/-- An answer leaves the files alone, and the plane too unless it is the end of a call. -/
theorem answer_cases {q : Question} {a : q.Answer} (h : w.answer P q = some (a, w')) :
    w'.source = w.source ∧
      match LoggedCall.ofTurn? ⟨q, a⟩ with
      | none => w'.plane = w.plane
      | some e => Calls P w w' e := by
  cases q with
  | now | report news | extract path =>
    cases h
    exact ⟨rfl, rfl⟩
  | sleepUntil moment =>
    simp only [answer, sleepUntil, Option.some.injEq] at h
    split at h <;>
    · cases h
      exact ⟨rfl, rfl⟩
  | call c =>
    rw [answer, call] at h
    -- the plane has taken the call, and answers it in its own time
    have htake := take_eq P w c
    generalize w.take P c = begun at htake h
    obtain ⟨taken, w₁⟩ := begun
    obtain ⟨rfl, hplane, hsource⟩ := htake
    dsimp only at h hplane hsource
    split at h
    · next delay _ =>
      cases h
      refine ⟨hsource, .answered (max w₁.clock (w₁.clock + delay)) ?_⟩
      rw [← hplane]
      rfl
    · cases h
  | guarded c deadline =>
    rw [answer, guarded] at h
    split at h
    · cases h
      exact ⟨rfl, .givenUp (.inl rfl)⟩
    · split at h
      · cases h
        exact ⟨rfl, .givenUp (.inl rfl)⟩
      · have htake := take_eq P w c
        generalize w.take P c = begun at htake h
        obtain ⟨taken, w₁⟩ := begun
        obtain ⟨rfl, hplane, hsource⟩ := htake
        dsimp only at h hplane hsource
        obtain ⟨hkept, ⟨b, moment, rfl, hanswer⟩ | ⟨rfl | rfl, hnothing⟩⟩ := await_cases h
        · exact ⟨hkept.trans hsource, .answered moment (hplane ▸ hanswer)⟩
        · exact ⟨hkept.trans hsource, .givenUp (.inr (hnothing.trans hplane))⟩
        · exact ⟨hkept.trans hsource, .givenUp (.inr (hnothing.trans hplane))⟩

end World

/-! ### Scripts -/

theorem FailureRule.error_of_use {label : String} {rules : List FailureRule} {e : ClientError}
    (h : (use label rules).1 = some e) : ∃ rule ∈ rules, rule.error = e := by
  induction rules with
  | nil => cases h
  | cons rule rules ih =>
    rw [use] at h
    split at h
    · cases h
      exact ⟨rule, List.mem_cons_self, rfl⟩
    · obtain ⟨rule', hmem, herror⟩ := ih h
      exact ⟨rule', List.mem_cons_of_mem _ hmem, herror⟩

theorem FailureRule.error_of_mem_use {label : String} {rules : List FailureRule}
    {rule : FailureRule} (h : rule ∈ (use label rules).2) :
    ∃ rule' ∈ rules, rule'.error = rule.error := by
  induction rules with
  | nil => cases h
  | cons first rules ih =>
    rw [use] at h
    split at h
    · rcases List.mem_cons.mp h with rfl | h
      · exact ⟨first, List.mem_cons_self, rfl⟩
      · exact ⟨rule, List.mem_cons_of_mem _ h, rfl⟩
    · rcases List.mem_cons.mp h with rfl | h
      · exact ⟨rule, List.mem_cons_self, rfl⟩
      · obtain ⟨rule', hmem, herror⟩ := ih h
        exact ⟨rule', List.mem_cons_of_mem _ hmem, herror⟩

namespace ScriptedPlane

/-- Nothing is done to the plane that was not called for, and no script says that an object exists
already. -/
structure IsHonest (s : ScriptedPlane) : Prop where
  agenda : s.agenda = []
  failures : ∀ rule ∈ s.failures, ∀ k n, rule.error ≠ .alreadyExists k n

variable {s s' : ScriptedPlane}

theorem IsHonest.advance (h : s.IsHonest) (moment : Nat) : s.advance moment = s := by
  obtain ⟨plane, failures, delays, cancelOn, received, agenda⟩ := s
  obtain rfl : agenda = [] := h.agenda
  simp [ScriptedPlane.advance]

theorem IsHonest.take (h : s.IsHonest) (moment : Nat) (c : Call) :
    (s.take moment c).plane.IsHonest ∧ (s.take moment c).plane.plane = s.plane := by
  rw [ScriptedPlane.take, h.advance]
  refine ⟨⟨h.agenda, fun rule hrule => ?_⟩, rfl⟩
  obtain ⟨rule', hmem, herror⟩ := FailureRule.error_of_mem_use hrule
  rw [← herror]
  exact h.failures rule' hmem

/-- A call that is answered is taken in by the plane behind the script, or fails without effect. -/
theorem IsHonest.takes (h : s.IsHonest) {c : Call} {a : c.Answer} {moment moment' : Nat}
    (hanswer : (a, s') = (s.take moment c).answer (s.take moment c).plane moment') :
    s'.IsHonest ∧ s.plane.Takes ⟨c, some a⟩ s'.plane := by
  obtain ⟨hhonest, hplane⟩ := h.take moment c
  have hfailure : (s.take moment c).answer
      = ScriptedPlane.answer c (FailureRule.use c.label s.failures).1 := by
    rw [ScriptedPlane.take, h.advance]
  rw [hfailure, ScriptedPlane.answer, hhonest.advance] at hanswer
  dsimp only at hanswer
  split at hanswer
  · next refusal hrefusal =>
    cases hanswer
    -- the script has made the call fail
    obtain ⟨e, he, hrefused⟩ := Option.bind_eq_some_iff.mp hrefusal
    refine ⟨hhonest, .fails hrefused (.inl hplane) ?_⟩
    rintro m r k n - rfl
    obtain ⟨rule, hrule, herror⟩ := FailureRule.error_of_use he
    exact absurd herror (h.failures rule hrule k n)
  · cases hanswer
    refine ⟨⟨hhonest.agenda, hhonest.failures⟩, ?_⟩
    rw [hplane]
    exact .answers c

end ScriptedPlane

namespace World

variable {w₀ w₁ : World σ} {w w' : World ScriptedPlane} {ts : Turns} {s : ExportedState}

theorem Calls.takes {e : LoggedCall} (h : Calls scripted w w' e) (hw : w.plane.IsHonest) :
    w'.plane.IsHonest ∧ w.plane.plane.Takes e w'.plane.plane := by
  cases h with
  | answered moment hanswer => exact hw.takes hanswer
  | @givenUp c hplane =>
    obtain ⟨hhonest, hsame⟩ := hw.take w.clock c
    rcases hplane with hplane | hplane
    · rw [hplane]
      exact ⟨hw, .givenUp (.inl rfl)⟩
    · rw [hplane]
      exact ⟨hhonest, .givenUp (.inl hsame)⟩

/-- Behind an honest script, the plane serves the calls. -/
theorem Answers.serves (h : Answers scripted w ts w') (hw : w.plane.IsHonest) :
    w.plane.plane.Serves (callLog ts) w'.plane.plane := by
  induction h with
  | nil w => exact .nil _
  | @cons w w₁ w' q a ts first _ ih =>
    obtain ⟨-, hplane⟩ := answer_cases first
    rw [callLog, List.filterMap_cons]
    generalize LoggedCall.ofTurn? ⟨q, a⟩ = e at hplane ⊢
    cases e with
    | none =>
      have := ih (hplane ▸ hw)
      rwa [hplane] at this
    | some e =>
      obtain ⟨hhonest, htakes⟩ := Calls.takes hplane hw
      exact .cons htakes (ih hhonest)

/-- Among the files of a world there are archives of `s`, and of no other exported state. -/
structure Stores (w : World σ) (s : ExportedState) : Prop where
  found : ∃ path, ExportedState.extract path (w.source path) false = .ok s
  only : ∀ path isCancelled s',
    ExportedState.extract path (w.source path) isCancelled = .ok s' → s' = s

theorem Stores.reachable (h : w₀.Stores s) : s.Reachable :=
  h.found.elim fun _ hread => ExportedState.reachable_of_extract hread

theorem Answers.finds (h : Answers P w₀ ts w₁) (hstores : w₀.Stores s) : Turns.Finds s ts := by
  induction h with
  | nil => exact fun _ _ hmem => absurd hmem List.not_mem_nil
  | @cons w w₁ w' q a ts first _ ih =>
    obtain ⟨hkept, -⟩ := answer_cases first
    intro path s' hmem
    rcases List.mem_cons.mp hmem with heq | hmem
    · obtain ⟨rfl, hanswer⟩ := Sigma.mk.inj heq
      cases eq_of_heq hanswer
      obtain ⟨hextract, -⟩ := Prod.mk.inj (Option.some.inj first)
      exact hstores.only path w.isCancelled s' hextract
    · refine ih ⟨?_, ?_⟩ path s' hmem
      · exact hkept ▸ hstores.found
      · exact hkept ▸ hstores.only

end World

/-! ### Imports -/

variable {s : ExportedState} {o : ImportOptions} {w w' : World ScriptedPlane} {m m' : Memory}
  {result : Except ImportError ImportReport}

/-- An import that is run in a world, once or once more, is a run, and the plane serves it. -/
theorem importRun_of_runIn
    (hrun : (Work.importState o).runIn scripted m w = some ((result, m'), w'))
    (hm : ∀ s', m.state = some s' → s' = s) (hstores : w.Stores s) (hw : w.plane.IsHonest) :
    ∃ ts, ImportRun s o ts (some result) ∧ w.plane.plane.Serves (callLog ts) w'.plane.plane := by
  obtain ⟨ts, hled, hanswers⟩ := Dialogue.led_of_runIn hrun
  exact ⟨ts, ⟨m, _, hm, hanswers.finds hstores, hled, rfl⟩, hanswers.serves hw⟩

/-- A simulated import that succeeds has the outcome. -/
theorem runIn_yields_outcome {report : ImportReport}
    (hrun : (Work.importState o).runIn scripted m w = some ((.ok report, m'), w'))
    (hm : ∀ s', m.state = some s' → s' = s) (hstores : w.Stores s) (hw : w.plane.IsHonest)
    (hp : w.plane.plane.WellKept) (x : Slot) :
    w'.plane.plane.get? x = w.plane.plane.outcome s o x := by
  obtain ⟨ts, himport, hserves⟩ := importRun_of_runIn hrun hm hstores hw
  exact ((MemoryPlane.Underway.refl hp).arrives hstores.reachable.wellFormed himport hserves).2.1 x

end PlaneRestore
