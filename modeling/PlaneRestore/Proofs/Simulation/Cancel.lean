import PlaneRestore.Proofs.Simulation.Clock
/-!
What a cancellation stops.

* `World.Interrupts P w c deadline moment`: a call that is begun now is still without an answer at
  the moment at which the run is cancelled.
* `StopsWhenCancelled P C resets session`: from the cancellation on, the session begins no calls but
  so many resets; a call that is not yet answered then is given up, and the session ends with a
  result of which `C` is true.
* `Dialogue.Heeds.stops`: so do all sessions that heed a cancellation.
-/

namespace PlaneRestore

variable {σ α : Type} {P : Plane σ} {C : α → Prop} {n : Nat} {session : Session α}

namespace World

variable {w w' : World σ}

/-- A call that is begun now is not answered before the run is cancelled at a moment, and its
deadline does not come before that either. -/
structure Interrupts (P : Plane σ) (w : World σ) (c : Call) (deadline : Option Nat)
    (moment : Nat) : Prop where
  running : w.isCancelled = false
  inTime : ∀ d, deadline = some d → w.clock < d
  cancelled : (w.take P c).2.cancelledFrom = some moment
  notAtOnce : (w.take P c).1.latency ≠ some 0
  unanswered : ∀ delay, (w.take P c).1.latency = some delay → moment ≤ w.clock + delay
  first : ∀ d, deadline = some d → moment ≤ d

/-- Such a call is given up at that moment. -/
theorem Interrupts.answer {c : Call} {deadline : Option Nat} {moment : Nat}
    (h : w.Interrupts P c deadline moment) :
    ∃ w', w.answer P (.guarded c deadline) = some (.cancelled, w') ∧
      w'.clock = max w.clock moment ∧ w'.begun = w.begun ++ [c] := by
  obtain ⟨hclock, hbegun, -⟩ := take_spec P w c
  have hlate : comesBy deadline (some w.clock) = false := by
    rw [← Bool.not_eq_true, comesBy_iff]
    rintro ⟨d, hd, hle⟩
    exact absurd (h.inTime d hd) (Nat.not_lt.mpr (hle w.clock rfl))
  -- the cancellation comes before the answer and the deadline
  have hfirst : (comesBy (w.take P c).2.cancelledFrom
      ((w.take P c).1.latency.map ((w.take P c).2.clock + ·)) &&
        comesBy (w.take P c).2.cancelledFrom deadline) = true := by
    rw [Bool.and_eq_true, comesBy_iff, comesBy_iff]
    refine ⟨⟨moment, h.cancelled, fun y hy => ?_⟩, moment, h.cancelled, h.first⟩
    obtain ⟨delay, hdelay, rfl⟩ := Option.map_eq_some_iff.mp hy
    rw [hclock]
    exact h.unanswered delay hdelay
  refine ⟨(w.take P c).2.advance ((w.take P c).2.cancelledFrom.getD (w.take P c).2.clock), ?_, ?_,
    hbegun⟩
  · rw [World.answer, guarded, if_neg (by simp [h.running]), if_neg (by simp [hlate])]
    dsimp only
    rw [await, if_neg h.notAtOnce]
    dsimp only
    rw [if_pos hfirst]
  · rw [h.cancelled]
    show max (w.take P c).2.clock moment = _
    rw [hclock]

theorem Unfolds.refused {ts : Turns} (h : w.Unfolds P ts w') (hw : w.isCancelled = true) :
    ∀ t ∈ ts, t.1.isBreakable = true → isRefusal t = true := by
  induction h with
  | nil => exact fun t ht => nomatch ht
  | cancel moment _ ih => exact ih ((isBefore_cancelAt _ moment).isCancelled hw)
  | turn first _ ih =>
    refine List.forall_mem_cons.mpr ⟨fun hq => isRefusal_of_isCancelled hw hq first, ?_⟩
    exact ih ((answer_spec first).1.isCancelled hw)

theorem Unfolds.begun_eq {ts : Turns} (h : w.Unfolds P ts w') (hw : w.isCancelled = true)
    (hts : ∀ t ∈ ts, t.1.isThrough = false) : w'.begun = w.begun := by
  induction h with
  | nil => rfl
  | cancel moment _ ih => exact ih ((isBefore_cancelAt _ moment).isCancelled hw) hts
  | turn first _ ih =>
    obtain ⟨hq, hts⟩ := List.forall_mem_cons.mp hts
    rw [ih ((answer_spec first).1.isCancelled hw) hts, begun_of_isCancelled hw hq first]

end World

/-- How a session stops when its run is cancelled, whatever the plane `P` does: at most so many
resets are begun after that, and the results of which `C` is true are those of a cancellation. -/
structure StopsWhenCancelled (P : Plane σ) (C : α → Prop) (resets : Nat)
    (session : Session α) : Prop where
  /-- Once the run is cancelled, no calls are begun but resets. -/
  begun {us vs : Turns} {r : Option α} {w w₁ w' : World σ} (hled : session.Led (us ++ vs) r)
    (hbefore : w.Unfolds P us w₁) (hcancelled : w₁.isCancelled = true)
    (hafter : w₁.Unfolds P vs w') :
    ∃ k ≤ resets, w'.begun = w₁.begun ++ List.replicate k .reset
  /-- A call that has no answer yet when the run is cancelled is given up at that moment, and the
  session comes to its end without another call. -/
  pending {us : Turns} {c : Call} {deadline : Option Nat} {moment : Nat} {w w₁ : World σ}
    (hasked : session.Led (us ++ [⟨.guarded c deadline, .cancelled⟩]) none)
    (hbefore : w.Unfolds P us w₁) (hpending : w₁.Interrupts P c deadline moment) :
    ∃ w₂ vs a w', w₁.answer P (.guarded c deadline) = some (.cancelled, w₂) ∧
      w₂.clock = max w₁.clock moment ∧
        session.Led (us ++ ⟨.guarded c deadline, .cancelled⟩ :: vs) (some a) ∧ C a ∧
          w₂.Answers P vs w' ∧ w'.clock = w₂.clock ∧ w'.begun = w₁.begun ++ [c]
  /-- Whoever is refused an answer has no other result. -/
  refused {ts : Turns} {a : α} (hled : session.Led ts (some a)) (h : ∃ t ∈ ts, isRefusal t = true) :
    C a

namespace Dialogue

open World

/-- In a cancelled run, a session that heeds it begins nothing but resets. -/
theorem Heeds.begun {ts : Turns} {r : Option α} {w w' : World σ} (h : Heeds C n session)
    (hled : session.Led ts r) (hw : w.isCancelled = true) (hrun : w.Unfolds P ts w') :
    ∃ k ≤ n, w'.begun = w.begun ++ List.replicate k .reset := by
  induction hrun generalizing session n with
  | nil w => exact ⟨0, Nat.zero_le n, (List.append_nil _).symm⟩
  | cancel moment _ ih => exact ih h hled ((isBefore_cancelAt _ moment).isCancelled hw)
  | @turn _ _ _ _ a _ first _ ih =>
    cases hled with
    | turn _ hrest =>
      have hcancelled := (answer_spec first).1.isCancelled hw
      cases h with
      | asking hq refused rest =>
        obtain ⟨k, hk, hbegun⟩ := ih ((Heeds.asking hq refused rest).next a) hrest hcancelled
        exact ⟨k, hk, hbegun.trans (by rw [begun_of_isCancelled hw hq first])⟩
      -- a reset uses up one of those that are left
      | reset rest =>
        obtain ⟨k, hk, hbegun⟩ := ih (rest a) hrest hcancelled
        refine ⟨k + 1, Nat.succ_le_succ hk, hbegun.trans ?_⟩
        rw [(answer_spec first).2, List.append_assoc]
        rfl

/-- News are told at once, and need no calls. -/
theorem Closes.ends (h : Closes C session) (P : Plane σ) (w : World σ) :
    ∃ ts a w', session.Led ts (some a) ∧ C a ∧ w.Answers P ts w' ∧ w'.clock = w.clock ∧
      w'.begun = w.begun := by
  induction h generalizing w with
  | done ha => exact ⟨[], _, w, .ended _, ha, .nil w, rfl, rfl⟩
  | @report news next _ ih =>
    obtain ⟨ts, a, w', hled, ha, hanswers, hclock, hbegun⟩ := ih (w.record (.reported news))
    have hturn := Led.turn (A := Question.Answer) (q := .report news) () hled
    refine ⟨⟨.report news, ()⟩ :: ts, a, w', hturn, ha, .cons rfl hanswers, hclock, ?_⟩
    rw [hbegun, begun_record]
    exact List.append_nil _

theorem Heeds.stops (h : Heeds C n session) (P : Plane σ) : StopsWhenCancelled P C n session where
  begun hled hbefore hcancelled hafter := by
    obtain ⟨rest, hheeds, hled⟩ := h.rest hled
    exact hheeds.begun hled hcancelled hafter
  pending hasked hbefore hpending := by
    obtain ⟨w₂, hanswer, hclock, hbegun⟩ := hpending.answer
    obtain ⟨rest, hcloses, -, hon⟩ := h.closes rfl hasked
    obtain ⟨vs, a, w', hled, ha, hanswers, hclock', hbegun'⟩ := hcloses.ends P w₂
    exact ⟨w₂, vs, a, w', hanswer, hclock, hon _ _ hled, ha, hanswers, hclock',
      hbegun'.trans hbegun⟩
  refused hled hrefused := h.result hled hrefused

end Dialogue

end PlaneRestore
