import PlaneRestore.Proofs.Simulation.Clock
/-!
Work that comes to its end in a world.

* `Dialogue.runIn_of_led`: a session that is led to its end by the answers of a world is run to its
  end there, with the same result.
* `Work.Ends P w work m`: work that is begun in the world `w` with the memory `m` comes to its end.
  `Ends.bind` and `Ends.ask_bind` are the rules for it.
* `World.exists_answer_guarded`: who calls with a deadline does not wait for ever.
-/

namespace PlaneRestore

variable {σ α β : Type} {P : Plane σ}

theorem World.answers_append_iff {w w' : World σ} {us vs : Turns} :
    w.Answers P (us ++ vs) w' ↔ ∃ w₁, w.Answers P us w₁ ∧ w₁.Answers P vs w' := by
  constructor
  · intro h
    induction us generalizing w with
    | nil => exact ⟨w, .nil w, h⟩
    | cons t us ih =>
      cases h with
      | cons first rest =>
        obtain ⟨w₁, hus, hvs⟩ := ih rest
        exact ⟨w₁, .cons first hus, hvs⟩
  · rintro ⟨w₁, hus, hvs⟩
    induction hus with
    | nil w => exact hvs
    | cons first _ ih => exact .cons first (ih hvs)

theorem Dialogue.runIn_of_led {session : Session α} {w w' : World σ} {ts : Turns} {a : α}
    (hled : session.Led ts (some a)) (h : w.Answers P ts w') :
    session.runIn P w = some (a, w') := by
  induction session generalizing w ts with
  | done b =>
    cases hled
    cases h
    rfl
  | andThen q next ih =>
    cases hled with
    | turn b hrest =>
      cases h with
      | cons first rest =>
        show (w.answer P q).bind (fun r => Dialogue.runIn P (next r.1) r.2) = some (a, w')
        rw [first]
        exact ih b hrest rest

theorem Dialogue.runIn_bind (x : Session α) (f : α → Session β) (w : World σ) :
    (x >>= f).runIn P w = (x.runIn P w).bind fun p => (f p.1).runIn P p.2 := by
  rw [runIn, via_bind]
  rfl

/-- A call that is answered at once takes no time. -/
theorem World.answer_at_once {w : World σ} {c : Call} {deadline : Option Nat}
    {taken : Taken σ c.Answer} (htaken : P.take w.plane w.clock c = taken)
    (hlatency : taken.latency = some 0) (hcancels : taken.cancels = false)
    (hrunning : w.isCancelled = false) (hdeadline : ∀ d, deadline = some d → w.clock < d) :
    w.answer P (.guarded c deadline) = some (.answered (taken.answer taken.plane w.clock).1,
      { w.record (.called w.clock c) with plane := (taken.answer taken.plane w.clock).2 }) := by
  have hlate : comesBy deadline (some w.clock) = false := by
    rw [← Bool.not_eq_true, comesBy_iff]
    rintro ⟨d, hd, hle⟩
    exact absurd (hdeadline d hd) (Nat.not_lt.mpr (hle w.clock rfl))
  -- the plane is not cancelled by the call
  have htake : w.take P c
      = (taken, { w.record (.called w.clock c) with plane := taken.plane }) := by
    rw [take, htaken]
    dsimp only
    rw [hcancels]
    rfl
  rw [answer, guarded, if_neg (by simp [hrunning]), if_neg (by simp [hlate]), htake]
  dsimp only
  rw [await, if_pos hlatency]
  rfl

/-- If nobody cancels the run, a sleep ends at its moment. -/
theorem World.answer_sleepUntil {w : World σ} {moment : Nat} (hrunning : w.cancelledFrom = none)
    (hle : w.clock ≤ moment) :
    w.answer P (.sleepUntil moment) = some (some moment, { w with clock := moment }) := by
  have hmoment : max w.clock moment = moment := Nat.max_eq_right hle
  have hby : w.isCancelledBy moment = false := by rw [isCancelledBy, hrunning]
  rw [answer, sleepUntil]
  simp [hmoment, hby, advance]

/-- A call with a deadline is answered, or given up in the end. -/
theorem World.exists_answer_guarded (P : Plane σ) (w : World σ) (c : Call) (deadline : Nat) :
    ∃ p, w.answer P (.guarded c (some deadline)) = some p := by
  rw [answer, guarded]
  split
  · exact ⟨_, rfl⟩
  split
  · exact ⟨_, rfl⟩
  change ∃ p, (w.take P c).2.await (w.take P c).1 (some deadline) = some p
  rw [await]
  split
  · exact ⟨_, rfl⟩
  dsimp only
  split
  · exact ⟨_, rfl⟩
  split
  · exact ⟨_, rfl⟩
  next hnotLate =>
  split
  · exact ⟨_, rfl⟩
  · next hnever =>
    -- without an answer, the deadline comes first
    rw [hnever] at hnotLate
    exact absurd rfl hnotLate

namespace Work

variable {m : Memory} {w w₁ : World σ}

theorem runIn_ask_bind {q : Question} {a : q.Answer} {f : q.Answer → Work β}
    (h : w.answer P q = some (a, w₁)) : (ask q >>= f).runIn P m w = (f a).runIn P m w₁ := by
  show (w.answer P q).bind (fun r => ((f r.1).run.run m).runIn P r.2) = _
  rw [h]
  rfl

theorem runIn_bind_ok {x : Work α} {f : α → Work β} {a : α} {m₁ : Memory}
    (h : x.runIn P m w = some ((.ok a, m₁), w₁)) :
    (x >>= f).runIn P m w = (f a).runIn P m₁ w₁ := by
  have h : (x.run.run m).runIn P w = some ((.ok a, m₁), w₁) := h
  rw [runIn, Dialogue.run_bind, Dialogue.runIn_bind, h]
  rfl

/-- Work that is begun in a world comes to its end there. -/
def Ends (P : Plane σ) (w : World σ) (work : Work α) (m : Memory) : Prop :=
  ∃ ts p w', work.Led m ts (some p) ∧ w.Answers P ts w'

theorem Ends.pure (P : Plane σ) (w : World σ) (a : α) (m : Memory) :
    Ends P w (pure a : Work α) m :=
  ⟨[], (.ok a, m), w, .ended _, .nil w⟩

theorem Ends.throw (P : Plane σ) (w : World σ) (e : ImportError) (m : Memory) :
    Ends P w (throw e : Work α) m :=
  ⟨[], (.error e, m), w, .ended _, .nil w⟩

theorem Ends.bind {x : Work α} {f : α → Work β} (hx : Ends P w x m)
    (hf : ∀ a m' w', Ends P w' (f a) m') : Ends P w (x >>= f) m := by
  obtain ⟨us, ⟨e | a, m₁⟩, w₁, hled, hanswers⟩ := hx
  · exact ⟨us, (.error e, m₁), w₁, led_bind_iff.mpr (.inr (.inl ⟨e, m₁, rfl, hled⟩)), hanswers⟩
  · obtain ⟨vs, p, w', hled', hanswers'⟩ := hf a m₁ w₁
    exact ⟨us ++ vs, p, w', led_bind_iff.mpr (.inr (.inr ⟨a, m₁, us, vs, rfl, hled, hled'⟩)),
      World.answers_append_iff.mpr ⟨w₁, hanswers, hanswers'⟩⟩

theorem Ends.ask_bind {q : Question} {a : q.Answer} {f : q.Answer → Work β}
    (h : w.answer P q = some (a, w₁)) (hf : Ends P w₁ (f a) m) : Ends P w (ask q >>= f) m := by
  obtain ⟨ts, p, w', hled, hanswers⟩ := hf
  exact ⟨⟨q, a⟩ :: ts, p, w', led_ask_bind_iff.mpr (.inr ⟨a, ts, rfl, hled⟩), .cons h hanswers⟩

end Work

end PlaneRestore
