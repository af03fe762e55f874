import PlaneRestore.Proofs.Simulation.Run
import PlaneRestore.Proofs.Trace.Heed
/-!
Time and cancellation in a world.

* `World.IsBefore w w'`: neither has time gone back nor a cancellation been taken back.
* `World.begun` lists the calls that a plane has been given.
* `World.Awaited` says how a guarded call may end, and when; `World.awaited_of_await` that it ends
  so.
* `World.Unfolds P w ts w'`: the questions of the turns are answered, as in `World.Answers`, while
  somebody may cancel the run, between two questions or for any moment to come.
-/

namespace PlaneRestore

variable {σ α : Type} {P : Plane σ}

/-- The call that was begun, if any. -/
def Event.call? : Event → Option Call
  | .called _ c => some c
  | .reported _ | .extracted _ => none

namespace World

variable {w w₁ w₂ w' : World σ} {c : Call} {ts us : Turns}

/-- The calls that the plane has been given. -/
def begun (w : World σ) : List Call := w.events.toList.filterMap Event.call?

/-- Neither time nor the cancellation has been turned back. -/
structure IsBefore (w w' : World σ) : Prop where
  clock : w.clock ≤ w'.clock
  cancelled : ∀ t, w.cancelledFrom = some t → ∃ t' ≤ t, w'.cancelledFrom = some t'

theorem IsBefore.refl (w : World σ) : w.IsBefore w := ⟨le_rfl, fun t ht => ⟨t, le_rfl, ht⟩⟩

theorem IsBefore.trans (h : w.IsBefore w₁) (h' : w₁.IsBefore w') : w.IsBefore w' := by
  refine ⟨h.clock.trans h'.clock, fun t ht => ?_⟩
  obtain ⟨t₁, hle₁, ht₁⟩ := h.cancelled t ht
  obtain ⟨t₂, hle₂, ht₂⟩ := h'.cancelled t₁ ht₁
  exact ⟨t₂, hle₂.trans hle₁, ht₂⟩

theorem isCancelledBy_iff {moment : Nat} :
    w.isCancelledBy moment = true ↔ ∃ t, w.cancelledFrom = some t ∧ t ≤ moment := by
  rw [isCancelledBy]
  cases w.cancelledFrom <;> simp

theorem isCancelled_iff : w.isCancelled = true ↔ ∃ t, w.cancelledFrom = some t ∧ t ≤ w.clock :=
  isCancelledBy_iff

theorem IsBefore.isCancelled (h : w.IsBefore w') (hw : w.isCancelled = true) :
    w'.isCancelled = true := by
  obtain ⟨t, ht, hle⟩ := isCancelled_iff.mp hw
  obtain ⟨t', hle', ht'⟩ := h.cancelled t ht
  exact isCancelled_iff.mpr ⟨t', ht', (hle'.trans hle).trans h.clock⟩

/-! ### Calls -/

theorem begun_record (w : World σ) (e : Event) :
    (w.record e).begun = w.begun ++ e.call?.toList := by
  rw [begun, begun, record, Array.toList_push, List.filterMap_append]
  cases e <;> rfl

/-- A call that is taken in takes no time. -/
theorem take_spec (P : Plane σ) (w : World σ) (c : Call) :
    (w.take P c).2.clock = w.clock ∧ (w.take P c).2.begun = w.begun ++ [c] ∧
      w.IsBefore (w.take P c).2 := by
  have hbegun : (w.record (.called w.clock c)).begun = w.begun ++ [c] := begun_record w _
  rw [take]
  dsimp only
  split
  · refine ⟨rfl, hbegun, le_rfl, fun t ht => ⟨t.min w.clock, Nat.min_le_left _ _, ?_⟩⟩
    show some ((w.cancelledFrom.getD w.clock).min w.clock) = _
    rw [ht]
    rfl
  · exact ⟨rfl, hbegun, le_rfl, fun t ht => ⟨t, le_rfl, ht⟩⟩

theorem comesBy_iff {a b : Option Nat} :
    comesBy a b = true ↔ ∃ x, a = some x ∧ ∀ y, b = some y → x ≤ y := by
  cases a <;> cases b <;> simp [comesBy]

/-- How a call that has been taken in may end for who waits for it, and when: it is answered at
once, or what comes first of its answer, the cancellation and the deadline. -/
inductive Awaited (w : World σ) (latency deadline : Option Nat) : Reply α → Nat → Prop
  | atOnce (a : α) (h : latency = some 0) : Awaited w latency deadline (.answered a) w.clock
  | answered (a : α) {delay : Nat} (h : latency = some delay)
      (hcancelled : ∀ t, w.cancelledFrom = some t → w.clock + delay < t)
      (hdeadline : ∀ d, deadline = some d → w.clock + delay < d) :
      Awaited w latency deadline (.answered a) (w.clock + delay)
  | cancelled {t : Nat} (h : w.cancelledFrom = some t) (hpending : latency ≠ some 0)
      (hanswer : ∀ delay, latency = some delay → t ≤ w.clock + delay)
      (hdeadline : ∀ d, deadline = some d → t ≤ d) :
      Awaited w latency deadline .cancelled (max w.clock t)
  | late {d : Nat} (h : deadline = some d) (hcancelled : ∀ t, w.cancelledFrom = some t → d < t)
      (hanswer : ∀ delay, latency = some delay → d ≤ w.clock + delay) :
      Awaited w latency deadline .late (max w.clock d)

theorem awaited_of_await {taken : Taken σ α} {deadline : Option Nat} {reply : Reply α}
    (h : w.await taken deadline = some (reply, w')) :
    w'.cancelledFrom = w.cancelledFrom ∧ w'.events = w.events ∧
      Awaited w taken.latency deadline reply w'.clock := by
  rw [await] at h
  split at h
  · next hlatency =>
    cases h
    exact ⟨rfl, rfl, .atOnce _ hlatency⟩
  next hpending =>
  -- the moment at which the call is answered, if it ever is
  have hdue : ∀ {moment : Nat}, (∀ y, taken.latency.map (w.clock + ·) = some y → moment ≤ y) →
      ∀ delay, taken.latency = some delay → moment ≤ w.clock + delay := by
    intro moment hle delay hdelay
    exact hle _ (by rw [hdelay]; rfl)
  dsimp only at h
  split at h
  · next hfirst =>
    rw [Bool.and_eq_true, comesBy_iff, comesBy_iff] at hfirst
    obtain ⟨⟨t, ht, hanswer⟩, t', ht', hdeadline⟩ := hfirst
    obtain rfl : t = t' := Option.some.inj (ht.symm.trans ht')
    cases h
    refine ⟨rfl, rfl, ?_⟩
    rw [ht]
    exact .cancelled ht hpending (hdue hanswer) hdeadline
  next hnot =>
  -- otherwise the cancellation would have come first
  have hcancelled : ∀ t, w.cancelledFrom = some t → ∀ x,
      (∀ y, taken.latency.map (w.clock + ·) = some y → x ≤ y) →
        (∀ y, deadline = some y → x ≤ y) → x < t := by
    intro t ht x hanswer hdeadline
    by_contra hle
    refine hnot ?_
    rw [Bool.and_eq_true, comesBy_iff, comesBy_iff]
    exact ⟨⟨t, ht, fun y hy => (Nat.not_lt.mp hle).trans (hanswer y hy)⟩, t, ht,
      fun y hy => (Nat.not_lt.mp hle).trans (hdeadline y hy)⟩
  split at h
  · next hlate =>
    obtain ⟨d, rfl, hanswer⟩ := comesBy_iff.mp hlate
    cases h
    refine ⟨rfl, rfl, .late rfl (fun t ht => hcancelled t ht d hanswer ?_) (hdue hanswer)⟩
    rintro _ ⟨⟩
    exact le_rfl
  next hnotLate =>
  split at h
  · next moment hmoment =>
    cases h
    obtain ⟨delay, hdelay, rfl⟩ := Option.map_eq_some_iff.mp hmoment
    have hdeadline : ∀ d, deadline = some d → w.clock + delay < d := by
      rintro d rfl
      rw [hmoment] at hnotLate
      simpa [comesBy] using hnotLate
    have hclock : max w.clock (w.clock + delay) = w.clock + delay := by omega
    refine ⟨rfl, rfl, ?_⟩
    show Awaited w taken.latency deadline _ (max w.clock (w.clock + delay))
    rw [hclock]
    refine .answered _ hdelay (fun t ht => hcancelled t ht _ ?_ fun d hd => (hdeadline d hd).le)
      hdeadline
    intro y hy
    exact (Option.some.inj (hmoment.symm.trans hy)).le
  · cases h

/-- A guarded call is not begun if it would be given up at once. -/
theorem guarded_cases {deadline : Option Nat} {reply : Reply c.Answer}
    (h : w.answer P (.guarded c deadline) = some (reply, w')) :
    (w.isCancelled = true ∧ reply = .cancelled ∧ w' = w) ∨
      w.isCancelled = false ∧
        ((∃ d, deadline = some d ∧ d ≤ w.clock) ∧ reply = .late ∧ w' = w ∨
          (∀ d, deadline = some d → w.clock < d) ∧
            w'.cancelledFrom = (w.take P c).2.cancelledFrom ∧ w'.begun = w.begun ++ [c] ∧
              Awaited (w.take P c).2 (w.take P c).1.latency deadline reply w'.clock) := by
  rw [answer, guarded] at h
  split at h
  · next hcancelled =>
    cases h
    exact .inl ⟨hcancelled, rfl, rfl⟩
  next hcancelled =>
  refine .inr ⟨by simpa using hcancelled, ?_⟩
  split at h
  · next hlate =>
    obtain ⟨d, hd, hle⟩ := comesBy_iff.mp hlate
    cases h
    exact .inl ⟨⟨d, hd, hle w.clock rfl⟩, rfl, rfl⟩
  next hlate =>
  -- otherwise the plane takes the call, which is begun by this
  change (w.take P c).2.await (w.take P c).1 deadline = _ at h
  obtain ⟨-, hbegun, -⟩ := take_spec P w c
  obtain ⟨hfrom, hevents, hawaited⟩ := awaited_of_await h
  refine .inr ⟨?_, hfrom, ?_, hawaited⟩
  · rintro d rfl
    simpa [comesBy] using hlate
  · rw [← hbegun, World.begun, World.begun, hevents]

theorem isBefore_advance (w : World σ) (moment : Nat) : w.IsBefore (w.advance moment) :=
  ⟨Nat.le_max_left _ _, fun t ht => ⟨t, le_rfl, ht⟩⟩

theorem isBefore_record (w : World σ) (e : Event) : w.IsBefore (w.record e) :=
  ⟨le_rfl, fun t ht => ⟨t, le_rfl, ht⟩⟩

theorem Awaited.clock_le {latency deadline : Option Nat} {reply : Reply α} {clock : Nat}
    (h : Awaited w latency deadline reply clock) : w.clock ≤ clock := by
  cases h with
  | atOnce => exact le_rfl
  | answered => exact Nat.le_add_right _ _
  | cancelled | late => exact Nat.le_max_left _ _

/-- The calls that a question begins. -/
def beginning (w : World σ) : Question → List Call
  | .call c => [c]
  | .guarded c deadline =>
    if w.isCancelled ∨ comesBy deadline (some w.clock) then [] else [c]
  | .now | .sleepUntil _ | .report _ | .extract _ => []

/-- An answer turns nothing back, and begins no more calls than are asked for. -/
theorem answer_spec {q : Question} {a : q.Answer} (h : w.answer P q = some (a, w')) :
    w.IsBefore w' ∧ w'.begun = w.begun ++ w.beginning q := by
  cases q with
  | now =>
    cases h
    exact ⟨.refl w, (List.append_nil _).symm⟩
  | report news =>
    cases h
    exact ⟨isBefore_record w _, begun_record w _⟩
  | extract path =>
    cases h
    exact ⟨isBefore_record w _, begun_record w _⟩
  | sleepUntil moment =>
    simp only [answer, sleepUntil, Option.some.injEq] at h
    split at h <;>
    · cases h
      exact ⟨isBefore_advance w _, (List.append_nil _).symm⟩
  | call c =>
    rw [answer, call] at h
    obtain ⟨-, hbegun, hbefore⟩ := take_spec P w c
    generalize w.take P c = begun at hbegun hbefore h
    obtain ⟨taken, w₁⟩ := begun
    dsimp only at h
    split at h
    · cases h
      exact ⟨hbefore.trans ⟨Nat.le_max_left _ _, fun t ht => ⟨t, le_rfl, ht⟩⟩, hbegun⟩
    · cases h
  | guarded c deadline =>
    rw [beginning]
    rcases guarded_cases h with ⟨hcancelled, -, rfl⟩ | ⟨hcancelled, ⟨⟨d, rfl, hd⟩, -, rfl⟩ | hbegun⟩
    · simp [hcancelled, IsBefore.refl]
    · simp [comesBy, hd, IsBefore.refl]
    · obtain ⟨hearly, hfrom, hbegun, hawaited⟩ := hbegun
      obtain ⟨hclock, -, hbefore⟩ := take_spec P w c
      -- the call was begun, so it was neither cancelled nor late before
      have hnot : ¬(w.isCancelled = true ∨ comesBy deadline (some w.clock) = true) := by
        rw [hcancelled, comesBy_iff]
        rintro (h | ⟨d, hd, hle⟩)
        · cases h
        · exact absurd (hearly d hd) (Nat.not_lt.mpr (hle w.clock rfl))
      rw [if_neg hnot]
      exact ⟨hbefore.trans ⟨hawaited.clock_le, fun t ht => ⟨t, le_rfl, hfrom.trans ht⟩⟩, hbegun⟩

/-- In a world in which the run is cancelled, who can be refused an answer is. -/
theorem isRefusal_of_isCancelled {q : Question} {a : q.Answer} (hw : w.isCancelled = true)
    (hq : q.isBreakable = true) (h : w.answer P q = some (a, w')) : isRefusal ⟨q, a⟩ = true := by
  cases q with
  | call | now | report | extract => cases hq
  | guarded c deadline =>
    rw [answer, guarded, if_pos hw] at h
    cases h
    rfl
  | sleepUntil moment =>
    have hby : w.isCancelledBy (max w.clock moment) = true := by
      obtain ⟨t, ht, hle⟩ := isCancelled_iff.mp hw
      exact isCancelledBy_iff.mpr ⟨t, ht, hle.trans (Nat.le_max_left _ _)⟩
    simp only [answer, sleepUntil, hby, if_true, Option.some.injEq] at h
    cases h
    rfl

theorem begun_of_isCancelled {q : Question} {a : q.Answer} (hw : w.isCancelled = true)
    (hq : q.isThrough = false) (h : w.answer P q = some (a, w')) : w'.begun = w.begun := by
  rw [(answer_spec h).2]
  cases q <;> simp_all [beginning, Question.isThrough]

/-! ### At which moment -/

/-- Nothing has happened since the run was cancelled. -/
def OnTime (w : World σ) : Prop := ∀ t, w.cancelledFrom = some t → w.clock ≤ t

theorem onTime_of_not_isCancelled (h : w.isCancelled = false) : w.OnTime := by
  intro t ht
  by_contra hlt
  have := isCancelled_iff.mpr ⟨t, ht, (Nat.not_le.mp hlt).le⟩
  rw [h] at this
  cases this

theorem OnTime.take (h : w.OnTime) (P : Plane σ) (c : Call) : (w.take P c).2.OnTime := by
  rw [World.take]
  dsimp only
  split
  · intro t ht
    have hfrom : (w.cancelledFrom.getD w.clock).min w.clock = t := Option.some.inj ht
    rw [← hfrom]
    refine Nat.le_min.mpr ⟨?_, le_rfl⟩
    cases hw : w.cancelledFrom with
    | none => exact le_rfl
    | some t' => exact h t' hw
  · exact h

/-- A sleep ends at its moment, or when the run is cancelled. -/
theorem sleepUntil_cases {moment : Nat} {reply : Option Nat}
    (h : w.answer P (.sleepUntil moment) = some (reply, w')) :
    w'.cancelledFrom = w.cancelledFrom ∧
      ((reply = none ∧ ∃ t ≤ max w.clock moment, w.cancelledFrom = some t ∧
          w'.clock = max w.clock t) ∨
        (reply = some w'.clock ∧ w'.clock = max w.clock moment ∧ w'.isCancelled = false)) := by
  simp only [answer, sleepUntil, Option.some.injEq] at h
  split at h
  · next hby =>
    obtain ⟨t, ht, hle⟩ := isCancelledBy_iff.mp hby
    cases h
    exact ⟨rfl, .inl ⟨rfl, t, hle, ht, by rw [ht]; rfl⟩⟩
  · next hby =>
    cases h
    -- the run is not cancelled by that moment, to which the clock is set
    have hclock : (w.advance (max w.clock moment)).clock = max w.clock moment := by
      simp [advance]
    refine ⟨rfl, .inr ⟨congrArg some hclock.symm, hclock, ?_⟩⟩
    rw [isCancelled, hclock]
    exact Bool.not_eq_true _ ▸ hby

/-- How a guarded call with a deadline ends, and when. -/
theorem guarded_clock {d : Nat} {reply : Reply c.Answer} (hw : w.OnTime)
    (h : w.answer P (.guarded c (some d)) = some (reply, w')) :
    w'.OnTime ∧ match reply with
      | .cancelled => w'.cancelledFrom = some w'.clock ∧ w'.clock ≤ max w.clock d
      | .late => w'.isCancelled = false ∧ w'.clock = max w.clock d
      | .answered _ => w'.clock < d := by
  rcases guarded_cases h with
    ⟨hcancelled, rfl, rfl⟩ | ⟨hcancelled, ⟨⟨d', hd, hle⟩, rfl, rfl⟩ | hbegun⟩
  · obtain ⟨t, ht, hle⟩ := isCancelled_iff.mp hcancelled
    obtain rfl := Nat.le_antisymm (hw t ht) hle
    exact ⟨hw, ht, Nat.le_max_left _ _⟩
  · cases hd
    exact ⟨hw, hcancelled, (Nat.max_eq_left hle).symm⟩
  · obtain ⟨hearly, hfrom, -, hawaited⟩ := hbegun
    obtain ⟨hclock, -⟩ := take_spec P w c
    have htaken := hw.take P c
    have hd := hearly d rfl
    -- the call has not brought a cancellation forward
    have hcancelled' : ∀ t, w'.cancelledFrom = some t → (w.take P c).2.cancelledFrom = some t :=
      fun t ht => hfrom.symm.trans ht
    generalize hend : w'.clock = clock at hawaited
    cases hawaited with
    | atOnce a hlatency =>
      refine ⟨fun t ht => hend ▸ htaken t (hcancelled' t ht), ?_⟩
      omega
    | answered a hlatency hnot hdeadline =>
      exact ⟨fun t ht => hend ▸ (hnot t (hcancelled' t ht)).le, hdeadline d rfl⟩
    | cancelled ht hpending hanswer hdeadline =>
      have hmax := Nat.max_eq_right (htaken _ ht)
      rw [hmax] at hend ⊢
      refine ⟨fun t' ht' => ?_, hfrom.trans ht, (hdeadline d rfl).trans (Nat.le_max_right _ _)⟩
      obtain rfl := Option.some.inj (ht.symm.trans (hcancelled' t' ht'))
      exact hend.le
    | late hd' hnot hanswer =>
      cases hd'
      have hmax : max (w.take P c).2.clock d = d := by omega
      rw [hmax] at hend ⊢
      have hlater : ∀ t, w'.cancelledFrom = some t → d < t := fun t ht => hnot t (hcancelled' t ht)
      refine ⟨fun t ht => hend ▸ (hlater t ht).le, ?_, by omega⟩
      rw [← Bool.not_eq_true, isCancelled_iff]
      rintro ⟨t, ht, hle⟩
      exact absurd (hlater t ht) (Nat.not_lt.mpr (hend ▸ hle))

/-- A call that is answered is answered in time. -/
theorem onTime_of_answered {deadline : Option Nat} {a : c.Answer}
    (h : w.answer P (.guarded c deadline) = some (.answered a, w')) : w'.OnTime := by
  rcases guarded_cases h with ⟨-, hr, -⟩ | ⟨hcancelled, ⟨-, hr, -⟩ | ⟨-, hfrom, -, hawaited⟩⟩
  · cases hr
  · cases hr
  · have htaken := (onTime_of_not_isCancelled hcancelled).take P c
    intro t ht
    have ht' := hfrom.symm.trans ht
    generalize hend : w'.clock = clock at hawaited
    cases hawaited with
    | atOnce a hlatency => exact htaken t ht'
    | answered a hlatency hnot hdeadline => exact (hnot t ht').le

/-- A call is answered if the answer comes before the deadline and before any cancellation. -/
theorem answered_of_inTime {deadline : Option Nat} {reply : Reply c.Answer} {delay : Nat}
    (h : w.answer P (.guarded c deadline) = some (reply, w')) (hrunning : w.isCancelled = false)
    (hlatency : (w.take P c).1.latency = some delay)
    (hdeadline : ∀ d, deadline = some d → w.clock + delay < d)
    (hcancelled : ∀ t, (w.take P c).2.cancelledFrom = some t → w.clock + delay < t) :
    ∃ a, reply = .answered a := by
  rcases guarded_cases h with ⟨hw, -, -⟩ | ⟨-, ⟨⟨d, hd, hle⟩, -, -⟩ | ⟨-, -, -, hawaited⟩⟩
  · rw [hrunning] at hw
    cases hw
  · have := hdeadline d hd
    omega
  · obtain ⟨hclock, -⟩ := take_spec P w c
    cases reply with
    | answered a => exact ⟨a, rfl⟩
    -- a cancellation would have come before the answer, and so would the deadline
    | cancelled =>
      generalize w'.clock = clock at hawaited
      cases hawaited with
      | cancelled ht hpending hanswer hfirst =>
        have hle := hanswer delay hlatency
        have hlt := hcancelled _ ht
        omega
    | late =>
      generalize w'.clock = clock at hawaited
      cases hawaited with
      | late hd hnot hanswer =>
        have hle := hanswer delay hlatency
        have hlt := hdeadline _ hd
        omega

/-! ### Cancellations from outside -/

/-- The run is going to be cancelled at a moment that has not passed, unless it is before that. -/
def cancelAt (w : World σ) (moment : Nat) : World σ :=
  let moment := max w.clock moment
  { w with cancelledFrom := some ((w.cancelledFrom.getD moment).min moment) }

theorem isBefore_cancelAt (w : World σ) (moment : Nat) : w.IsBefore (w.cancelAt moment) := by
  refine ⟨le_rfl, fun t ht => ⟨t.min (max w.clock moment), Nat.min_le_left _ _, ?_⟩⟩
  rw [cancelAt, ht]
  rfl

/-- The questions of some turns are answered in a world. Between any two of them somebody may
cancel the run, at once or for a moment to come. -/
inductive Unfolds (P : Plane σ) : World σ → Turns → World σ → Prop
  | nil (w : World σ) : Unfolds P w [] w
  | turn {w w₁ w' : World σ} {q : Question} {a : q.Answer} {ts : Turns}
      (first : w.answer P q = some (a, w₁)) (rest : Unfolds P w₁ ts w') :
      Unfolds P w (⟨q, a⟩ :: ts) w'
  | cancel {w w' : World σ} {ts : Turns} (moment : Nat)
      (rest : Unfolds P (w.cancelAt moment) ts w') : Unfolds P w ts w'

theorem Answers.unfolds (h : w.Answers P ts w') : w.Unfolds P ts w' := by
  induction h with
  | nil w => exact .nil w
  | cons first _ ih => exact .turn first ih

end World

end PlaneRestore
