import PlaneRestore.Dialogue
/-!
Dialogues played with someone who answers at once.

`Dialogue.play` lists the turns of a dialogue whose questions are answered by a function, and its
result; `Dialogue.led_play` says that the dialogue is led for these turns. If there is an answer to
every question, `Dialogue.Led.completed` leads a dialogue that was broken off to its end.
-/

namespace PlaneRestore.Dialogue

variable {Q : Type} {A : Q → Type} {σ α : Type}

/-- The turns and the result of a dialogue. Who answers has a state, which may change. -/
def play (answer : (q : Q) → σ → A q × σ) : Dialogue Q A α → σ → List (Turn Q A) × α
  | done a, _ => ([], a)
  | andThen q next, state =>
    let (a, state) := answer q state
    let (turns, result) := (next a).play answer state
    (⟨q, a⟩ :: turns, result)

theorem led_play (answer : (q : Q) → σ → A q × σ) (x : Dialogue Q A α) (state : σ) :
    x.Led (x.play answer state).1 (some (x.play answer state).2) := by
  induction x generalizing state with
  | done a => exact .ended a
  | andThen q next ih => exact .turn _ (ih _ _)

/-- Who has no state answers the same question in the same way every time. -/
theorem eq_of_mem_play (answer : (q : Q) → A q) (x : Dialogue Q A α) :
    ∀ t ∈ (x.play (fun q state => (answer q, state)) ()).1, t.2 = answer t.1 := by
  induction x with
  | done a => nofun
  | andThen q next ih =>
    intro t ht
    rcases List.mem_cons.mp ht with rfl | ht
    · rfl
    · exact ih (answer q) t ht

/-- What is made of a result asks nothing more. -/
theorem play_bind_done {β : Type} (answer : (q : Q) → σ → A q × σ) (x : Dialogue Q A α)
    (f : α → β) (state : σ) : (x >>= fun a => done (f a)).play answer state
      = ((x.play answer state).1, f (x.play answer state).2) := by
  induction x generalizing state with
  | done a => rfl
  | andThen q next ih => simp only [andThen_bind, play, ih]

/-- Wherever a dialogue was broken off, it can be led on to its end. -/
theorem Led.completed [∀ q, Inhabited (A q)] {x : Dialogue Q A α} {ts : List (Turn Q A)}
    {r : Option α} (h : Led x ts r) :
    ∃ us a, Led x (ts ++ us) (some a) ∧ ∀ b, r = some b → us = [] ∧ b = a := by
  induction h with
  | ended a => exact ⟨[], a, .ended a, by simp⟩
  | brokenOff x => exact ⟨_, _, led_play (fun _ _ => (default, ())) x (), nofun⟩
  | turn a _ ih =>
    obtain ⟨us, b, hled, hend⟩ := ih
    exact ⟨us, b, .turn a hled, hend⟩

end PlaneRestore.Dialogue
