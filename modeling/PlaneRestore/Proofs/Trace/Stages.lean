import PlaneRestore.Proofs.Trace.Work
/-!
The make of work that is done in steps.

* `Work.IsErrand`: work that asks what may be asked inside a step, and fails as cancelled when it is
  refused an answer.
* `Work.IsPhased`: errands one after another, each of which names its phase when it fails.
* `Work.IsStaged resets`: steps one after another, each around phased work, with so many calls in
  between that nothing can break off.

What is true of all work of such a make is proved by induction on these; that some work is of it is
found by going along its text.
-/

namespace PlaneRestore

/-- Whether a question was not answered because the run is cancelled. -/
def isRefusal : Dialogue.Turn Question Question.Answer → Bool
  | ⟨.guarded _ _, .cancelled⟩ => true
  | ⟨.sleepUntil _, none⟩ => true
  | _ => false

/-- Whether a question may be asked inside a step: neither does it begin or end one, nor is it a
call that cannot be broken off. -/
def Question.isInner : Question → Bool
  | .call _ => false
  | .report (.update _) => true
  | .report _ => false
  | .guarded _ _ | .now | .sleepUntil _ | .extract _ => true

namespace Work

variable {α β : Type}

/-- Work that fails as cancelled when it is refused an answer. -/
inductive IsErrand : {α : Type} → Work α → Prop
  | pure {α : Type} (a : α) : IsErrand (pure a)
  | throw {α : Type} (e : ImportError) : IsErrand (throw e : Work α)
  | bind {α β : Type} {x : Work α} {f : α → Work β} (hx : IsErrand x) (hf : ∀ a, IsErrand (f a)) :
      IsErrand (x >>= f)
  | get : IsErrand (MonadState.get : Work Memory)
  | modify (change : Memory → Memory) : IsErrand (modify change : Work PUnit)
  | wrapping {α : Type} {x : Work α} (outer : ImportError → ImportError) (hx : IsErrand x) :
      IsErrand (x.wrapping (ImportError.wrap outer))
  | asking {β : Type} {q : Question} {f : q.Answer → Work β} (hq : q.isInner = true)
      (refused : ∀ a, isRefusal ⟨q, a⟩ = true → f a = MonadExcept.throw .cancelled)
      (hf : ∀ a, isRefusal ⟨q, a⟩ = false → IsErrand (f a)) : IsErrand (ask q >>= f)

/-- Work whose errors name the phase in which they arose. -/
inductive IsPhased : {α : Type} → Work α → Prop
  | pure {α : Type} (a : α) : IsPhased (pure a)
  | bind {α β : Type} {x : Work α} {f : α → Work β} (hx : IsPhased x) (hf : ∀ a, IsPhased (f a)) :
      IsPhased (x >>= f)
  | phase {α : Type} {x : Work α} (context : String) (hx : IsErrand x) :
      IsPhased (x.inPhase context)

/-- Work that is done in steps, with so many resets in between. -/
inductive IsStaged : {α : Type} → Nat → Work α → Prop
  | pure {α : Type} (a : α) : IsStaged 0 (pure a)
  | bind {α β : Type} {x : Work α} {f : α → Work β} {k n : Nat} (hx : IsStaged k x)
      (hf : ∀ a, IsStaged n (f a)) : IsStaged (k + n) (x >>= f)
  | modify (change : Memory → Memory) : IsStaged 0 (modify change : Work PUnit)
  | reset : IsStaged 1 (ask (.call .reset))
  | step {α : Type} {x : Work α} (title opening : String) (closing : α → String)
      (hx : IsPhased x) : IsStaged 0 (x.step title opening closing)

/-- A question that cannot be refused. -/
theorem IsErrand.ask {q : Question} (hq : q.isInner = true)
    (h : ∀ a, isRefusal ⟨q, a⟩ = false) : IsErrand (ask q) := by
  rw [← bind_pure (Work.ask q)]
  exact .asking hq (fun a ha => by simp [h a] at ha) fun a _ => .pure a

theorem IsErrand.update (text : String) : IsErrand (report (.update text)) := .ask rfl fun _ => rfl

/-! ### Loops -/

theorem IsErrand.mapM {f : α → Work β} (h : ∀ a, IsErrand (f a)) (as : List α) :
    IsErrand (as.mapM f) := by
  induction as with
  | nil =>
    rw [List.mapM_nil]
    exact .pure []
  | cons a as ih =>
    rw [List.mapM_cons]
    exact (h a).bind fun b => ih.bind fun bs => .pure (b :: bs)

theorem IsErrand.forM {f : α → Work PUnit} (h : ∀ a, IsErrand (f a)) (as : List α) :
    IsErrand (as.forM f) := by
  induction as with
  | nil => exact .pure PUnit.unit
  | cons a as ih => exact (h a).bind fun _ => ih

theorem IsPhased.forM {f : α → Work PUnit} (h : ∀ a, IsPhased (f a)) (as : List α) :
    IsPhased (as.forM f) := by
  induction as with
  | nil => exact .pure PUnit.unit
  | cons a as ih => exact (h a).bind fun _ => ih

end Work

end PlaneRestore
