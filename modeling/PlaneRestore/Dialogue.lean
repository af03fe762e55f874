/-!
Dialogues: computations that ask questions and go on with the answers.

A dialogue says nothing about how its questions are answered. The same one is led with a cluster
behind a network and with a plane in memory, and what holds for every answer is a statement about
the dialogue alone.

* `Dialogue` is a lawful monad; `Dialogue.ask` asks one question.
* `Dialogue.via` leads a dialogue in any monad that answers its questions; `via_bind` says that
  the parts of a dialogue are led one after another.
* `Dialogue.Led` relates a dialogue to the questions that it asks and the answers that it gets, as
  far as it is led; `led_bind_iff` cuts this at a bind.
-/

namespace PlaneRestore

/-- A computation that asks questions in `Q`; the answers to `q` are in `A q`. -/
inductive Dialogue (Q : Type) (A : Q → Type) (α : Type) : Type where
  | done (a : α)
  | andThen (q : Q) (next : A q → Dialogue Q A α)

namespace Dialogue

variable {Q : Type} {A : Q → Type} {α β γ : Type}

/-- Goes on with the result. -/
def bind : Dialogue Q A α → (α → Dialogue Q A β) → Dialogue Q A β
  | done a, f => f a
  | andThen q next, f => andThen q fun a => (next a).bind f

instance : Monad (Dialogue Q A) where
  pure := done
  bind := bind

/-- Asks one question. -/
def ask (q : Q) : Dialogue Q A (A q) := andThen q done

@[simp]
theorem done_bind (a : α) (f : α → Dialogue Q A β) : (done a : Dialogue Q A α) >>= f = f a := rfl

@[simp]
theorem andThen_bind (q : Q) (next : A q → Dialogue Q A α) (f : α → Dialogue Q A β) :
    andThen q next >>= f = andThen q fun a => next a >>= f := rfl

@[simp]
theorem pure_eq_done (a : α) : (pure a : Dialogue Q A α) = done a := rfl

private theorem bind_done (x : Dialogue Q A α) : x >>= done = x := by
  induction x with
  | done a => rfl
  | andThen q next ih => simp [ih]

private theorem bind_bind (x : Dialogue Q A α) (f : α → Dialogue Q A β)
    (g : β → Dialogue Q A γ) : x >>= f >>= g = x >>= fun a => f a >>= g := by
  induction x with
  | done a => rfl
  | andThen q next ih => simp [ih]

instance : LawfulMonad (Dialogue Q A) :=
  LawfulMonad.mk' (Dialogue Q A) (fun x => bind_done x) (fun _ _ => rfl) bind_bind

/-- Leads a dialogue: every question is answered in `m`. -/
def via {m : Type → Type} [Monad m] (answer : (q : Q) → m (A q)) : Dialogue Q A α → m α
  | done a => pure a
  | andThen q next => answer q >>= fun a => (next a).via answer

section

variable {m : Type → Type} [Monad m] (answer : (q : Q) → m (A q))

@[simp]
theorem via_done (a : α) : (done a : Dialogue Q A α).via answer = pure a := rfl

@[simp]
theorem via_andThen (q : Q) (next : A q → Dialogue Q A α) :
    (andThen q next).via answer = answer q >>= fun a => (next a).via answer := rfl

theorem via_bind [LawfulMonad m] (x : Dialogue Q A α) (f : α → Dialogue Q A β) :
    (x >>= f).via answer = x.via answer >>= fun a => (f a).via answer := by
  induction x with
  | done a => simp
  | andThen q next ih => simp [ih]

end

/-- A question and the answer to it. -/
abbrev Turn (Q : Type) (A : Q → Type) : Type := (q : Q) × A q

/-- `x.Led turns r`: led for the given turns, `x` has come to the result `r`, or is still going on
if `r` is none. Any dialogue may be broken off before its next question is answered. -/
inductive Led : Dialogue Q A α → List (Turn Q A) → Option α → Prop where
  | ended (a : α) : Led (done a) [] (some a)
  | brokenOff (x : Dialogue Q A α) : Led x [] none
  | turn {q : Q} {next : A q → Dialogue Q A α} {turns : List (Turn Q A)} {r : Option α}
      (a : A q) (rest : Led (next a) turns r) : Led (andThen q next) (⟨q, a⟩ :: turns) r

theorem Led.bind_ended {x : Dialogue Q A α} {f : α → Dialogue Q A β} {a : α}
    {ts us : List (Turn Q A)} {r : Option β} (hx : Led x ts (some a)) (hf : Led (f a) us r) :
    Led (x >>= f) (ts ++ us) r := by
  generalize hs : some a = s at hx
  induction hx with
  | ended b =>
    cases hs
    exact hf
  | brokenOff x => cases hs
  | turn b _ ih => exact .turn b (ih hs)

theorem Led.bind_brokenOff {x : Dialogue Q A α} {ts : List (Turn Q A)} (hx : Led x ts none)
    (f : α → Dialogue Q A β) : Led (x >>= f) ts none := by
  generalize hs : (none : Option α) = s at hx
  induction hx with
  | ended b => cases hs
  | brokenOff x => exact .brokenOff _
  | turn b _ ih => exact .turn b (ih hs)

/-- A bind is led to where its first part is broken off, or through all of it and on. -/
theorem led_bind_iff {x : Dialogue Q A α} {f : α → Dialogue Q A β} {ts : List (Turn Q A)}
    {r : Option β} :
    Led (x >>= f) ts r ↔
      (r = none ∧ Led x ts none) ∨
        ∃ a us vs, ts = us ++ vs ∧ Led x us (some a) ∧ Led (f a) vs r := by
  constructor
  · intro h
    induction x generalizing ts with
    | done a => exact .inr ⟨a, [], ts, rfl, .ended a, h⟩
    | andThen q next ih =>
      cases h with
      | brokenOff => exact .inl ⟨rfl, .brokenOff _⟩
      | turn a rest =>
        rcases ih a rest with ⟨rfl, h⟩ | ⟨b, us, vs, rfl, h, h'⟩
        · exact .inl ⟨rfl, .turn a h⟩
        · exact .inr ⟨b, ⟨q, a⟩ :: us, vs, rfl, .turn a h, h'⟩
  · rintro (⟨rfl, h⟩ | ⟨a, us, vs, rfl, h, h'⟩)
    · exact h.bind_brokenOff f
    · exact h.bind_ended h'

end Dialogue

end PlaneRestore
