import PlaneRestore.Proofs.Trace.Stages
/-!
Sessions that heed a cancellation.

* `Dialogue.Closes C session`: nothing is left but news, and a result of which `C` is true.
* `Dialogue.Heeds C resets session`: as soon as the session is refused an answer, it closes. All its
  calls can be broken off, but for so many resets.
* `Work.IsStaged.heeds`: work that is done in steps heeds a cancellation, and fails as cancelled.
-/

namespace PlaneRestore

/-- Whether a question is given up when the run is cancelled. -/
def Question.isBreakable : Question → Bool
  | .guarded _ _ | .sleepUntil _ => true
  | .call _ | .now | .report _ | .extract _ => false

/-- Whether a question is a call that is seen through to its end. -/
def Question.isThrough : Question → Bool
  | .call _ => true
  | .guarded _ _ | .sleepUntil _ | .now | .report _ | .extract _ => false

theorem Question.isThrough_of_isInner {q : Question} (h : q.isInner = true) :
    q.isThrough = false := by
  cases q with
  | call c => cases h
  | guarded | sleepUntil | now | report | extract => rfl

namespace Dialogue

variable {α β : Type} {C : α → Prop} {D : β → Prop}

/-- Only news are left, and a result of which `C` is true. -/
inductive Closes (C : α → Prop) : Session α → Prop
  | done {a : α} (h : C a) : Closes C (.done a)
  | report (news : Progress) {next : Unit → Session α} (rest : Closes C (next ())) :
      Closes C (.andThen (.report news) next)

/-- A session that closes when it is refused an answer, and of whose calls so many resets are seen
through to their end. -/
inductive Heeds (C : α → Prop) : Nat → Session α → Prop
  | done (n : Nat) (a : α) : Heeds C n (.done a)
  | asking {n : Nat} {q : Question} {next : q.Answer → Session α} (hq : q.isThrough = false)
      (refused : ∀ a, isRefusal ⟨q, a⟩ = true → Closes C (next a))
      (rest : ∀ a, isRefusal ⟨q, a⟩ = false → Heeds C n (next a)) : Heeds C n (.andThen q next)
  | reset {n : Nat} {next : Unit → Session α} (rest : ∀ a, Heeds C n (next a)) :
      Heeds C (n + 1) (.andThen (.call .reset) next)

theorem Closes.bind {x : Session α} {f : α → Session β} (h : Closes C x)
    (hf : ∀ a, C a → Closes D (f a)) : Closes D (x >>= f) := by
  induction h with
  | done ha => exact hf _ ha
  | report news _ ih => exact .report news ih

theorem Closes.heeds {x : Session α} (h : Closes C x) (n : Nat) : Heeds C n x := by
  induction h with
  | done _ => exact .done n _
  | report news _ ih => exact .asking rfl (fun _ ha => nomatch ha) fun _ _ => ih

theorem Heeds.mono {x : Session α} {k n : Nat} (h : Heeds C k x) (hle : k ≤ n) : Heeds C n x := by
  induction h generalizing n with
  | done k a => exact .done n a
  | asking hq refused _ ih => exact .asking hq refused fun a ha => ih a ha hle
  | reset _ ih =>
    obtain ⟨n, rfl⟩ := Nat.exists_eq_add_of_le' (Nat.one_le_of_lt hle)
    exact .reset fun a => ih a (Nat.le_of_succ_le_succ hle)

theorem Heeds.bind {x : Session α} {f : α → Session β} {k n : Nat} (h : Heeds C k x)
    (hclosing : ∀ a, C a → Closes D (f a)) (hf : ∀ a, Heeds D n (f a)) :
    Heeds D (k + n) (x >>= f) := by
  induction h with
  | done k a => exact (hf a).mono (Nat.le_add_left n k)
  | asking hq refused _ ih => exact .asking hq (fun a ha => (refused a ha).bind hclosing) ih
  | reset _ ih =>
    rw [Nat.add_right_comm]
    exact .reset ih

/-- The first part is never refused an answer. -/
theorem Heeds.bind_unbroken {x : Session α} {f : α → Session β} {k n : Nat}
    (h : Heeds (fun _ => False) k x) (hf : ∀ a, Heeds D n (f a)) : Heeds D (k + n) (x >>= f) :=
  h.bind (fun _ hfalse => hfalse.elim) hf

theorem Heeds.next {q : Question} {next : q.Answer → Session α} {n : Nat}
    (h : Heeds C n (.andThen q next)) (a : q.Answer) : Heeds C n (next a) := by
  cases h with
  | asking hq refused rest =>
    cases ha : isRefusal ⟨q, a⟩ with
    | false => exact rest a ha
    | true => exact (refused a ha).heeds n
  | reset rest => exact (rest a).mono (Nat.le_succ _)

/-! ### Runs -/

/-- What is left of a session at some point of its run heeds a cancellation, too. -/
theorem Heeds.rest {x : Session α} {n : Nat} {us vs : Turns} {r : Option α} (h : Heeds C n x)
    (hled : x.Led (us ++ vs) r) : ∃ y, Heeds C n y ∧ y.Led vs r := by
  induction us generalizing x with
  | nil => exact ⟨x, h, hled⟩
  | cons t us ih =>
    cases hled with
    | turn a hrest =>
      exact ih (h.next a) hrest

/-- After a refusal, a session closes. -/
theorem Heeds.closes {x : Session α} {n : Nat} {us vs : Turns} {r : Option α}
    {t : Turn Question Question.Answer} (h : Heeds C n x) (ht : isRefusal t = true)
    (hled : x.Led (us ++ t :: vs) r) :
    ∃ y, Closes C y ∧ y.Led vs r ∧ ∀ vs' r', y.Led vs' r' → x.Led (us ++ t :: vs') r' := by
  induction us generalizing x with
  | nil =>
    cases hled with
    | turn a hrest =>
      cases h with
      | asking hq refused hnext =>
        exact ⟨_, refused a ht, hrest, fun vs' r' hled => .turn a hled⟩
      | reset hnext => cases ht
  | cons first us ih =>
    cases hled with
    | turn a hrest =>
      obtain ⟨y, hcloses, hled, hon⟩ := ih (h.next a) hrest
      exact ⟨y, hcloses, hled, fun vs' r' hled => .turn a (hon vs' r' hled)⟩

theorem Closes.result {x : Session α} {ts : Turns} {a : α} (h : Closes C x)
    (hled : x.Led ts (some a)) : C a := by
  induction h generalizing ts with
  | done ha =>
    cases hled
    exact ha
  | report news _ ih =>
    cases hled with
    | turn _ hrest => exact ih hrest

/-- Whoever is refused an answer has no result but those with which a session closes. -/
theorem Heeds.result {x : Session α} {n : Nat} {ts : Turns} {a : α} (h : Heeds C n x)
    (hled : x.Led ts (some a)) (hrefused : ∃ t ∈ ts, isRefusal t = true) : C a := by
  obtain ⟨t, ht, hrefusal⟩ := hrefused
  obtain ⟨us, vs, rfl⟩ := List.append_of_mem ht
  obtain ⟨rest, hcloses, hled, -⟩ := h.closes hrefusal hled
  exact hcloses.result hled

/-- A session without resets makes no call that cannot be broken off. -/
theorem Heeds.not_isThrough {x : Session α} {ts : Turns} {r : Option α} (h : Heeds C 0 x)
    (hled : x.Led ts r) : ∀ t ∈ ts, t.1.isThrough = false := by
  induction ts generalizing x with
  | nil => exact fun t ht => nomatch ht
  | cons first ts ih =>
    cases hled with
    | turn a hrest =>
      have hnext := ih (h.next a) hrest
      cases h with
      | asking hq => exact List.forall_mem_cons.mpr ⟨hq, hnext⟩

end Dialogue

namespace Work

open Dialogue

variable {α : Type}

/-- Work that fails as cancelled when it is refused an answer. -/
def Heeds (resets : Nat) (work : Work α) : Prop :=
  ∀ m, Dialogue.Heeds (fun p : Except ImportError α × Memory => p.1 = .error .cancelled) resets
    (work.run.run m)

theorem Heeds.pure (n : Nat) (a : α) : Heeds n (pure a : Work α) :=
  fun m => .done n (Except.ok a, m)

theorem Heeds.bind {β : Type} {x : Work α} {f : α → Work β} {k n : Nat} (hx : Heeds k x)
    (hf : ∀ a, Heeds n (f a)) : Heeds (k + n) (x >>= f) := by
  intro m
  rw [run_bind]
  refine (hx m).bind ?_ ?_
  · rintro ⟨result, m'⟩ rfl
    exact .done rfl
  · rintro ⟨e | a, m'⟩
    · exact .done n (Except.error e, m')
    · exact hf a m'

/-- Something is done about errors, but a cancellation stays one. -/
theorem Heeds.tryCatch {x : Work α} {handle : ImportError → Work α} {n : Nat} (hx : Heeds n x)
    (hclosing : ∀ m, Closes (fun p => p.1 = .error .cancelled) ((handle .cancelled).run.run m))
    (hh : ∀ e, Heeds 0 (handle e)) : Heeds n (tryCatch x handle) := by
  intro m
  rw [run_tryCatch, ← Nat.add_zero n]
  refine (hx m).bind ?_ ?_
  · rintro ⟨result, m'⟩ rfl
    exact hclosing m'
  · rintro ⟨e | a, m'⟩
    · exact hh e m'
    · exact .done 0 (Except.ok a, m')

theorem Heeds.wrapping {x : Work α} {n : Nat} (hx : Heeds n x)
    (outer : ImportError → ImportError) : Heeds n (x.wrapping (ImportError.wrap outer)) :=
  hx.tryCatch (fun _ => .done rfl) fun e m => .done 0 (Except.error (e.wrap outer), m)

theorem IsErrand.heeds {x : Work α} (h : IsErrand x) : Heeds 0 x := by
  induction h with
  | pure a => exact .pure 0 a
  | throw e => exact fun m => .done 0 (Except.error e, m)
  | bind hx hf ihx ihf => exact ihx.bind ihf
  | get => exact fun m => .done 0 (Except.ok m, m)
  | modify change => exact fun m => .done 0 (Except.ok PUnit.unit, change m)
  | wrapping outer hx ih => exact ih.wrapping outer
  | @asking _ q f hq refused hf ih =>
    intro m
    show Dialogue.Heeds _ 0 (.andThen q fun a => (f a).run.run m)
    refine .asking (Question.isThrough_of_isInner hq) (fun a ha => ?_) fun a ha => ih a ha m
    rw [refused a ha]
    exact .done rfl

theorem IsPhased.heeds {x : Work α} (h : IsPhased x) : Heeds 0 x := by
  induction h with
  | pure a => exact .pure 0 a
  | bind hx hf ihx ihf => exact ihx.bind ihf
  | phase context hx => exact hx.heeds.wrapping _

theorem Heeds.report (news : Progress) : Heeds 0 (report news) := fun _ =>
  .asking rfl (fun _ ha => nomatch ha) fun _ _ => .done 0 _

/-- Work that is done in steps stops when it is refused an answer. -/
theorem IsStaged.heeds {x : Work α} {n : Nat} (h : IsStaged n x) : Heeds n x := by
  induction h with
  | pure a => exact .pure 0 a
  | bind hx hf ihx ihf => exact ihx.bind ihf
  | modify change => exact fun m => .done 0 (Except.ok PUnit.unit, change m)
  | reset => exact fun m => .reset fun a => .done 0 (Except.ok a, m)
  | step title opening closing hx =>
    refine Heeds.bind (k := 0) (n := 0) (.report _) fun _ => ?_
    refine Heeds.bind (k := 0) (n := 0) (Heeds.tryCatch hx.heeds ?_ fun e => ?_) fun a => ?_
    · exact fun m => .report _ (.done rfl)
    · exact Heeds.bind (k := 0) (n := 0) (.report _) fun _ m => .done 0 (Except.error e, m)
    · exact Heeds.bind (k := 0) (n := 0) (.report _) fun _ => .pure 0 a

end Work

end PlaneRestore
