import PlaneRestore.Proofs.ImportError
import PlaneRestore.Proofs.Resource
import PlaneRestore.Proofs.Trace.Stages
/-!
Work that keeps to terms.

* `Terms` say which answers work may rely on, which resources it may write in turn, and with which
  errors it may fail.
* `Dialogue.Meets T good x`: as long as the answers can be relied on, the dialogue `x` writes only
  what it may, and its result is good. This is the weakest precondition of `good` for the calls of
  which `T` speaks; `Dialogue.meets_bind_iff` cuts it at a bind.
* `Work.Meets T work`: the same of work, whose result is good unless it is an error of another sort.
  There is a rule for each way in which work is put together.

The same traversal of the work is so of use for different terms.
-/

namespace PlaneRestore

/-- The resource that a call writes, and how its kind is served. -/
def Call.written? : Call → Option (KindMapping × Resource)
  | create m r | update m r => some (m, r)
  | list _ | mappingForKind _ | mappingForVersion _ _ | reset | resolve _ | observe => none

/-- The call that a question makes. -/
def Question.call? : Question → Option Call
  | call c | guarded c _ => some c
  | now | sleepUntil _ | report _ | extract _ => none

/-- What work may rely on, and what it has to keep to in turn. -/
structure Terms where
  /-- The answers that may be relied on. -/
  rely : Dialogue.Turn Question Question.Answer → Prop
  /-- The resources that may be written where a kind is served so. -/
  fits : KindMapping → Resource → Prop
  /-- The errors with which work may fail. -/
  fails : ImportError → Prop
  fits_of_mapped {k : GroupKind} {version : String} {m : KindMapping} :
    rely ⟨.guarded (.mappingForVersion k version) none, .answered (.ok m)⟩ →
      ∀ r : Resource, r.groupKind = k → fits m r
  fits_of_listed {m : KindMapping} {rs : List Resource} :
    rely ⟨.guarded (.list m) none, .answered (.ok rs)⟩ → ∀ r ∈ rs, fits m r
  fits_of_sameNames {m : KindMapping} {r r' : Resource} :
    Resource.SameNames r r' → fits m r → fits m r'
  fails_plain {e : ImportError} : e.IsPlain → fails e
  fails_outer {e e' : ImportError} : e.cause? = some e' → fails e' → fails e
  fails_cancelled {t : Dialogue.Turn Question Question.Answer} :
    rely t → isRefusal t = true → fails .cancelled
  /-- Who waits without a deadline, and is told that it is late, takes this for a cancellation. -/
  fails_late {c : Call} : rely ⟨.guarded c none, .late⟩ → fails .cancelled
  fails_unread {path : String} {e : ImportError} :
    rely ⟨.extract path, .error e⟩ → fails e

namespace Terms

/-- The questions that may be asked. -/
def Allows (T : Terms) (q : Question) : Prop :=
  ∀ m r, q.call?.bind Call.written? = some (m, r) → T.fits m r

variable {T : Terms}

theorem allows_of_written?_eq_none {q : Question} (h : q.call?.bind Call.written? = none) :
    T.Allows q := by
  intro m r hwritten
  rw [h] at hwritten
  cases hwritten

/-- Saying what was going on turns no error into one with which work may not fail. -/
theorem fails_wrap {outer : ImportError → ImportError} (houter : ImportError.IsWrapper outer)
    {e : ImportError} (h : T.fails e) : T.fails (e.wrap outer) := by
  by_cases he : e = .cancelled
  · rw [he] at h ⊢
    exact h
  · rw [ImportError.wrap_of_ne he]
    exact T.fails_outer (houter.cause? e) h

end Terms

namespace Dialogue

variable {α β : Type} {T : Terms}

/-- As long as the answers can be relied on, a dialogue asks only what it may, and its result is
good. -/
def Meets (T : Terms) (good : α → Prop) : Session α → Prop
  | done a => good a
  | andThen q next => T.Allows q ∧ ∀ a, T.rely ⟨q, a⟩ → (next a).Meets T good

theorem Meets.mono {good good' : α → Prop} {x : Session α} (h : x.Meets T good)
    (hgood : ∀ a, good a → good' a) : x.Meets T good' := by
  induction x with
  | done a => exact hgood a h
  | andThen q next ih => exact ⟨h.1, fun a ha => ih a (h.2 a ha)⟩

theorem meets_bind_iff {good : β → Prop} {x : Session α} {f : α → Session β} :
    (x >>= f).Meets T good ↔ x.Meets T fun a => (f a).Meets T good := by
  induction x with
  | done a => exact Iff.rfl
  | andThen q next ih => exact and_congr_right fun _ => forall₂_congr fun a _ => ih a

/-- Whatever has come to its end with answers that can be relied on has come to a good one. -/
theorem Meets.result {good : α → Prop} {x : Session α} {ts : Turns} {a : α} (h : x.Meets T good)
    (hled : x.Led ts (some a)) (hts : ∀ t ∈ ts, T.rely t) : good a := by
  generalize hr : some a = r at hled
  induction hled with
  | ended b =>
    cases hr
    exact h
  | brokenOff => cases hr
  | turn b _ ih =>
    obtain ⟨hfirst, hrest⟩ := List.forall_mem_cons.mp hts
    exact ih (h.2 b hfirst) hrest hr

end Dialogue

namespace Work

variable {α β : Type} {T : Terms}

/-- Work keeps to the terms, whatever it remembers. -/
def Meets (T : Terms) (work : Work α) : Prop :=
  ∀ m, (work.run.run m).Meets T fun p => ∀ e, p.1 = .error e → T.fails e

namespace Meets

theorem pure (a : α) : Meets T (pure a : Work α) := fun _ _ he => nomatch he

theorem throw {e : ImportError} (h : T.fails e) : Meets T (throw e : Work α) := by
  rintro m _ ⟨⟩
  exact h

theorem modify (change : Memory → Memory) : Meets T (modify change : Work PUnit) :=
  fun _ _ he => nomatch he

theorem get_bind {f : Memory → Work α} (h : ∀ m, Meets T (f m)) : Meets T (get >>= f) :=
  fun m => h m m

theorem bind {x : Work α} {f : α → Work β} (hx : Meets T x) (hf : ∀ a, Meets T (f a)) :
    Meets T (x >>= f) := by
  intro m
  rw [Dialogue.run_bind, Dialogue.meets_bind_iff]
  refine (hx m).mono ?_
  -- after an error there is no more to come
  rintro ⟨e | a, m'⟩ h
  · rintro _ ⟨⟩
    exact h e rfl
  · exact hf a m'

theorem tryCatch {x : Work α} {handle : ImportError → Work α} (hx : Meets T x)
    (hh : ∀ e, T.fails e → Meets T (handle e)) : Meets T (tryCatch x handle) := by
  intro m
  rw [Dialogue.run_tryCatch, Dialogue.meets_bind_iff]
  refine (hx m).mono ?_
  rintro ⟨e | a, m'⟩ h
  · exact hh e (h e rfl) m'
  · exact h

theorem wrapping {x : Work α} {outer : ImportError → ImportError} (hx : Meets T x)
    (houter : ImportError.IsWrapper outer) : Meets T (x.wrapping (ImportError.wrap outer)) :=
  hx.tryCatch fun _ he => throw (T.fails_wrap houter he)

/-! ### Questions -/

theorem ask_bind {q : Question} {f : q.Answer → Work β} (hq : T.Allows q)
    (hf : ∀ a, T.rely ⟨q, a⟩ → Meets T (f a)) : Meets T (ask q >>= f) :=
  fun m => ⟨hq, fun a ha => hf a ha m⟩

theorem ask {q : Question} (hq : T.Allows q) : Meets T (ask q) :=
  fun _ => ⟨hq, fun _ _ _ he => nomatch he⟩

theorem report (news : Progress) : Meets T (report news) :=
  ask (T.allows_of_written?_eq_none rfl)

/-- A call is answered, or else the work fails as cancelled. -/
theorem call_bind {c : Call} {f : c.Answer → Work β} (hc : T.Allows (.guarded c none))
    (hf : ∀ a, T.rely ⟨.guarded c none, .answered a⟩ → Meets T (f a)) :
    Meets T (call c >>= f) := by
  rw [Work.call, bind_assoc]
  refine ask_bind hc fun reply hreply => ?_
  cases reply with
  | answered a => exact hf a hreply
  | cancelled => exact throw (T.fails_cancelled hreply rfl)
  | late => exact throw (T.fails_late hreply)

/-! ### Answers -/

theorem orThrow {result : Except ImportError α} (h : ∀ e, result = .error e → T.fails e) :
    Meets T (orThrow result) := by
  cases result with
  | ok a => exact pure a
  | error e => exact throw (h e rfl)

theorem orClient_bind {answer : Except ClientError α} {f : α → Work β}
    (h : ∀ a, answer = .ok a → Meets T (f a)) : Meets T (orClient answer >>= f) := by
  cases answer with
  | ok a => exact h a rfl
  | error e => exact throw (T.fails_plain ⟨rfl, rfl⟩)

/-! ### Steps and loops -/

theorem step {x : Work α} (hx : Meets T x) (title opening : String) (closing : α → String) :
    Meets T (x.step title opening closing) := by
  refine (report _).bind fun _ => ?_
  refine (hx.tryCatch fun e he => (report _).bind fun _ => throw he).bind fun a => ?_
  exact (report _).bind fun _ => pure a

theorem mapM {f : α → Work β} {as : List α} (h : ∀ a ∈ as, Meets T (f a)) :
    Meets T (as.mapM f) := by
  induction as with
  | nil =>
    rw [List.mapM_nil]
    exact pure []
  | cons a as ih =>
    obtain ⟨hfirst, hrest⟩ := List.forall_mem_cons.mp h
    rw [List.mapM_cons]
    exact hfirst.bind fun b => (ih hrest).bind fun bs => pure (b :: bs)

theorem forM {f : α → Work PUnit} {as : List α} (h : ∀ a ∈ as, Meets T (f a)) :
    Meets T (as.forM f) := by
  induction as with
  | nil => exact pure PUnit.unit
  | cons a as ih =>
    obtain ⟨hfirst, hrest⟩ := List.forall_mem_cons.mp h
    exact hfirst.bind fun _ => ih hrest

end Meets

end Work

end PlaneRestore
