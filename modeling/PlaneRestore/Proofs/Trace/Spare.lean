import PlaneRestore.Proofs.Trace.Work
/-!
Work that leaves the archive alone.

* `Turns.readings` are the turns in which an archive is read.
* `Work.SparesArchive work`: however the work is led, it reads no archive, and the exported state
  that is remembered stays the same. There is a rule for each way in which work is put together.
-/

namespace PlaneRestore

/-- Whether an archive is read in a turn. -/
def isReading : Dialogue.Turn Question Question.Answer → Bool
  | ⟨.extract _, _⟩ => true
  | ⟨.call _, _⟩ | ⟨.guarded _ _, _⟩ | ⟨.now, _⟩ | ⟨.sleepUntil _, _⟩ | ⟨.report _, _⟩ => false

/-- The turns in which an archive is read. -/
def Turns.readings (ts : Turns) : Turns := ts.filter isReading

@[simp]
theorem Turns.readings_nil : Turns.readings [] = [] := rfl

@[simp]
theorem Turns.readings_append (ts us : Turns) :
    Turns.readings (ts ++ us) = Turns.readings ts ++ Turns.readings us :=
  List.filter_append ts us

namespace Work

variable {α β : Type}

/-- No archive is read, and no other exported state is remembered in the end. -/
def SparesArchive (work : Work α) : Prop :=
  ∀ m ts r, work.Led m ts r →
    Turns.readings ts = [] ∧ ∀ result m', r = some (result, m') → m'.state = m.state

namespace SparesArchive

/-- What is true of work that asks nothing. -/
private theorem of_run {work : Work α} (result : Except ImportError α) (change : Memory → Memory)
    (hrun : ∀ m, work.run.run m = .done (result, change m))
    (hchange : ∀ m, (change m).state = m.state) : SparesArchive work := by
  intro m ts r hled
  rw [Led, hrun] at hled
  obtain ⟨rfl, hr⟩ := led_done hled
  refine ⟨rfl, fun result' m' hr' => ?_⟩
  rcases hr with rfl | rfl
  · cases hr'
  · cases hr'
    exact hchange m

theorem pure (a : α) : SparesArchive (pure a : Work α) :=
  of_run (.ok a) id (fun _ => rfl) fun _ => rfl

theorem throw (e : ImportError) : SparesArchive (throw e : Work α) :=
  of_run (.error e) id (fun _ => rfl) fun _ => rfl

theorem modify {change : Memory → Memory} (h : ∀ m, (change m).state = m.state) :
    SparesArchive (modify change : Work PUnit) :=
  of_run (.ok PUnit.unit) change (fun _ => rfl) h

theorem orThrow (result : Except ImportError α) : SparesArchive (orThrow result) := by
  cases result with
  | ok a => exact pure a
  | error e => exact throw e

theorem orClient (answer : Except ClientError α) : SparesArchive (orClient answer) := by
  cases answer with
  | ok a => exact pure a
  | error e => exact throw (.client e)

theorem ask {q : Question} (hq : ∀ a, isReading ⟨q, a⟩ = false) : SparesArchive (ask q) := by
  intro m ts r hled
  rcases led_ask hled with ⟨rfl, rfl⟩ | ⟨a, rfl, hr⟩
  · exact ⟨rfl, fun result m' hr => nomatch hr⟩
  · refine ⟨by simp [Turns.readings, hq a], fun result m' hr' => ?_⟩
    rcases hr with rfl | rfl
    · cases hr'
    · cases hr'
      rfl

theorem bind {x : Work α} {f : α → Work β} (hx : SparesArchive x)
    (hf : ∀ a, SparesArchive (f a)) : SparesArchive (x >>= f) := by
  intro m ts r hled
  rcases led_bind_iff.mp hled with
    ⟨rfl, hfirst⟩ | ⟨e, m₁, rfl, hfirst⟩ | ⟨a, m₁, us, vs, rfl, hfirst, hrest⟩
  · exact ⟨(hx m ts none hfirst).1, fun result m' hr => nomatch hr⟩
  · refine ⟨(hx m ts _ hfirst).1, fun result m' hr => ?_⟩
    cases hr
    exact (hx m ts _ hfirst).2 _ m₁ rfl
  · obtain ⟨hus, hm₁⟩ := hx m us _ hfirst
    obtain ⟨hvs, hm'⟩ := hf a m₁ vs r hrest
    refine ⟨by simp [hus, hvs], fun result m' hr => ?_⟩
    exact (hm' result m' hr).trans (hm₁ _ m₁ rfl)

theorem tryCatch {x : Work α} {handle : ImportError → Work α} (hx : SparesArchive x)
    (hh : ∀ e, SparesArchive (handle e)) : SparesArchive (tryCatch x handle) := by
  intro m ts r hled
  rcases led_tryCatch hled with ⟨hfirst, -⟩ | ⟨e, m₁, us, vs, rfl, hfirst, hrest⟩
  · exact hx m ts r hfirst
  · obtain ⟨hus, hm₁⟩ := hx m us _ hfirst
    obtain ⟨hvs, hm'⟩ := hh e m₁ vs r hrest
    refine ⟨by simp [hus, hvs], fun result m' hr => ?_⟩
    exact (hm' result m' hr).trans (hm₁ _ m₁ rfl)

theorem wrapping {x : Work α} (hx : SparesArchive x) (f : ImportError → ImportError) :
    SparesArchive (x.wrapping f) := hx.tryCatch fun e => throw (f e)

theorem report (news : Progress) : SparesArchive (report news) := ask fun _ => rfl

theorem step {x : Work α} (hx : SparesArchive x) (title opening : String) (closing : α → String) :
    SparesArchive (x.step title opening closing) := by
  refine (report _).bind fun _ => ?_
  refine (hx.tryCatch fun e => (report _).bind fun _ => throw e).bind fun a => ?_
  exact (report _).bind fun _ => pure a

theorem call (c : Call) : SparesArchive (call c) := by
  refine (ask fun _ => rfl).bind fun reply => ?_
  cases reply with
  | answered a => exact pure a
  | cancelled | late => exact throw .cancelled

/-! ### Loops -/

theorem mapM {f : α → Work β} (h : ∀ a, SparesArchive (f a)) (as : List α) :
    SparesArchive (as.mapM f) := by
  induction as with
  | nil =>
    rw [List.mapM_nil]
    exact pure []
  | cons a as ih =>
    rw [List.mapM_cons]
    exact (h a).bind fun b => ih.bind fun bs => pure (b :: bs)

theorem forM {f : α → Work PUnit} (h : ∀ a, SparesArchive (f a)) (as : List α) :
    SparesArchive (as.forM f) := by
  induction as with
  | nil => exact pure PUnit.unit
  | cons a as ih => exact (h a).bind fun _ => ih

end SparesArchive

end Work

end PlaneRestore
