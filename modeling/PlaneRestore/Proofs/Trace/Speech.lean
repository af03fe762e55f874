import Mathlib.Computability.Language
import PlaneRestore.Proofs.Trace.Work
/-!
What pieces of work say to the control plane.

* `Work.Speaks s work m post`: however the work is led, its log is the start of one that `post`
  allows; if it succeeds, the log and the result are allowed by `post`. Any answer may be given to
  any question, except that only the exported state `s` may be found in an archive.
* `Speaks.bind`, `Speaks.wrapping`, `Speaks.step` and `speaks_request` are the rules for the forms
  of work; `Speaks.mapM` and `Speaks.forM` are those for loops that find out nothing new.
-/

namespace PlaneRestore

/-- No other exported state is found in an archive. -/
def Turns.Finds (s : ExportedState) (ts : Turns) : Prop :=
  ∀ (path : String) (s' : ExportedState),
    (⟨.extract path, .ok s'⟩ : Dialogue.Turn Question Question.Answer) ∈ ts → s' = s

namespace Work

variable {α β : Type} {s : ExportedState}

/-- The log of the work is the start of an allowed one, and is itself allowed on success. -/
def Speaks (s : ExportedState) (work : Work α) (m : Memory)
    (post : α → Memory → List LoggedCall → Prop) : Prop :=
  ∀ ts r, Turns.Finds s ts → work.Led m ts r →
    (∃ a m' w, post a m' w ∧ Starts (callLog ts) w) ∧
      ∀ a m', r = some (.ok a, m') → post a m' (callLog ts)

namespace Speaks

variable {work : Work α} {m : Memory} {post : α → Memory → List LoggedCall → Prop}

/-- Work that is not begun has an allowed log before it. -/
theorem possible (h : Speaks s work m post) : ∃ a m' w, post a m' w := by
  obtain ⟨⟨a, m', w, hw, -⟩, -⟩ := h [] none (fun _ _ ht => (nomatch ht)) (.brokenOff _)
  exact ⟨a, m', w, hw⟩

theorem mono {post' : α → Memory → List LoggedCall → Prop} (h : Speaks s work m post)
    (himp : ∀ a m' w, post a m' w → post' a m' w) : Speaks s work m post' := by
  intro ts r hfinds hled
  obtain ⟨⟨a, m', w, hw, hstarts⟩, hok⟩ := h ts r hfinds hled
  exact ⟨⟨a, m', w, himp a m' w hw, hstarts⟩, fun a m' hr => himp a m' _ (hok a m' hr)⟩

theorem pure {a : α} (h : post a m []) : Speaks s (pure a) m post := by
  intro ts r _ hled
  obtain ⟨rfl, rfl | rfl⟩ := led_done hled
  · exact ⟨⟨a, m, [], h, .nil []⟩, fun _ _ hr => (nomatch hr)⟩
  · refine ⟨⟨a, m, [], h, .nil []⟩, fun b m' hr => ?_⟩
    cases hr
    exact h

theorem throw {e : ImportError} (h : ∃ a m' w, post a m' w) : Speaks s (throw e) m post := by
  intro ts r _ hled
  obtain ⟨a, m', w, hw⟩ := h
  obtain ⟨rfl, rfl | rfl⟩ := led_done hled
  · exact ⟨⟨a, m', w, hw, .nil w⟩, fun _ _ hr => (nomatch hr)⟩
  · exact ⟨⟨a, m', w, hw, .nil w⟩, fun _ _ hr => (nomatch hr)⟩

/-- Once the first part has said `u`, what the second part says has to go on from there. -/
theorem bind {f : α → Work β} {P : α → Memory → List LoggedCall → Prop}
    {post : β → Memory → List LoggedCall → Prop} (hx : Speaks s work m P)
    (hf : ∀ a m' u, P a m' u → Speaks s (f a) m' fun b m'' v => post b m'' (u ++ v)) :
    Speaks s (work >>= f) m post := by
  intro ts r hfinds hled
  rcases led_bind hled with ⟨r', hled, hr⟩ | ⟨a, m', us, vs, rfl, hus, hvs⟩
  · obtain ⟨⟨a, m', u, hu, hstarts⟩, -⟩ := hx ts r' hfinds hled
    obtain ⟨b, m'', v, hv⟩ := (hf a m' u hu).possible
    exact ⟨⟨b, m'', u ++ v, hv, hstarts.append_right v⟩, fun b m'' h => absurd h (hr b m'')⟩
  · have hu := (hx us _ (fun p s' ht => hfinds p s' (List.mem_append_left vs ht)) hus).2 a m' rfl
    obtain ⟨⟨b, m'', v, hv, hstarts⟩, hok⟩ :=
      hf a m' _ hu vs r (fun p s' ht => hfinds p s' (List.mem_append_right us ht)) hvs
    rw [callLog_append]
    exact ⟨⟨b, m'', _, hv, hstarts.append_left _⟩, hok⟩

/-- The first part says nothing. -/
theorem bind_silent {f : α → Work β} {P : α → Memory → Prop}
    {post : β → Memory → List LoggedCall → Prop}
    (hx : Speaks s work m fun a m' w => w = [] ∧ P a m')
    (hf : ∀ a m', P a m' → Speaks s (f a) m' post) : Speaks s (work >>= f) m post := by
  refine hx.bind fun a m' u hu => ?_
  obtain ⟨rfl, hu⟩ := hu
  exact hf a m' hu

/-- What is remembered is looked at. -/
theorem get_bind {f : Memory → Work α} (h : Speaks s (f m) m post) : Speaks s (get >>= f) m post :=
  h

/-- Something is done about an error that says nothing and does not undo it. -/
theorem tryCatch {handle : ImportError → Work α} (h : Speaks s work m post)
    (hh : ∀ e m' ts r, (handle e).Led m' ts r →
      callLog ts = [] ∧ ∀ a m'', r ≠ some (.ok a, m'')) :
    Speaks s (tryCatch work handle) m post := by
  intro ts r hfinds hled
  rcases led_tryCatch hled with ⟨hled, -⟩ | ⟨e, m', us, vs, rfl, hus, hvs⟩
  · exact h ts r hfinds hled
  · obtain ⟨hlog, hr⟩ := hh e m' vs r hvs
    rw [callLog_append, hlog, List.append_nil]
    refine ⟨(h us _ (fun p s' ht => hfinds p s' (List.mem_append_left vs ht)) hus).1, ?_⟩
    exact fun a m'' h => absurd h (hr a m'')

theorem wrapping (h : Speaks s work m post) (f : ImportError → ImportError) :
    Speaks s (work.wrapping f) m post := by
  refine h.tryCatch fun e m' ts r hled => ?_
  obtain ⟨rfl, rfl | rfl⟩ := led_done hled <;> simp

end Speaks

/-! ### Questions -/

/-- A question that makes no call is silent; no other exported state is found by it. -/
theorem speaks_ask_finds {q : Question} {m : Memory} (a₀ : q.Answer)
    (h₀ : Turns.Finds s [⟨q, a₀⟩]) (h : ∀ a, LoggedCall.ofTurn? ⟨q, a⟩ = none) :
    Speaks s (ask q) m fun a m' w => w = [] ∧ m' = m ∧ Turns.Finds s [⟨q, a⟩] := by
  intro ts r hfinds hled
  rcases led_ask hled with ⟨rfl, rfl⟩ | ⟨a, rfl, hr⟩
  · exact ⟨⟨a₀, m, [], ⟨rfl, rfl, h₀⟩, .nil _⟩, fun _ _ hr => (nomatch hr)⟩
  · have hlog : callLog [⟨q, a⟩] = [] := by simp [callLog, h a]
    rw [hlog]
    refine ⟨⟨a, m, [], ⟨rfl, rfl, hfinds⟩, .nil _⟩, fun b m' hr' => ?_⟩
    obtain rfl | rfl := hr
    · cases hr'
    · cases hr'
      exact ⟨rfl, rfl, hfinds⟩

theorem speaks_extract {path : String} {m : Memory} :
    Speaks s (ask (.extract path)) m fun a m' w => w = [] ∧ m' = m ∧ ∀ s', a = .ok s' → s' = s := by
  refine (speaks_ask_finds (q := .extract path) (Except.error .cancelled) ?_
    fun _ => rfl).mono fun a m' w hw => ?_
  · simp [Turns.Finds]
  · refine ⟨hw.1, hw.2.1, ?_⟩
    rintro s' rfl
    exact hw.2.2 path s' List.mem_cons_self

/-- A question that makes no call and finds no exported state. -/
theorem speaks_ask {q : Question} {m : Memory} (a₀ : q.Answer)
    (hq : ∀ path, q ≠ .extract path) (h : ∀ a, LoggedCall.ofTurn? ⟨q, a⟩ = none) :
    Speaks s (ask q) m fun _ m' w => w = [] ∧ m' = m := by
  refine (speaks_ask_finds a₀ ?_ h).mono fun a m' w hw => ⟨hw.1, hw.2.1⟩
  intro path s' hmem
  obtain ⟨rfl, -⟩ := Sigma.mk.inj (List.mem_singleton.mp hmem)
  exact absurd rfl (hq path)

theorem speaks_report {news : Progress} {m : Memory} :
    Speaks s (report news) m fun _ m' w => w = [] ∧ m' = m :=
  speaks_ask () (fun _ => by simp) fun _ => rfl

theorem Speaks.step {work : Work α} {m : Memory} {post : α → Memory → List LoggedCall → Prop}
    (h : Speaks s work m post) (title opening : String) (closing : α → String) :
    Speaks s (work.step title opening closing) m post := by
  refine speaks_report.bind_silent fun _ m' hm => ?_
  cases hm
  -- if the step fails, all that follows is news about it
  refine (h.tryCatch fun e m' ts r hled => ?_).bind fun a m' w hw => ?_
  · rcases led_bind hled with ⟨r', hreport, hr⟩ | ⟨_, m'', us, vs, rfl, hreport, hrest⟩
    · refine ⟨?_, hr⟩
      rcases led_ask hreport with ⟨rfl, -⟩ | ⟨a, rfl, -⟩ <;> rfl
    · obtain ⟨rfl, hr⟩ := led_done hrest
      refine ⟨?_, ?_⟩
      · rcases led_ask hreport with ⟨rfl, -⟩ | ⟨a, rfl, -⟩ <;> rfl
      · obtain rfl | rfl := hr <;> simp
  · refine speaks_report.bind_silent fun _ m'' hm => ?_
    cases hm
    exact .pure (by rwa [List.append_nil])

/-- A call that is seen through to its end. -/
theorem speaks_call_through (c : Call) (a₀ : c.Answer) {m : Memory} :
    Speaks s (ask (.call c)) m fun a m' w => m' = m ∧ w = [⟨c, some a⟩] := by
  intro ts r _ hled
  rcases led_ask hled with ⟨rfl, rfl⟩ | ⟨a, rfl, hr⟩
  · exact ⟨⟨a₀, m, _, ⟨rfl, rfl⟩, .nil _⟩, fun _ _ hr => (nomatch hr)⟩
  · refine ⟨⟨a, m, _, ⟨rfl, rfl⟩, .refl _⟩, fun b m' hr' => ?_⟩
    obtain rfl | rfl := hr
    · cases hr'
    · cases hr'
      exact ⟨rfl, rfl⟩

/-- A call is made; the work goes on with some of the answers, and fails with the others. -/
theorem speaks_guarded_bind {c : Call} {deadline : Option Nat} {f : Reply c.Answer → Work β}
    {m : Memory} {post : β → Memory → List LoggedCall → Prop}
    (hpossible : ∃ a b m' v, post b m' (⟨c, some a⟩ :: v))
    (hf : ∀ reply, (∃ e, f reply = throw e) ∨ ∃ a, reply = .answered a ∧
      Speaks s (f reply) m fun b m' v => post b m' (⟨c, some a⟩ :: v)) :
    Speaks s (ask (.guarded c deadline) >>= f) m post := by
  obtain ⟨a₀, b₀, m₀, v₀, h₀⟩ := hpossible
  -- the call is in the log even if it was given up
  have hmade : ∀ reply : Reply c.Answer,
      ∃ a, callLog [⟨.guarded c deadline, reply⟩] = [⟨c, a⟩] := by
    rintro (a | _ | _)
    · exact ⟨some a, rfl⟩
    · exact ⟨none, rfl⟩
    · exact ⟨none, rfl⟩
  have hbegun : ∀ a, Starts [⟨c, a⟩] (⟨c, some a₀⟩ :: v₀) := fun a =>
    (starts_singleton_iff (e := ⟨c, some a₀⟩).mpr (.inr ⟨a, rfl⟩)).append_right v₀
  intro ts r hfinds hled
  rcases led_bind hled with ⟨r', hled, hr⟩ | ⟨reply, m', us, vs, rfl, hus, hvs⟩
  · refine ⟨⟨b₀, m₀, _, h₀, ?_⟩, fun b m' h => absurd h (hr b m')⟩
    rcases led_ask hled with ⟨rfl, -⟩ | ⟨reply, rfl, -⟩
    · exact .nil _
    · obtain ⟨a, ha⟩ := hmade reply
      rw [ha]
      exact hbegun a
  · obtain ⟨-, hno⟩ | ⟨reply, rfl, hr⟩ := led_ask hus
    · cases hno
    · obtain hno | hr := hr
      · cases hno
      cases hr
      rcases hf reply with ⟨e, he⟩ | ⟨a, rfl, hspeaks⟩
      · -- the work fails at this answer
        rw [he] at hvs
        obtain ⟨rfl, hr⟩ := led_done hvs
        obtain ⟨a, ha⟩ := hmade reply
        rw [List.append_nil, ha]
        refine ⟨⟨b₀, m₀, _, h₀, hbegun a⟩, fun b m' h => ?_⟩
        obtain rfl | rfl := hr <;> cases h
      · obtain ⟨⟨b, m', v, hv, hstarts⟩, hok⟩ :=
          hspeaks vs r (fun p s' ht => hfinds p s' (List.mem_append_right _ ht)) hvs
        rw [callLog_append]
        exact ⟨⟨b, m', _, hv, hstarts.append_left [⟨c, some a⟩]⟩, hok⟩

/-- A call whose answer is read, where some can be. -/
theorem speaks_request {c : Call} {m : Memory} (read : c.Answer → Except ImportError β)
    (a₀ : c.Answer) {b₀ : β} (h₀ : read a₀ = .ok b₀) :
    Speaks s (call c >>= fun a => orThrow (read a)) m fun b m' w =>
      m' = m ∧ ∃ a, read a = .ok b ∧ w = [⟨c, some a⟩] := by
  rw [call, bind_assoc]
  refine speaks_guarded_bind ⟨a₀, b₀, m, [], rfl, a₀, h₀, rfl⟩ fun reply => ?_
  cases reply with
  | answered a =>
    cases hread : read a with
    | error e => exact .inl ⟨e, by simp [hread, orThrow]⟩
    | ok b =>
      refine .inr ⟨a, rfl, ?_⟩
      simp only [pure_bind, hread, orThrow]
      exact .pure ⟨rfl, a, hread, rfl⟩
  | cancelled => exact .inl ⟨.cancelled, rfl⟩
  | late => exact .inl ⟨.cancelled, rfl⟩

/-! ### Loops -/

/-- Pieces of work that find out nothing new are done one after another. -/
theorem Speaks.mapM {f : α → Work β} {m : Memory} {K : α → β → Language LoggedCall} {as : List α}
    (h : ∀ a ∈ as, Speaks s (f a) m fun b m' w => m' = m ∧ w ∈ K a b) :
    Speaks s (as.mapM f) m fun bs m' w =>
      m' = m ∧ bs.length = as.length ∧ w ∈ (List.zipWith K as bs).prod := by
  induction as with
  | nil =>
    rw [List.mapM_nil]
    exact .pure ⟨rfl, rfl, Language.nil_mem_one⟩
  | cons a as ih =>
    rw [List.mapM_cons]
    refine (h a List.mem_cons_self).bind fun b m' u hu => ?_
    obtain ⟨rfl, hu⟩ := hu
    refine (ih fun a' ha => h a' (List.mem_cons_of_mem a ha)).bind fun bs m' v hv => ?_
    obtain ⟨rfl, hlen, hv⟩ := hv
    refine .pure ⟨rfl, by simp [hlen], ?_⟩
    rw [List.append_nil, List.zipWith_cons_cons, List.prod_cons]
    exact Language.append_mem_mul hu hv

theorem Speaks.forM {f : α → Work PUnit} {m : Memory} {K : α → Language LoggedCall} {as : List α}
    (h : ∀ a ∈ as, Speaks s (f a) m fun _ m' w => m' = m ∧ w ∈ K a) :
    Speaks s (as.forM f) m fun _ m' w => m' = m ∧ w ∈ (as.map K).prod := by
  induction as with
  | nil => exact .pure ⟨rfl, Language.nil_mem_one⟩
  | cons a as ih =>
    refine (h a List.mem_cons_self).bind fun _ m' u hu => ?_
    obtain ⟨rfl, hu⟩ := hu
    refine (ih fun a' ha => h a' (List.mem_cons_of_mem a ha)).mono fun _ m' v hv => ?_
    obtain ⟨rfl, hv⟩ := hv
    refine ⟨rfl, ?_⟩
    rw [List.map_cons, List.prod_cons]
    exact Language.append_mem_mul hu hv

end Work

end PlaneRestore
