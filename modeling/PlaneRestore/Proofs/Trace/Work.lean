import PlaneRestore.Import.Work
import PlaneRestore.Proofs.Trace.Effect
import PlaneRestore.Proofs.Trace.Log
/-!
How pieces of work are led.

* `Work.Led work m ts r`: work that was begun with the memory `m` was led for the turns `ts`; `r` is
  its result and its memory at the end, or none if it was broken off.
* `Work.led_bind_iff` cuts this at a bind: the first part is broken off, or fails, or gives its
  result to the second. `led_ask_bind_iff`, `led_wrapping` and `led_step` do so for questions,
  errors and steps. What ends in `_some` is about work that comes to its end.
-/

namespace PlaneRestore

namespace Work

variable {α β : Type}

/-- Work that was begun with a memory is led for some turns. -/
def Led (work : Work α) (m : Memory) (ts : Turns) (r : Option (Except ImportError α × Memory)) :
    Prop :=
  Dialogue.Led (work.run.run m) ts r

theorem led_done {r : Except ImportError α × Memory} {ts : Turns}
    {r' : Option (Except ImportError α × Memory)} (h : Dialogue.Led (.done r) ts r') :
    ts = [] ∧ (r' = none ∨ r' = some r) := Dialogue.led_done h

/-- The first part of a bind is broken off, or fails, or gives its result to the second. -/
theorem led_bind_iff {x : Work α} {f : α → Work β} {m : Memory} {ts : Turns}
    {r : Option (Except ImportError β × Memory)} :
    (x >>= f).Led m ts r ↔
      (r = none ∧ x.Led m ts none) ∨
        (∃ e m', r = some (.error e, m') ∧ x.Led m ts (some (.error e, m'))) ∨
          ∃ a m' us vs, ts = us ++ vs ∧ x.Led m us (some (.ok a, m')) ∧ (f a).Led m' vs r :=
  Dialogue.led_run_bind_iff

theorem led_bind {x : Work α} {f : α → Work β} {m : Memory} {ts : Turns}
    {r : Option (Except ImportError β × Memory)} (h : (x >>= f).Led m ts r) :
    (∃ r', x.Led m ts r' ∧ ∀ b m', r ≠ some (.ok b, m')) ∨
      ∃ a m' us vs, ts = us ++ vs ∧ x.Led m us (some (.ok a, m')) ∧ (f a).Led m' vs r := by
  rcases led_bind_iff.mp h with ⟨rfl, hx⟩ | ⟨e, m', rfl, hx⟩ | h
  · exact .inl ⟨none, hx, by simp⟩
  · exact .inl ⟨_, hx, by simp⟩
  · exact .inr h

/-- Work is led as the work that it wraps, until that fails; the rest is done about the error. -/
theorem led_tryCatch {x : Work α} {handle : ImportError → Work α} {m : Memory} {ts : Turns}
    {r : Option (Except ImportError α × Memory)} (h : (tryCatch x handle).Led m ts r) :
    (x.Led m ts r ∧ ∀ e m', r ≠ some (.error e, m')) ∨
      ∃ e m' us vs, ts = us ++ vs ∧ x.Led m us (some (.error e, m')) ∧ (handle e).Led m' vs r :=
  Dialogue.led_run_tryCatch h

/-- An error is wrapped, and that is all. -/
theorem led_wrapping {x : Work α} {f : ImportError → ImportError} {m : Memory} {ts : Turns}
    {r : Option (Except ImportError α × Memory)} (h : (x.wrapping f).Led m ts r) :
    ∃ r', x.Led m ts r' ∧ r = r'.map fun p => (p.1.mapError f, p.2) := by
  rcases led_tryCatch h with ⟨hx, hr⟩ | ⟨e, m', us, vs, rfl, hx, hthrow⟩
  · refine ⟨r, hx, ?_⟩
    match r, hr with
    | none, _ => rfl
    | some (.ok a, m'), _ => rfl
    | some (.error e, m'), hr => exact absurd rfl (hr e m')
  · obtain ⟨rfl, hr⟩ := led_done hthrow
    rw [List.append_nil]
    rcases hr with rfl | rfl
    · exact ⟨none, Dialogue.Led.unended hx, rfl⟩
    · exact ⟨_, hx, rfl⟩

/-! ### Questions -/

theorem led_ask {q : Question} {m : Memory} {ts : Turns}
    {r : Option (Except ImportError q.Answer × Memory)} (h : (ask q).Led m ts r) :
    (ts = [] ∧ r = none) ∨ ∃ a, ts = [⟨q, a⟩] ∧ (r = none ∨ r = some (.ok a, m)) := by
  cases h with
  | brokenOff => exact .inl ⟨rfl, rfl⟩
  | turn a rest =>
    obtain ⟨rfl, hr⟩ := led_done rest
    exact .inr ⟨a, rfl, hr⟩

/-- Work that begins with a question goes on with the answer. -/
theorem led_ask_bind_iff {q : Question} {f : q.Answer → Work β} {m : Memory} {ts : Turns}
    {r : Option (Except ImportError β × Memory)} :
    (ask q >>= f).Led m ts r ↔
      (ts = [] ∧ r = none) ∨ ∃ a vs, ts = ⟨q, a⟩ :: vs ∧ (f a).Led m vs r := by
  constructor
  · intro h
    cases h with
    | brokenOff => exact .inl ⟨rfl, rfl⟩
    | turn a rest => exact .inr ⟨a, _, rfl, rest⟩
  · rintro (⟨rfl, rfl⟩ | ⟨a, vs, rfl, h⟩)
    · exact .brokenOff _
    · exact .turn a h

theorem led_telling_failure {x : Work α} {text : String} {m : Memory} {ts : Turns}
    {r : Option (Except ImportError α × Memory)}
    (h : Led (tryCatch x fun e => do report (.fail text); throw e) m ts r) :
    (x.Led m ts r ∧ ∀ e m', r ≠ some (.error e, m')) ∨
      (r = none ∧ ∃ r', x.Led m ts r') ∨
        ∃ us e m', ts = us ++ [⟨.report (.fail text), ()⟩] ∧ x.Led m us (some (.error e, m')) ∧
          (r = none ∨ r = some (.error e, m')) := by
  rcases led_tryCatch h with hx | ⟨e, m', us, vs, rfl, hx, hfail⟩
  · exact .inl hx
  · rcases led_ask_bind_iff.mp hfail with ⟨rfl, rfl⟩ | ⟨⟨⟩, vs, rfl, hthrow⟩
    · rw [List.append_nil]
      exact .inr (.inl ⟨rfl, _, hx⟩)
    · obtain ⟨rfl, hr⟩ := led_done hthrow
      exact .inr (.inr ⟨us, e, m', rfl, hx, hr⟩)

/-- The last news of a step. -/
def closingNews (title : String) (closing : α → String) : Except ImportError α → Progress
  | .ok a => .success (title ++ closing a)
  | .error _ => .fail (title ++ "Failed!")

/-- A step is begun, does its work, and is ended as the work has ended. -/
theorem led_step {x : Work α} {title opening : String} {closing : α → String} {m : Memory}
    {ts : Turns} {r : Option (Except ImportError α × Memory)}
    (h : (x.step title opening closing).Led m ts r) :
    (ts = [] ∧ r = none) ∨ ∃ us r', x.Led m us r' ∧
      ((ts = ⟨.report (.start (title ++ opening)), ()⟩ :: us ∧ r = none) ∨
        ∃ result m', r' = some (result, m') ∧ (r = none ∨ r = r') ∧
          ts = ⟨.report (.start (title ++ opening)), ()⟩ ::
            (us ++ [⟨.report (closingNews title closing result), ()⟩])) := by
  rcases led_ask_bind_iff.mp h with hnone | ⟨⟨⟩, vs, rfl, hbody⟩
  · exact .inl hnone
  refine .inr ?_
  -- the work is underway, has failed, or has a result
  rcases led_bind_iff.mp hbody with
    ⟨rfl, hwork⟩ | ⟨e, m', rfl, hwork⟩ | ⟨a, m', us, ws, rfl, hwork, hend⟩
  · rcases led_telling_failure hwork with ⟨hx, -⟩ | ⟨-, r', hx⟩ | ⟨us, e, m', rfl, hx, -⟩
    · exact ⟨vs, none, hx, .inl ⟨rfl, rfl⟩⟩
    · exact ⟨vs, r', hx, .inl ⟨rfl, rfl⟩⟩
    · exact ⟨us, _, hx, .inr ⟨.error e, m', rfl, .inl rfl, rfl⟩⟩
  · rcases led_telling_failure hwork with ⟨-, hno⟩ | ⟨hno, -⟩ | ⟨us, e', m'', rfl, hx, hno | hr⟩
    · exact absurd rfl (hno e m')
    · cases hno
    · cases hno
    · cases hr
      exact ⟨us, _, hx, .inr ⟨.error e, m', rfl, .inr rfl, rfl⟩⟩
  · have hx : x.Led m us (some (.ok a, m')) := by
      rcases led_telling_failure hwork with ⟨hx, -⟩ | ⟨hno, -⟩ | ⟨-, e, m'', -, -, hno | hno⟩
      · exact hx
      · cases hno
      · cases hno
      · cases hno
    -- the end may not have been told any more
    rcases led_ask_bind_iff.mp hend with ⟨rfl, rfl⟩ | ⟨⟨⟩, ws, rfl, hpure⟩
    · rw [List.append_nil]
      exact ⟨us, _, hx, .inl ⟨rfl, rfl⟩⟩
    · obtain ⟨rfl, hr⟩ := led_done hpure
      exact ⟨us, _, hx, .inr ⟨.ok a, m', rfl, hr, rfl⟩⟩

/-! ### Work that comes to its end -/

theorem led_done_some {p p' : Except ImportError α × Memory} {ts : Turns}
    (h : Dialogue.Led (.done p) ts (some p')) : ts = [] ∧ p' = p := Dialogue.led_done_some h

theorem led_ask_bind_some {q : Question} {f : q.Answer → Work β} {m : Memory} {ts : Turns}
    {p : Except ImportError β × Memory} (h : (ask q >>= f).Led m ts (some p)) :
    ∃ a vs, ts = ⟨q, a⟩ :: vs ∧ (f a).Led m vs (some p) := by
  rcases led_ask_bind_iff.mp h with ⟨-, hr⟩ | h
  · cases hr
  · exact h

/-- The first part of a bind has failed, or both parts have been led. -/
theorem led_bind_some {x : Work α} {f : α → Work β} {m m' : Memory} {ts : Turns}
    {result : Except ImportError β} (h : (x >>= f).Led m ts (some (result, m'))) :
    (∃ e, result = .error e ∧ x.Led m ts (some (.error e, m'))) ∨
      ∃ a m₁ us vs, ts = us ++ vs ∧ x.Led m us (some (.ok a, m₁)) ∧
        (f a).Led m₁ vs (some (result, m')) := by
  rcases led_bind_iff.mp h with ⟨hr, -⟩ | ⟨e, m₁, hr, hx⟩ | h
  · cases hr
  · cases hr
    exact .inl ⟨e, rfl, hx⟩
  · exact .inr h

/-- Both parts of a bind that succeeds have succeeded. -/
theorem led_bind_ok {x : Work α} {f : α → Work β} {m m' : Memory} {ts : Turns} {b : β}
    (h : (x >>= f).Led m ts (some (.ok b, m'))) :
    ∃ a m₁ us vs, ts = us ++ vs ∧ x.Led m us (some (.ok a, m₁)) ∧
      (f a).Led m₁ vs (some (.ok b, m')) := by
  rcases led_bind_some h with ⟨e, hr, -⟩ | h
  · cases hr
  · exact h

/-- An error is wrapped, and that is all. -/
theorem led_wrapping_some {x : Work α} {f : ImportError → ImportError} {m m' : Memory} {ts : Turns}
    {result : Except ImportError α} (h : (x.wrapping f).Led m ts (some (result, m'))) :
    ∃ result', x.Led m ts (some (result', m')) ∧ result = result'.mapError f := by
  obtain ⟨r', hx, hr⟩ := led_wrapping h
  obtain ⟨⟨result', m''⟩, rfl, hr⟩ := Option.map_eq_some_iff.mp hr.symm
  cases hr
  exact ⟨result', hx, rfl⟩

/-- Work of which the result is of no interest. -/
theorem led_discard_some {x : Work α} {m m' : Memory} {ts : Turns}
    {result : Except ImportError PUnit} (h : (discard x).Led m ts (some (result, m'))) :
    ∃ result', x.Led m ts (some (result', m')) ∧ result = result'.map fun _ => PUnit.unit := by
  have hbind : (x >>= fun _ => pure PUnit.unit).Led m ts (some (result, m')) := h
  rcases led_bind_some hbind with ⟨e, rfl, hx⟩ | ⟨a, m₁, us, vs, rfl, hx, hend⟩
  · exact ⟨.error e, hx, rfl⟩
  · obtain ⟨rfl, hend⟩ := led_done_some hend
    cases hend
    rw [List.append_nil]
    exact ⟨.ok a, hx, rfl⟩

theorem led_wrapping_ok {x : Work α} {f : ImportError → ImportError} {m m' : Memory} {ts : Turns}
    {a : α} (h : (x.wrapping f).Led m ts (some (.ok a, m'))) : x.Led m ts (some (.ok a, m')) := by
  obtain ⟨result, hx, hr⟩ := led_wrapping_some h
  cases result with
  | error e => cases hr
  | ok b =>
    cases hr
    exact hx

theorem led_step_ok {x : Work α} {title opening : String} {closing : α → String} {m m' : Memory}
    {ts : Turns} {a : α} (h : (x.step title opening closing).Led m ts (some (.ok a, m'))) :
    ∃ us, ts = ⟨.report (.start (title ++ opening)), ()⟩ ::
        (us ++ [⟨.report (.success (title ++ closing a)), ()⟩]) ∧
      x.Led m us (some (.ok a, m')) := by
  rcases led_step h with ⟨-, hr⟩ | ⟨us, r', hx, ⟨-, hr⟩ | ⟨result, m'', rfl, hr | hr, rfl⟩⟩
  · cases hr
  · cases hr
  · cases hr
  · cases hr
    exact ⟨us, rfl, hx⟩

/-- Work that begins with a call goes on with the answer, or ends there if the call is given up. -/
theorem led_call_bind_some {c : Call} {f : c.Answer → Work β} {m : Memory} {ts : Turns}
    {p : Except ImportError β × Memory} (h : (call c >>= f).Led m ts (some p)) :
    (∃ a us, callLog ts = ⟨c, some a⟩ :: callLog us ∧ (f a).Led m us (some p)) ∨
      callLog ts = [⟨c, none⟩] ∧ p = (.error .cancelled, m) := by
  rw [call, bind_assoc] at h
  obtain ⟨reply, us, rfl, hrest⟩ := led_ask_bind_some h
  cases reply with
  | answered a => exact .inl ⟨a, us, rfl, hrest⟩
  | cancelled | late =>
    obtain ⟨rfl, hp⟩ := led_done_some hrest
    exact .inr ⟨rfl, hp⟩

theorem led_call_ok {c : Call} {m m' : Memory} {ts : Turns} {a : c.Answer}
    (h : (call c).Led m ts (some (.ok a, m'))) :
    ts = [⟨.guarded c none, .answered a⟩] ∧ m' = m := by
  obtain ⟨reply, vs, rfl, hrest⟩ := led_ask_bind_some h
  cases reply with
  | answered b =>
    obtain ⟨rfl, hr⟩ := led_done_some hrest
    cases hr
    exact ⟨rfl, rfl⟩
  | cancelled | late =>
    obtain ⟨-, hr⟩ := led_done_some hrest
    cases hr

theorem led_orThrow_some {x : Except ImportError α} {m : Memory} {ts : Turns}
    {p : Except ImportError α × Memory} (h : (orThrow x).Led m ts (some p)) :
    ts = [] ∧ p = (x, m) := by
  cases x <;> exact led_done_some h

theorem led_orThrow_ok {x : Except ImportError α} {m m' : Memory} {ts : Turns} {a : α}
    (h : (orThrow x).Led m ts (some (.ok a, m'))) : x = .ok a ∧ ts = [] ∧ m' = m := by
  obtain ⟨rfl, hr⟩ := led_orThrow_some h
  cases hr
  exact ⟨rfl, rfl, rfl⟩

/-- Every round of a loop that succeeds has succeeded. -/
theorem led_mapM_ok {as : List α} {f : α → Work β} {m m' : Memory} {ts : Turns} {bs : List β}
    (h : (as.mapM f).Led m ts (some (.ok bs, m'))) :
    ∀ a ∈ as, ∃ b m₁ m₂ us, (f a).Led m₁ us (some (.ok b, m₂)) := by
  induction as generalizing m m' ts bs with
  | nil => exact fun _ ha => nomatch ha
  | cons a as ih =>
    rw [List.mapM_cons] at h
    obtain ⟨b, m₁, us, vs, -, hround, h⟩ := led_bind_ok h
    obtain ⟨bs', m₂, us', ws, -, hrest, -⟩ := led_bind_ok h
    exact List.forall_mem_cons.mpr ⟨⟨b, m, m₁, us, hround⟩, ih hrest⟩

end Work

end PlaneRestore
