import PlaneRestore.Dialogue
/-!
Dialogues that may fail and that have a state.

`Dialogue.run_bind` and `Dialogue.run_tryCatch` say what such a dialogue asks, and
`Dialogue.led_run_bind_iff` and `Dialogue.led_run_tryCatch` cut its runs: the first part is broken
off, or fails, or gives its result to the second.
-/

namespace PlaneRestore.Dialogue

variable {Q : Type} {A : Q → Type} {ε σ α β : Type}

/-- Before a dialogue was led to its end, it was going on. -/
theorem Led.unended {x : Dialogue Q A α} {ts : List (Turn Q A)} {r : Option α} (h : Led x ts r) :
    Led x ts none := by
  induction h with
  | ended a => exact .brokenOff _
  | brokenOff x => exact .brokenOff x
  | turn a _ ih => exact .turn a ih

theorem led_done {a : α} {ts : List (Turn Q A)} {r : Option α} (h : Led (done a) ts r) :
    ts = [] ∧ (r = none ∨ r = some a) := by
  cases h with
  | ended => exact ⟨rfl, .inr rfl⟩
  | brokenOff => exact ⟨rfl, .inl rfl⟩

theorem led_done_some {a b : α} {ts : List (Turn Q A)} (h : Led (done a) ts (some b)) :
    ts = [] ∧ b = a := by
  obtain ⟨rfl, hr | hr⟩ := led_done h
  · cases hr
  · cases hr
    exact ⟨rfl, rfl⟩

/-- What was led to its end, and was led so far again, goes on with its result. -/
theorem Led.resume {x : Dialogue Q A α} {f : α → Dialogue Q A β} {a : α} {us vs : List (Turn Q A)}
    {r : Option β} (hx : Led x us (some a)) (h : Led (x >>= f) (us ++ vs) r) :
    Led (f a) vs r := by
  generalize hs : some a = s at hx
  induction hx with
  | ended b =>
    cases hs
    exact h
  | brokenOff x => cases hs
  | turn b _ ih =>
    cases h with
    | turn _ rest => exact ih rest hs

theorem led_map_iff {f : α → β} {x : Dialogue Q A α} {ts : List (Turn Q A)} {r : Option β} :
    Led (f <$> x) ts r ↔ ∃ r', Led x ts r' ∧ r = r'.map f := by
  rw [map_eq_pure_bind]
  constructor
  · intro h
    rcases led_bind_iff.mp h with ⟨rfl, hx⟩ | ⟨a, us, vs, rfl, hx, hend⟩
    · exact ⟨none, hx, rfl⟩
    -- the second part asks nothing
    · obtain ⟨rfl, rfl | rfl⟩ := led_done hend
      · rw [List.append_nil]
        exact ⟨none, hx.unended, rfl⟩
      · rw [List.append_nil]
        exact ⟨some a, hx, rfl⟩
  · rintro ⟨r', hx, rfl⟩
    cases r' with
    | none => exact hx.bind_brokenOff _
    | some a =>
      rw [← List.append_nil ts]
      exact hx.bind_ended (.ended (f a))

theorem run_bind (x : ExceptT ε (StateT σ (Dialogue Q A)) α)
    (f : α → ExceptT ε (StateT σ (Dialogue Q A)) β) (s : σ) :
    (x >>= f).run.run s = x.run.run s >>= fun p => match p with
      | (.ok a, s') => (f a).run.run s'
      | (.error e, s') => .done (.error e, s') := by
  -- the layers of errors and of the state are unfolded; what is left differs in its matches only
  show (x.run.run s >>= fun p => _) = _
  congr 1
  funext ⟨r, s'⟩
  cases r <;> rfl

theorem run_get_bind (f : σ → ExceptT ε (StateT σ (Dialogue Q A)) α) (s : σ) :
    (get >>= f).run.run s = (f s).run.run s := rfl

/-- The first part of a bind is broken off, or fails, or gives its result to the second. -/
theorem led_run_bind_iff {x : ExceptT ε (StateT σ (Dialogue Q A)) α}
    {f : α → ExceptT ε (StateT σ (Dialogue Q A)) β} {s : σ} {ts : List (Turn Q A)}
    {r : Option (Except ε β × σ)} :
    Led ((x >>= f).run.run s) ts r ↔
      (r = none ∧ Led (x.run.run s) ts none) ∨
        (∃ e s', r = some (.error e, s') ∧ Led (x.run.run s) ts (some (.error e, s'))) ∨
          ∃ a s' us vs, ts = us ++ vs ∧ Led (x.run.run s) us (some (.ok a, s')) ∧
            Led ((f a).run.run s') vs r := by
  -- an error of the first part is a result for the dialogue, which goes on to do nothing
  rw [run_bind, led_bind_iff]
  constructor
  · rintro (⟨rfl, h⟩ | ⟨⟨e | a, s'⟩, us, vs, rfl, hx, hf⟩)
    · exact .inl ⟨rfl, h⟩
    · -- the second part is not begun
      obtain ⟨rfl, rfl | rfl⟩ := led_done hf
      · rw [List.append_nil]
        exact .inl ⟨rfl, hx.unended⟩
      · rw [List.append_nil]
        exact .inr (.inl ⟨e, s', rfl, hx⟩)
    · exact .inr (.inr ⟨a, s', us, vs, rfl, hx, hf⟩)
  · rintro (⟨rfl, h⟩ | ⟨e, s', rfl, h⟩ | ⟨a, s', us, vs, rfl, hx, hf⟩)
    · exact .inl ⟨rfl, h⟩
    · exact .inr ⟨(.error e, s'), ts, [], (List.append_nil ts).symm, h, .ended _⟩
    · exact .inr ⟨(.ok a, s'), us, vs, rfl, hx, hf⟩

theorem run_tryCatch (x : ExceptT ε (StateT σ (Dialogue Q A)) α)
    (handle : ε → ExceptT ε (StateT σ (Dialogue Q A)) α) (s : σ) :
    (tryCatch x handle).run.run s = x.run.run s >>= fun p => match p with
      | (.ok a, s') => .done (.ok a, s')
      | (.error e, s') => (handle e).run.run s' := by
  show (x.run.run s >>= fun p => _) = _
  congr 1
  funext ⟨r, s'⟩
  cases r <;> rfl

/-- What may fail is led until it does; the rest is done about the error. -/
theorem led_run_tryCatch {x : ExceptT ε (StateT σ (Dialogue Q A)) α}
    {handle : ε → ExceptT ε (StateT σ (Dialogue Q A)) α} {s : σ} {ts : List (Turn Q A)}
    {r : Option (Except ε α × σ)} (h : Led ((tryCatch x handle).run.run s) ts r) :
    (Led (x.run.run s) ts r ∧ ∀ e s', r ≠ some (.error e, s')) ∨
      ∃ e s' us vs, ts = us ++ vs ∧ Led (x.run.run s) us (some (.error e, s')) ∧
        Led ((handle e).run.run s') vs r := by
  rw [run_tryCatch, led_bind_iff] at h
  rcases h with ⟨rfl, h⟩ | ⟨⟨e | a, s'⟩, us, vs, rfl, hx, hf⟩
  · exact .inl ⟨h, by simp⟩
  · exact .inr ⟨e, s', us, vs, rfl, hx, hf⟩
  · obtain ⟨rfl, rfl | rfl⟩ := led_done hf
    · rw [List.append_nil]
      exact .inl ⟨hx.unended, by simp⟩
    · rw [List.append_nil]
      exact .inl ⟨hx, by simp⟩

end PlaneRestore.Dialogue
