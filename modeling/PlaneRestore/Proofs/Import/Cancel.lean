import PlaneRestore.Proofs.Import.Stages
import PlaneRestore.Proofs.Import.Success
import PlaneRestore.Proofs.Plane.Play
import PlaneRestore.Proofs.Simulation.Cancel
/-!
What a cancellation stops of an import.

`import_stops_when_cancelled`: whenever an import or a preflight is cancelled, no call is begun any
more, except that an import may still have the mappings reset; a call that is not answered by then
is given up, and so is the whole. An import that succeeds nevertheless has made all its calls by
then.
-/

namespace PlaneRestore

namespace Work

open Dialogue

/-! ### Preflights -/

/-- The archive is read whether the run is cancelled or not. -/
theorem heeds_heldState (C : Except ImportError ExportedState × Memory → Prop) (archive : String)
    (m : Memory) : Dialogue.Heeds C 0 ((heldState archive).run.run m) := by
  obtain ⟨state, pausable⟩ := m
  cases state with
  | some s => exact .done 0 (Except.ok s, _)
  | none =>
    refine .asking rfl (fun _ ha => nomatch ha) fun found _ => ?_
    cases found with
    | ok s => exact .done 0 (Except.ok s, _)
    | error e => exact .done 0 (Except.error e, _)

theorem heeds_preflight (o : ImportOptions) (m : Memory) :
    Dialogue.Heeds (fun p => p.1 = .ok [.cancelled]) 0 ((preflight o).run.run m) := by
  refine .asking rfl (fun reply hreply => ?_) fun reply hreply => ?_
  · cases reply with
    | cancelled => exact .done rfl
    | answered a | late => cases hreply
  · cases reply with
    | cancelled => cases hreply
    | late => exact .done 0 (Except.ok [PreflightIssue.cancelled], m)
    | answered observed =>
      cases observed with
      | error e => exact .done 0 (Except.ok [PreflightIssue.engineInfo e], m)
      | ok observed =>
        -- the rest asks for nothing but the archive
        change Dialogue.Heeds _ 0
          ((tryCatch (Except.ok <$> heldState o.inputArchive) _ >>= _).run.run m)
        rw [run_bind, run_tryCatch, map_eq_pure_bind, run_bind]
        have hheld := heeds_heldState (fun _ => False) o.inputArchive m
        refine Heeds.bind_unbroken (k := 0) (n := 0) (.bind_unbroken (k := 0) (n := 0)
          (.bind_unbroken (k := 0) (n := 0) hheld ?_) ?_) ?_
        · rintro ⟨e | s, m'⟩
          · exact .done 0 (Except.error e, m')
          · exact .done 0 (Except.ok (Except.ok s), m')
        · rintro ⟨e | found, m'⟩
          · exact .done 0 (Except.ok (Except.error e), m')
          · exact .done 0 (Except.ok found, m')
        · rintro ⟨e | (e | s), m'⟩
          · exact .done 0 (Except.error e, m')
          · exact .done 0 (Except.ok [unarchiveIssue e], m')
          · dsimp only
            cases s.exportMeta with
            | ok exported => exact .done 0 (Except.ok (compatibilityIssues exported observed), m')
            | error e => exact .done 0 (Except.ok [PreflightIssue.metadata e], m')

/-! ### Imports that succeed -/

/-- The category of composite resources is always resolved in the end. -/
theorem resolves_of_unpauseComposites {m m' : Memory} {ts : Turns} {counts : List (String × Nat)}
    (h : unpauseComposites.Led m ts (some (.ok counts, m'))) :
    ∃ a, (⟨.guarded (.resolve .composite) none, .answered a⟩ :
      Turn Question Question.Answer) ∈ ts := by
  obtain ⟨us, rfl, hwork⟩ := led_step_ok h
  obtain ⟨composites, m₁, us, vs, rfl, hunpause, -⟩ := led_bind_ok hwork
  obtain ⟨count, m₂, us, ws, rfl, hmodify, -⟩ := led_bind_ok hunpause
  have hinside := led_wrapping_ok (led_wrapping_ok hmodify)
  obtain ⟨a, m₃, us, ws', rfl, hcall, -⟩ := led_bind_ok hinside
  obtain ⟨rfl, -⟩ := led_call_ok hcall
  exact ⟨a, by simp⟩

/-- No call of a step is seen through to its end. -/
theorem IsStaged.not_isThrough {α : Type} {x : Work α} {m : Memory} {ts : Turns}
    {r : Option (Except ImportError α × Memory)} (h : IsStaged 0 x) (hled : x.Led m ts r) :
    ∀ t ∈ ts, t.1.isThrough = false :=
  (h.heeds m).not_isThrough hled

/-- After the one call that is seen through to its end, an import that succeeds makes others. -/
theorem Succeeds.split {o : ImportOptions} {m : Memory} {ts : Turns} {report : ImportReport}
    (h : Succeeds o m ts report) :
    ∃ us vs, ts = us ++ ⟨.call .reset, ()⟩ :: vs ∧ (∀ t ∈ vs, t.1.isThrough = false) ∧
      ∃ t ∈ vs, t.1.isBreakable = true := by
  cases h with
  | intro _ _ _ _ bringingLater unpausing unpausingManaged =>
    refine ⟨_, _, rfl, ?_, ?_⟩
    · intro t ht
      rcases List.mem_append.mp ht with ht | ht
      · rcases List.mem_append.mp ht with ht | ht
        · exact (isStaged_importRemaining _).not_isThrough bringingLater t ht
        · exact isStaged_unpauseComposites.not_isThrough unpausing t ht
      · exact (isStaged_unpauseManaged o).not_isThrough unpausingManaged t ht
    · obtain ⟨a, ha⟩ := resolves_of_unpauseComposites unpausing
      exact ⟨_, List.mem_append_left _ (List.mem_append_right _ ha), rfl⟩

/-- What an import that succeeds does in a cancelled run needs no calls. -/
theorem Succeeds.not_isThrough {o : ImportOptions} {m : Memory} {us vs : Turns}
    {report : ImportReport} (h : Succeeds o m (us ++ vs) report)
    (hvs : ∀ t ∈ vs, t.1.isBreakable = false) : ∀ t ∈ vs, t.1.isThrough = false := by
  obtain ⟨pre, post, hsplit, hthrough, t, ht, hbreakable⟩ := h.split
  -- the cut comes after the reset, as there are calls after it that can be broken off
  have hnot : ¬∃ ws, vs = ws ++ ⟨.call .reset, ()⟩ :: post := by
    rintro ⟨ws, rfl⟩
    have := hvs t (List.mem_append_right _ (List.mem_cons_of_mem _ ht))
    rw [hbreakable] at this
    cases this
  rcases List.append_eq_append_iff.mp hsplit with ⟨ws, rfl, rfl⟩ | ⟨ws, rfl, hpost⟩
  · exact absurd ⟨ws, rfl⟩ hnot
  · cases ws with
    | nil => exact absurd ⟨[], hpost.symm⟩ hnot
    | cons t' ws =>
      obtain ⟨-, rfl⟩ := List.cons.inj hpost
      exact fun t ht => hthrough t (List.mem_append_right _ ht)

end Work

/-- **A cancellation stops the calls of an import.** Whatever the plane does and whenever the run
is cancelled, before it is begun, between calls or during one: neither an import nor a preflight
begins another call, except that an import may have the mappings reset, once. A call that is not
answered by then is given up, and the result is a cancellation. If an import succeeds nevertheless,
all its calls had been begun before. -/
theorem import_stops_when_cancelled {σ : Type} (P : Plane σ) (o : ImportOptions) (m : Memory) :
    StopsWhenCancelled P (fun p => p.1 = .error .cancelled) 1 ((Work.importState o).run.run m) ∧
      StopsWhenCancelled P (fun p => p.1 = .ok [.cancelled]) 0 ((Work.preflight o).run.run m) ∧
        ∀ (us vs : Turns) (report : ImportReport) (m' : Memory) (w w₁ w' : World σ),
          (Work.importState o).Led m (us ++ vs) (some (.ok report, m')) → w.Unfolds P us w₁ →
            w₁.isCancelled = true → w₁.Unfolds P vs w' → w'.begun = w₁.begun := by
  have hstops := ((Work.isStaged_importState o).heeds m).stops P
  refine ⟨hstops, (Work.heeds_preflight o m).stops P, ?_⟩
  intro us vs report m' w w₁ w' hled _ hcancelled hafter
  refine hafter.begun_eq hcancelled ((Work.succeeds_of_led hled).not_isThrough fun t ht => ?_)
  -- no answer was refused, as the import has succeeded
  rw [← Bool.not_eq_true]
  intro hbreakable
  have hrefused := hafter.refused hcancelled t ht hbreakable
  exact absurd (hstops.refused hled ⟨t, List.mem_append_right us ht, hrefused⟩) (by simp)

/-- Leads a session for some questions in a world. What is left of it is led from the new world. -/
def Dialogue.lead {σ α : Type} (P : Plane σ) :
    Nat → Session α → World σ → Option (Turns × Session α × World σ)
  | n + 1, andThen q next, w => do
    let (a, w) ← w.answer P q
    let (ts, rest, w) ← (next a).lead P n w
    return (⟨q, a⟩ :: ts, rest, w)
  | _, session, w => some ([], session, w)

theorem Dialogue.led_lead {σ α : Type} {P : Plane σ} {n : Nat} {session rest : Session α}
    {w w' : World σ} {us : Turns} (h : session.lead P n w = some (us, rest, w')) :
    w.Answers P us w' ∧ ∀ vs r, rest.Led vs r → session.Led (us ++ vs) r := by
  induction n generalizing session w us with
  -- no turn is led, and the rest is the whole session
  | zero =>
    cases session <;>
    · cases h
      exact ⟨.nil _, fun vs r hled => hled⟩
  | succ n ih =>
    cases session with
    | done a =>
      cases h
      exact ⟨.nil _, fun vs r hled => hled⟩
    | andThen q next =>
      obtain ⟨⟨a, w₁⟩, hanswer, h⟩ := Option.bind_eq_some_iff.mp h
      obtain ⟨⟨ts, rest', w₂⟩, hlead, h⟩ := Option.bind_eq_some_iff.mp h
      cases h
      obtain ⟨hanswers, hled⟩ := ih hlead
      exact ⟨.cons hanswer hanswers, fun vs r hrest => .turn a (hled vs r hrest)⟩

namespace Sample

/-- The small exported state has been read. -/
def memory : Memory := ⟨some state, none⟩

/-- A world in which the run is cancelled by the last call of its import, which is answered. -/
def worldCancelling : World ScriptedPlane :=
  .start ⟨plane, [], [], some 18, 0, []⟩ fun _ => .absent

/-- A world in which the run is cancelled by the first call, before that is answered. -/
def worldDelaying : World ScriptedPlane :=
  .start ⟨plane, [], [("Observe", 5)], some 1, 0, []⟩ fun _ => .absent

end Sample

open Sample in
theorem import_stops_when_cancelled_sample :
    (∃ us vs report m' w₁ w', (Work.importState options).Led memory (us ++ vs)
        (some (.ok report, m')) ∧ worldCancelling.Unfolds scripted us w₁ ∧
          w₁.Unfolds scripted vs w' ∧ w₁.isCancelled = true ∧ w'.begun = w₁.begun) ∧
      ∃ ts m' w', (Work.preflight options).Led memory ts (some (.ok [.cancelled], m')) ∧
        worldDelaying.Unfolds scripted ts w' ∧ w'.begun = [.observe] := by
  obtain ⟨-, hpreflight, hsuccess⟩ := import_stops_when_cancelled scripted options memory
  refine ⟨?_, ?_⟩
  · -- the last call is answered to the 50th question
    have hrun : ((((Work.importState options).run.run memory).lead scripted 50
        worldCancelling).bind fun p => (p.2.1.runIn scripted p.2.2).map fun r =>
          (p.2.2.isCancelled, r.1.1.toOption.isSome)) = some (true, true) := by
      decide +kernel
    obtain ⟨⟨us, rest, w₁⟩, hlead, h⟩ := Option.bind_eq_some_iff.mp hrun
    obtain ⟨⟨⟨result, m'⟩, w'⟩, hrest, h⟩ := Option.map_eq_some_iff.mp h
    obtain ⟨hcancelled, hok⟩ := Prod.mk.inj h
    cases result with
    | error e => cases hok
    | ok report =>
      obtain ⟨hbefore, hled⟩ := Dialogue.led_lead hlead
      obtain ⟨vs, hrest, hafter⟩ := Dialogue.led_of_runIn hrest
      have hall := hled vs _ hrest
      exact ⟨us, vs, report, m', w₁, w', hall, hbefore.unfolds, hafter.unfolds, hcancelled,
        hsuccess us vs report m' _ w₁ w' hall hbefore.unfolds hcancelled hafter.unfolds⟩
  · have hpending : worldDelaying.Interrupts scripted .observe none 0 :=
      ⟨rfl, fun _ h => (nomatch h), by decide +kernel, by decide +kernel,
        fun _ _ => Nat.zero_le _, fun _ h => (nomatch h)⟩
    have hasked : (Work.preflight options).Led memory
        ([] ++ [⟨.guarded .observe none, .cancelled⟩]) none := .turn _ (.brokenOff _)
    obtain ⟨w₂, vs, ⟨result, m'⟩, w', hanswer, -, hled, rfl, hafter, -, hbegun⟩ :=
      hpreflight.pending hasked (.nil worldDelaying) hpending
    exact ⟨_, m', w', hled, .turn hanswer hafter.unfolds, hbegun⟩

end PlaneRestore
