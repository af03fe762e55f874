import PlaneRestore.Proofs.Import.Result
/-!
Imports that are tried again.

* `Attempts s o p q`: after some imports of `s` into the plane `p`, each of which may have ended in
  any way, the plane is `q`.
* `interrupted_imports_converge`: when an import succeeds in the end, nothing is left to be seen of
  the earlier ones. The objects and the report are those of a single import.
-/

namespace PlaneRestore

open MemoryPlane Words

variable {s : ExportedState} {o : ImportOptions} {p q : MemoryPlane}

/-- Imports of `s` have been tried, one after another. Between them nobody else writes to the plane,
and the same kinds are served; other calls may fail than before. -/
inductive Attempts (s : ExportedState) (o : ImportOptions) (p : MemoryPlane) : MemoryPlane → Prop
  | none : Attempts s o p p
  | changed {q q' : MemoryPlane} (h : Attempts s o p q) (service : SameService q q')
      (objects : q'.objects = q.objects) : Attempts s o p q'
  | tried {q q' : MemoryPlane} {ts : Turns} {result : Option (Except ImportError ImportReport)}
      (h : Attempts s o p q) (run : ImportRun s o ts result) (serves : q.Serves (callLog ts) q') :
      Attempts s o p q'

theorem Attempts.underway (h : Attempts s o p q) (hs : s.WellFormed) (hp : p.WellKept) :
    Underway s o p q := by
  induction h with
  | none => exact .refl hp
  | changed _ service objects ih => exact underway_stable _ _ ih service objects
  | tried _ run serves ih => exact ih.serves hs run serves

/-- Imports that succeed agree, whatever has been tried before each of them. -/
theorem Attempts.agree {q₁ q₂ q₁' q₂' : MemoryPlane} {ts₁ ts₂ : Turns}
    {report₁ report₂ : ImportReport} (hs : s.WellFormed) (hp : p.WellKept)
    (h₁ : Attempts s o p q₁) (run₁ : ImportRun s o ts₁ (some (.ok report₁)))
    (serves₁ : q₁.Serves (callLog ts₁) q₁')
    (h₂ : Attempts s o p q₂) (run₂ : ImportRun s o ts₂ (some (.ok report₂)))
    (serves₂ : q₂.Serves (callLog ts₂) q₂') : q₁'.objects = q₂'.objects ∧ report₁ = report₂ := by
  obtain ⟨hq₁, houtcome₁, rfl⟩ := (h₁.underway hs hp).arrives hs run₁ serves₁
  obtain ⟨hq₂, houtcome₂, rfl⟩ := (h₂.underway hs hp).arrives hs run₂ serves₂
  have hobjects : q₁'.objects = q₂'.objects := by
    refine hq₁.wellKept.ordered.ext hq₂.wellKept.ordered fun x => ?_
    exact (houtcome₁ x).trans (houtcome₂ x).symm
  -- the reports count the same objects of the same kinds
  have hkinds : q₁'.kinds = q₂'.kinds := hq₁.service.kinds.trans hq₂.service.kinds.symm
  have hcount : q₁'.countOf = q₂'.countOf := by
    funext c
    rw [countOf, countOf, resolve, resolve, hkinds]
    simp only [objectsOf, hobjects]
  exact ⟨hobjects, by rw [hcount]⟩

/-- **However many imports have been tried, and however they have ended: once one succeeds, there is
in every slot what `outcome` says**, and the objects and the report are the same as after a single
successful import, or after yet another one. -/
theorem interrupted_imports_converge {q' : MemoryPlane} {ts : Turns} {report : ImportReport}
    (hs : s.Reachable) (hp : p.WellKept) (hattempts : Attempts s o p q)
    (hrun : ImportRun s o ts (some (.ok report))) (hserves : q.Serves (callLog ts) q') :
    (∀ x, q'.get? x = p.outcome s o x) ∧
      (∀ p₁ q₁ ts₁ report₁, SameService p p₁ → p₁.objects = p.objects →
        ImportRun s o ts₁ (some (.ok report₁)) → p₁.Serves (callLog ts₁) q₁ →
          q₁.objects = q'.objects ∧ report₁ = report) ∧
        ∀ p₂ q₂ ts₂ report₂, SameService q' p₂ → p₂.objects = q'.objects →
          ImportRun s o ts₂ (some (.ok report₂)) → p₂.Serves (callLog ts₂) q₂ →
            q₂.objects = q'.objects ∧ report₂ = report := by
  have hwf := hs.wellFormed
  refine ⟨((hattempts.underway hwf hp).arrives hwf hrun hserves).2.1, ?_, ?_⟩
  · intro p₁ q₁ ts₁ report₁ service objects run₁ serves₁
    exact Attempts.agree hwf hp (.changed .none service objects) run₁ serves₁ hattempts hrun hserves
  · intro p₂ q₂ ts₂ report₂ service objects run₂ serves₂
    have hafter : Attempts s o p p₂ := .changed (.tried hattempts hrun hserves) service objects
    exact Attempts.agree hwf hp hafter run₂ serves₂ hattempts hrun hserves

namespace Sample

/-- The plane after an import in which this has failed, and on which it is possible now. -/
def planeRepaired : MemoryPlane :=
  { planeFailing.after (callLog (planeFailing.playedTurns state options)) with
    createFailures := [] }

/-- The plane after another import. -/
def planeResumed : MemoryPlane :=
  planeRepaired.after (callLog (planeRepaired.playedTurns state options))

end Sample

theorem interrupted_imports_converge_sample :
    Sample.planeAfter.objects = Sample.planeResumed.objects := by
  have hfailing : Attempts Sample.state Sample.options Sample.plane Sample.planeFailing :=
    .changed .none ⟨rfl, rfl⟩ rfl
  have hattempts : Attempts Sample.state Sample.options Sample.plane Sample.planeRepaired :=
    .changed (hfailing.tried (importRun_played _ _ _) (answers_played _ _ _).serves) ⟨rfl, rfl⟩ rfl
  have hrun : ImportRun Sample.state Sample.options
      (Sample.planeRepaired.playedTurns Sample.state Sample.options) (some (.ok Sample.report)) :=
    importRun_of_played (by decide +kernel)
  obtain ⟨-, hsingle, -⟩ := interrupted_imports_converge Sample.reachable_state
    Sample.wellKept_plane hattempts hrun (answers_played _ _ _).serves
  exact (hsingle _ _ _ _ (.refl _) rfl Sample.importRun_turns Sample.serves_turns).1

end PlaneRestore
