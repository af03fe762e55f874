import PlaneRestore.Proofs.Import.Finish
import PlaneRestore.Proofs.Plane.Play
/-!
What an import does to the plane in memory.

`import_yields_outcome`: after an import that succeeds, there is in every slot what `outcome` says.
This holds for every well-kept plane, whatever it holds, hides and lets fail.
-/

namespace PlaneRestore

open MemoryPlane Words

variable {s : ExportedState} {o : ImportOptions} {p q q' : MemoryPlane} {ts : Turns}

/-- A plane that is underway stays so, however far a run comes. -/
theorem MemoryPlane.Underway.serves {result : Option (Except ImportError ImportReport)}
    (h : Underway s o p q) (hs : s.WellFormed) (hrun : ImportRun s o ts result)
    (hserves : q.Serves (callLog ts) q') : Underway s o p q' := by
  obtain ⟨counts, w, hw, hstarts⟩ := hrun.starts hs
  exact (carries_importing counts q h w hw (callLog ts) q' hstarts hserves).1

/-- A run that succeeds carries a plane that is underway to the outcome. -/
theorem MemoryPlane.Underway.arrives {report : ImportReport} (h : Underway s o p q)
    (hs : s.WellFormed) (hrun : ImportRun s o ts (some (.ok report)))
    (hserves : q.Serves (callLog ts) q') :
    Underway s o p q' ∧ (∀ x, q'.get? x = p.outcome s o x) ∧
      report = importReport o s ((unpausedCategories o).map q'.countOf) := by
  obtain ⟨counts, rfl, hw⟩ := hrun.whole hs
  obtain ⟨hunderway, hwhole⟩ := carries_importing counts q h _ hw _ q' (.refl _) hserves
  obtain ⟨-, houtcome, rfl⟩ := hwhole rfl
  exact ⟨hunderway, houtcome, rfl⟩

/-- **After an import that succeeds, an object that was there is what it was, and a slot that was
free has what the first manifest for it makes**: without the fields that a server fills in, paused
if it is of another group than the base groups and of a kind to be paused, with the conditions that
new objects of its kind have. In both cases the pause is lifted if it has to be. Nothing else is
there. -/
theorem import_yields_outcome {report : ImportReport} (hs : s.Reachable) (hp : p.WellKept)
    (hrun : ImportRun s o ts (some (.ok report))) (hserves : p.Serves (callLog ts) q) :
    s.ListedByName ∧ ∀ x, q.get? x =
      ((p.get? x).or ((s.plan.find? (·.1.resource.slot = x)).map fun task =>
        p.stored x.kind (p.submission task))).map fun r =>
          if p.isUnpaused o x.kind then r.unpause else r :=
  ⟨hs.wellFormed.listedByName, ((Underway.refl hp).arrives hs.wellFormed hrun hserves).2.1⟩

theorem import_yields_outcome_sample :
    ((Sample.planeAfter.get? ⟨⟨"aws.example.io", "Bucket"⟩, ⟨none, "logs"⟩⟩).bind
        (·.annotation? pausedKey)) = some "true" ∧
      Sample.planeAfter.get? ⟨⟨"aws.example.io", "Bucket"⟩, ⟨none, "other"⟩⟩ = none := by
  have h := (import_yields_outcome Sample.reachable_state Sample.wellKept_plane
    Sample.importRun_turns Sample.serves_turns).2
  rw [h, h]
  decide +kernel

end PlaneRestore
