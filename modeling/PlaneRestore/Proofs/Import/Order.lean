import PlaneRestore.Proofs.Plane.Play
/-!
The order of the calls of an import.

`import_calls_in_order`: whatever the control plane answers, whenever it answers and whenever the
run is cancelled, the calls are the start of a word of `importing`; they are a whole word if it
succeeds. So kinds are resolved only after the one reset, and nothing is replaced before the end.
-/

namespace PlaneRestore

/-- **In every run, the calls are those of the base groups, the waits, one reset, the other groups
and the end**, in this order and as far as the run comes; a run that succeeds makes all of them. The
groups and their manifests are in the order of their names. -/
theorem import_calls_in_order {s : ExportedState} {o : ImportOptions} {ts : Turns}
    {result : Option (Except ImportError ImportReport)} (hs : s.Reachable)
    (hrun : ImportRun s o ts result) :
    s.ListedByName ∧ (∃ counts, ∃ w ∈ importing o s counts, Starts (callLog ts) w) ∧
      ∀ report, result = some (.ok report) →
        ∃ counts, report = importReport o s counts ∧ callLog ts ∈ importing o s counts := by
  refine ⟨hs.wellFormed.listedByName, hrun.starts hs.wellFormed, ?_⟩
  rintro report rfl
  exact hrun.whole hs.wellFormed

theorem import_calls_in_order_sample :
    ∃ counts, Sample.report = importReport Sample.options Sample.state counts ∧
      callLog Sample.turns ∈ importing Sample.options Sample.state counts :=
  (import_calls_in_order Sample.reachable_state Sample.importRun_turns).2.2 Sample.report rfl

end PlaneRestore
