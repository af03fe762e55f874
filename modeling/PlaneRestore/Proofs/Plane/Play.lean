import PlaneRestore.Proofs.Import.Phases
import PlaneRestore.Proofs.Plane.Serve
import PlaneRestore.Proofs.Trace.Play
/-!
Imports played with the plane in memory.

* `MemoryPlane.playedTurns` are the turns of an import that the plane answers at once, and
  `MemoryPlane.playedResult` is its result; `MemoryPlane.importRun_played` says that it is a run.
* `MemoryPlane.Answers p log`: all answers of the log are those of the plane, which is
  `p.after log` then. `MemoryPlane.answers_played` says this of a played import.
-/

namespace PlaneRestore

/-- Every question can be answered. -/
instance (q : Question) : Inhabited q.Answer :=
  ⟨match q with
    | .call (.list _) | .call (.create _ _) | .call (.update _ _) | .call (.mappingForKind _)
    | .call (.mappingForVersion _ _) | .call (.resolve _) | .call .observe => .error (.noMapping "")
    | .call .reset => ()
    | .guarded _ _ => .cancelled
    | .now => 0
    | .sleepUntil _ => none
    | .report _ => ()
    | .extract _ => .error .cancelled⟩

namespace MemoryPlane

/-- Answers a question at once. Time stands still, except that all waits come to their end. -/
def reply (s : ExportedState) : (q : Question) → MemoryPlane → q.Answer × MemoryPlane
  | .call c, p => p.answer c
  | .guarded c _, p => (.answered (p.answer c).1, (p.answer c).2)
  | .now, p => ((0 : Nat), p)
  | .sleepUntil moment, p => (some moment, p)
  | .report _, p => ((), p)
  | .extract _, p => (.ok s, p)

/-- The turns of an import of `s` that is played with the plane. -/
def playedTurns (s : ExportedState) (o : ImportOptions) (p : MemoryPlane) : Turns :=
  (((Work.importState o).run.run .empty).play (reply s) p).1

/-- The result of this import. -/
def playedResult (s : ExportedState) (o : ImportOptions) (p : MemoryPlane) :
    Except ImportError ImportReport :=
  (((Work.importState o).run.run .empty).play (reply s) p).2.1

theorem finds_play {α : Type} (s : ExportedState) (session : Session α) (p : MemoryPlane) :
    Turns.Finds s (session.play (reply s) p).1 := by
  induction session generalizing p with
  | done a => exact fun _ _ h => nomatch h
  | andThen q next ih =>
    intro path s' hmem
    rcases List.mem_cons.mp hmem with heq | hmem
    · obtain ⟨rfl, hanswer⟩ := Sigma.mk.inj heq
      cases eq_of_heq hanswer
      rfl
    · exact ih _ _ path s' hmem

theorem importRun_played (s : ExportedState) (o : ImportOptions) (p : MemoryPlane) :
    ImportRun s o (p.playedTurns s o) (some (p.playedResult s o)) :=
  ⟨.empty, _, fun _ h => (nomatch h), finds_play s _ p, Dialogue.led_play _ _ p, rfl⟩

theorem importRun_of_played {s : ExportedState} {o : ImportOptions} {p : MemoryPlane}
    {report : ImportReport} (h : (p.playedResult s o).toOption = some report) :
    ImportRun s o (p.playedTurns s o) (some (.ok report)) := by
  have hrun := p.importRun_played s o
  cases hresult : p.playedResult s o with
  | error e => simp [hresult, Except.toOption] at h
  | ok r =>
    obtain rfl : r = report := by simpa [hresult, Except.toOption] using h
    rwa [hresult] at hrun

/-! ### Planes without faults -/

/-- The plane after the calls of a log, if it has taken in all of them. -/
def after (p : MemoryPlane) (log : List LoggedCall) : MemoryPlane :=
  log.foldl (fun p e => (p.answer e.call).2) p

/-- All answers of the log are those of the plane. -/
def Answers : MemoryPlane → List LoggedCall → Prop
  | _, [] => True
  | p, e :: log => e.answer = some (p.answer e.call).1 ∧ Answers (p.answer e.call).2 log

theorem Answers.serves {p : MemoryPlane} {log : List LoggedCall} (h : p.Answers log) :
    p.Serves log (p.after log) := by
  induction log generalizing p with
  | nil => exact .nil p
  | cons e log ih =>
    obtain ⟨c, a⟩ := e
    obtain ⟨ha, hrest⟩ := h
    obtain rfl : a = some (p.answer c).1 := ha
    exact .cons (.answers c) (ih hrest)

theorem answers_append_iff {p : MemoryPlane} {u v : List LoggedCall} :
    p.Answers (u ++ v) ↔ p.Answers u ∧ (p.after u).Answers v := by
  induction u generalizing p with
  | nil => simp [Answers, after]
  | cons e u ih =>
    rw [List.cons_append, Answers, Answers, ih, and_assoc]
    rfl

theorem answers_play {α : Type} (s : ExportedState) (session : Session α) (p : MemoryPlane) :
    p.Answers (callLog (session.play (reply s) p).1) := by
  induction session generalizing p with
  | done a => trivial
  | andThen q next ih =>
    cases q with
    | call c => exact ⟨rfl, ih _ _⟩
    | guarded c deadline => exact ⟨rfl, ih _ _⟩
    | now => exact ih _ p
    | sleepUntil moment => exact ih _ p
    | report news => exact ih _ p
    | extract path => exact ih _ p

theorem answers_played (s : ExportedState) (o : ImportOptions) (p : MemoryPlane) :
    p.Answers (callLog (p.playedTurns s o)) :=
  answers_play s _ p

end MemoryPlane

/-! ### A small import -/

namespace Sample

/-- A manifest of a base group. -/
def teamManifest : List UInt8 :=
  "apiVersion: v1\nkind: Namespace\nmetadata:\n  name: team\n  uid: u-1\n".toUTF8.toList

/-- A manifest of another group. -/
def logsManifest : List UInt8 :=
  "apiVersion: aws.example.io/v1\nkind: Bucket\nmetadata:\n  name: logs\n".toUTF8.toList

/-- An exported state with these two manifests. -/
def state : ExportedState :=
  ⟨[(["buckets.aws.example.io"], .directory 0o755),
    (["buckets.aws.example.io", "logs.yaml"], .file 0o644 logsManifest),
    (["namespaces"], .directory 0o755),
    (["namespaces", "team.yaml"], .file 0o644 teamManifest)]⟩

theorem reachable_of_addFile {s s' : ExportedState} (path : String) (contents : List UInt8)
    (mode : Nat) (hs : s.Reachable) (h : (s.addFile path contents mode).toOption = some s') :
    s'.Reachable := by
  cases hadded : s.addFile path contents mode with
  | error e => simp [hadded, Except.toOption] at h
  | ok s'' =>
    obtain rfl : s'' = s' := by simpa [hadded, Except.toOption] using h
    exact .addFile hs hadded

theorem reachable_state : state.Reachable := by
  have hteam : ExportedState.Reachable ⟨[(["namespaces"], .directory 0o755),
      (["namespaces", "team.yaml"], .file 0o644 teamManifest)]⟩ :=
    reachable_of_addFile "namespaces/team.yaml" teamManifest 0o644 .empty (by decide +kernel)
  exact reachable_of_addFile "buckets.aws.example.io/logs.yaml" logsManifest 0o644 hteam
    (by decide +kernel)

/-- The kinds of the manifests, and those that are waited for. -/
def kinds : List KindMapping :=
  [⟨"", "v1", "Namespace", "namespaces", false, []⟩,
    ⟨"aws.example.io", "v1", "Bucket", "buckets", false, ["managed"]⟩,
    ⟨"apiextensions.example.io", "v1", "CompositeResourceDefinition",
      "compositeresourcedefinitions", false, []⟩,
    ⟨"pkg.example.io", "v1", "Provider", "providers", false, []⟩,
    ⟨"pkg.example.io", "v1", "Function", "functions", false, []⟩,
    ⟨"pkg.example.io", "v1", "Configuration", "configurations", false, []⟩]

/-- A plane with these kinds and no objects. -/
def plane : MemoryPlane := { MemoryPlane.empty with kinds }

theorem wellKept_plane : plane.WellKept := by
  have h : plane.Reachable := MemoryPlane.Reachable.empty.setUp rfl
  exact h.wellKept

/-- Neither revisions are waited for nor managed resources unpaused. -/
def options : ImportOptions := { ImportOptions.default with legacyRevisionWait := false }

/-- The report of the import of the state into the plane. -/
def report : ImportReport := importReport options state [0, 0]

/-- The turns of this import. -/
def turns : Turns := plane.playedTurns state options

/-- The plane after this import. -/
def planeAfter : MemoryPlane := plane.after (callLog turns)

theorem importRun_turns : ImportRun state options turns (some (.ok report)) :=
  MemoryPlane.importRun_of_played (by decide +kernel)

/-- The plane, on which a bucket cannot be created. -/
def planeFailing : MemoryPlane := plane.failCreate ⟨"aws.example.io", "Bucket"⟩ "logs"

theorem planeFailing_fails : ∃ e, planeFailing.playedResult state options = .error e := by
  have hnone : (planeFailing.playedResult state options).toOption.isNone = true := by
    decide +kernel
  cases h : planeFailing.playedResult state options with
  | error e => exact ⟨e, rfl⟩
  | ok report => simp [h, Except.toOption] at hnone

theorem serves_turns : plane.Serves (callLog turns) planeAfter :=
  (plane.answers_played state options).serves

end Sample

end PlaneRestore
