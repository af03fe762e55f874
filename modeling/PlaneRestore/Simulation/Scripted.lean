import PlaneRestore.Simulation.MemoryPlane
import PlaneRestore.Simulation.World
/-!
A control plane in memory behind a script, which delays answers, replaces them by errors, cancels
the run at a call, and changes the plane at set moments.

Rules and delays go by the labels of calls.
-/

namespace PlaneRestore

/-- An error that stands in for the answers to some calls. -/
structure FailureRule where
  label : String
  error : ClientError
  /-- How often the rule still applies; none if always. -/
  times : Option Nat
deriving Repr

namespace FailureRule

/-- Uses up the first rule for a label that still applies. -/
def use (label : String) : List FailureRule → Option ClientError × List FailureRule
  | [] => (none, [])
  | r :: rules =>
    if r.label = label ∧ r.times ≠ some 0 then
      (some r.error, { r with times := r.times.map (· - 1) } :: rules)
    else
      let (e, rules) := use label rules
      (e, r :: rules)

end FailureRule

/-- A control plane in memory behind a script. -/
structure ScriptedPlane where
  plane : MemoryPlane
  failures : List FailureRule
  /-- How many milliseconds the answers to some calls take. -/
  delays : List (String × Nat)
  /-- The number of the call that cancels the run, from 1. -/
  cancelOn : Option Nat
  /-- How many calls were taken in. -/
  received : Nat
  /-- What is done to the plane, and when. -/
  agenda : List (Nat × (MemoryPlane → MemoryPlane))

namespace ScriptedPlane

/-- Does what is due by a moment. -/
def advance (s : ScriptedPlane) (moment : Nat) : ScriptedPlane :=
  let (due, later) := s.agenda.partition (·.1 ≤ moment)
  { s with
    plane := (due.mergeSort (·.1 ≤ ·.1)).foldl (fun p e => e.2 p) s.plane
    agenda := later }

/-- The answer to a call, when its time has come. -/
def answer (c : Call) (failure : Option ClientError) (s : ScriptedPlane) (moment : Nat) :
    c.Answer × ScriptedPlane :=
  let s := s.advance moment
  match failure.bind fun e => c.refusal? e with
  | some a => (a, s)
  | none =>
    let (a, plane) := s.plane.answer c
    (a, { s with plane })

/-- Takes a call in. -/
def take (s : ScriptedPlane) (moment : Nat) (c : Call) : Taken ScriptedPlane c.Answer :=
  let s := s.advance moment
  let (failure, failures) := FailureRule.use c.label s.failures
  { plane := { s with failures, received := s.received + 1 }
    cancels := s.cancelOn = some (s.received + 1)
    latency := some (((s.delays.find? (·.1 = c.label)).map (·.2)).getD 0)
    answer := answer c failure }

end ScriptedPlane

/-- Scripted planes as planes. -/
def scripted : Plane ScriptedPlane := ⟨ScriptedPlane.take⟩

end PlaneRestore
