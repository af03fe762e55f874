import PlaneRestore.Import.Options
import PlaneRestore.Import.Work
/-!
Waiting until all objects of a kind satisfy conditions.

* `tally` counts the objects of one answer that satisfy them.
* `nextTick` is the schedule of the polls, and `lt_nextTick` says that it goes on.
* `Work.waitFor` resolves the kind and polls its objects until all of them satisfy the conditions
  or the time is over.

A poll that fails, or whose objects have an unreadable status, says nothing and does not end the
wait. A tick that falls on the deadline is no longer polled.
-/

namespace PlaneRestore

/-- How many objects satisfy the conditions, of how many; none if that cannot be told. -/
def tally (conditions : List String) (answer : Except ClientError (List Resource)) :
    Option (Nat × Nat) := do
  let objects ← answer.toOption
  let verdicts ← objects.mapM fun r => (r.satisfies conditions).toOption
  return (verdicts.count true, objects.length)

/-- How late a tick may fire for the next one to be still counted from when it was due, in
milliseconds. -/
def tickTolerance : Nat := 5

/-- When the tick after one that was due at `tick` and has fired at `now` is due. -/
def nextTick (period tick now : Nat) : Nat :=
  if tick + tickTolerance < now then now + period else tick + period

theorem lt_nextTick {period : Nat} (h : 0 < period) (tick now : Nat) :
    tick < nextTick period tick now := by
  unfold nextTick
  split <;> omega

/-- A wait for objects of a kind, in milliseconds. -/
structure Watch where
  kind : GroupKind
  mapping : KindMapping
  conditions : List String
  period : Nat
  deadline : Nat
  period_pos : 0 < period

namespace Watch

/-- What is said after a poll. -/
def news (w : Watch) (satisfied total : Nat) : String :=
  "(" ++ toString satisfied ++ " / " ++ toString total ++ ") Waiting for "
    ++ w.mapping.groupResource.display ++ " to be " ++ describeConditions w.conditions ++ "..."

def timeout (w : Watch) : ImportError :=
  .waitTimeout w.kind.kind (describeConditions w.conditions)

/-- Polls once. Whether all objects satisfy the conditions. -/
def poll (w : Watch) : Work Bool := do
  match ← Work.ask (.guarded (.list w.mapping) (some w.deadline)) with
  | .cancelled => throw .cancelled
  | .late => throw w.timeout
  | .answered answer =>
    match tally w.conditions answer with
    | none => return false
    | some (satisfied, total) =>
      if satisfied = total then return true
      else do
        Work.report (.update (w.news satisfied total))
        return false

/-- Polls at a tick and at those after it. -/
def pollFrom (w : Watch) (tick : Nat) : Work Unit := do
  match ← Work.ask (.sleepUntil (min tick w.deadline)) with
  | none => throw .cancelled
  | some now =>
    -- the deadline comes before a tick at the same moment
    if _h : tick < w.deadline ∧ now < w.deadline then
      if ← w.poll then return
      else w.pollFrom (nextTick w.period tick now)
    else throw w.timeout
termination_by w.deadline - tick
decreasing_by
  have := lt_nextTick w.period_pos tick now
  omega

end Watch

/-- Waits until all objects of a kind satisfy the conditions. The time runs from when the kind has
been resolved. -/
def Work.waitFor (settings : WaitSettings) (kind : GroupKind) (conditions : List String) :
    Work Unit := do
  let mapping ← orClient (← call (.mappingForKind kind))
  let start ← ask .now
  let watch : Watch :=
    { kind, mapping, conditions
      period := settings.effectivePollInterval * 1000
      deadline := start + settings.timeout * 1000
      period_pos := by
        have : 1 ≤ settings.effectivePollInterval := Nat.le_max_right _ _
        omega }
  watch.pollFrom start

end PlaneRestore
