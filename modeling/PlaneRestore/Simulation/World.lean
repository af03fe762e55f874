import PlaneRestore.Archive
import PlaneRestore.Import.Work
/-!
Sessions in a world of their own, in virtual time.

* A `Plane` takes calls in and answers them after a while, or never.
* `World.answer` answers the questions of a session. Time passes only while something is waited
  for, and then jumps to the first of the moments that end the wait; of several at once, the
  cancellation comes first, then the deadline.
* `Work.runIn` leads a piece of work to its end, if it has one.

The world keeps a list of what has happened in it.
-/

namespace PlaneRestore

/-- A call that a control plane has taken in. -/
structure Taken (σ α : Type) where
  plane : σ
  /-- Whether taking it in has cancelled the run. -/
  cancels : Bool
  /-- After how many milliseconds it is answered; none if never. -/
  latency : Option Nat
  /-- The answer, as it is when the time has come. -/
  answer : σ → Nat → α × σ

/-- A control plane with the states `σ`. -/
structure Plane (σ : Type) where
  take : σ → Nat → (c : Call) → Taken σ c.Answer

/-- Something that happens in a world. -/
inductive Event where
  | called (moment : Nat) (call : Call)
  | reported (news : Progress)
  | extracted (path : String)
deriving Repr, Inhabited

/-- A world around a control plane with the states `σ`. -/
structure World (σ : Type) where
  clock : Nat
  /-- From when on the run is cancelled. -/
  cancelledFrom : Option Nat
  plane : σ
  /-- The file system. -/
  source : String → SourceFile
  events : Array Event

namespace World

variable {σ : Type}

/-- A world in which nothing has happened yet. -/
def start (plane : σ) (source : String → SourceFile) : World σ := ⟨0, none, plane, source, #[]⟩

def record (w : World σ) (e : Event) : World σ := { w with events := w.events.push e }

/-- Whether the run is cancelled by a moment. -/
def isCancelledBy (w : World σ) (moment : Nat) : Bool :=
  match w.cancelledFrom with
  | some c => c ≤ moment
  | none => false

def isCancelled (w : World σ) : Bool := w.isCancelledBy w.clock

/-- The world at a later moment. -/
def advance (w : World σ) (moment : Nat) : World σ := { w with clock := max w.clock moment }

/-- Cancels the run, from now on at the latest. -/
def cancel (w : World σ) : World σ :=
  { w with cancelledFrom := some ((w.cancelledFrom.getD w.clock).min w.clock) }

/-- Gives a call to the control plane. -/
def take (P : Plane σ) (w : World σ) (c : Call) : Taken σ c.Answer × World σ :=
  let taken := P.take w.plane w.clock c
  let w := { w.record (.called w.clock c) with plane := taken.plane }
  (taken, if taken.cancels then w.cancel else w)

/-- Lets a call come to its answer. -/
def finish {α : Type} (w : World σ) (taken : Taken σ α) : α × World σ :=
  let (a, plane) := taken.answer w.plane w.clock
  (a, { w with plane })

/-- Whether a moment comes before another one, or with it. -/
def comesBy : Option Nat → Option Nat → Bool
  | some a, some b => a ≤ b
  | some _, none => true
  | none, _ => false

/-- Waits for the answer to a call, for the cancellation, or for a deadline. None if neither comes.
An answer that is there at once is not missed. -/
def await {α : Type} (w : World σ) (taken : Taken σ α) (deadline : Option Nat) :
    Option (Reply α × World σ) :=
  if taken.latency = some 0 then
    let (a, w) := w.finish taken
    some (.answered a, w)
  else
    -- of several moments at once the cancellation comes first, then the deadline
    let due := taken.latency.map (w.clock + ·)
    if comesBy w.cancelledFrom due && comesBy w.cancelledFrom deadline then
      some (.cancelled, w.advance (w.cancelledFrom.getD w.clock))
    else if comesBy deadline due then
      some (.late, w.advance (deadline.getD w.clock))
    else
      match due with
      | some moment =>
        let (a, w) := (w.advance moment).finish taken
        some (.answered a, w)
      | none => none

/-- A call that nothing can break off. -/
def call (P : Plane σ) (c : Call) (w : World σ) : Option (c.Answer × World σ) :=
  let (taken, w) := w.take P c
  match taken.latency with
  | some delay => some ((w.advance (w.clock + delay)).finish taken)
  | none => none

/-- A call that is given up when the run is cancelled or when the deadline has come, and not begun
if that is so already. -/
def guarded (P : Plane σ) (c : Call) (deadline : Option Nat) (w : World σ) :
    Option (Reply c.Answer × World σ) :=
  if w.isCancelled then some (.cancelled, w)
  else if comesBy deadline (some w.clock) then some (.late, w)
  else
    let (taken, w) := w.take P c
    w.await taken deadline

/-- Waits for a moment. -/
def sleepUntil (moment : Nat) (w : World σ) : Option Nat × World σ :=
  let moment := max w.clock moment
  if w.isCancelledBy moment then (none, w.advance (w.cancelledFrom.getD w.clock))
  else (some moment, w.advance moment)

/-- Answers a question; none if the answer never comes. -/
def answer (P : Plane σ) (w : World σ) : (q : Question) → Option (q.Answer × World σ)
  | .call c => w.call P c
  | .guarded c deadline => w.guarded P c deadline
  | .now => some (w.clock, w)
  | .sleepUntil moment => some (w.sleepUntil moment)
  | .report news => some ((), w.record (.reported news))
  | .extract path =>
    some (ExportedState.extract path (w.source path) w.isCancelled, w.record (.extracted path))

end World

/-- Leads a session to its end, if it has one. -/
def Dialogue.runIn {σ α : Type} (P : Plane σ) (session : Session α) (w : World σ) :
    Option (α × World σ) :=
  (session.via (m := StateT (World σ) Option) fun q w => w.answer P q).run w

/-- Leads a piece of work to its end, if it has one. -/
def Work.runIn {σ α : Type} (P : Plane σ) (work : Work α) (memory : Memory) (w : World σ) :
    Option ((Except ImportError α × Memory) × World σ) :=
  Dialogue.runIn P (work.run.run memory) w

end PlaneRestore
