import PlaneRestore.Cluster.Connect
import PlaneRestore.Import.Work
/-!
Sessions with a cluster, down to the single request.

* `WebQuestion` is what a session with a cluster asks of the world: requests, the time, and files.
* `Cluster.lead` turns a session into a dialogue of such questions. A guarded call is given up
  between two of its requests, or while one of them is waited for, and then leaves no trace in what
  is known about the cluster.
-/

namespace PlaneRestore

/-- What a session with a cluster asks of the world. -/
inductive WebQuestion where
  /-- A request that is seen through to its end. -/
  | request (request : HttpRequest)
  /-- A request that is given up when the run is cancelled, or else when a moment has come. -/
  | guarded (request : HttpRequest) (deadline : Option Nat)
  /-- Whether the run is cancelled by now, or else whether a moment has come. -/
  | checkpoint (deadline : Option Nat)
  | now
  /-- Waits for a moment, and answers what time it has become; none if the run is cancelled. -/
  | sleepUntil (moment : Nat)
  | report (news : Progress)
  /-- What is found at a path of the file system. -/
  | open (path : String)
deriving Repr, Inhabited

/-- What a question is answered with. -/
abbrev WebQuestion.Answer : WebQuestion → Type
  | request _ => Option HttpResponse
  | guarded _ _ => Reply (Option HttpResponse)
  | checkpoint _ => Reply Unit
  | now => Nat
  | sleepUntil _ => Option Nat
  | report _ => Unit
  | «open» _ => SourceFile

/-- A dialogue of a session with a cluster with the world. -/
abbrev Web (α : Type) : Type := Dialogue WebQuestion WebQuestion.Answer α

namespace Web

def ask (q : WebQuestion) : Web q.Answer := Dialogue.ask q

/-- Sees an exchange through to its end. -/
def ofExchange {α : Type} (x : Exchange α) : Web α := x.via fun r => ask (.request r)

/-- Leads an exchange until it is given up. -/
def guard {α : Type} (deadline : Option Nat) : Exchange α → Web (Reply α)
  | .done a => return .answered a
  | .andThen r next => do
    match ← ask (.guarded r deadline) with
    | .answered response => guard deadline (next response)
    | .cancelled => return .cancelled
    | .late => return .late

end Web

namespace Cluster

/-- Makes a call that is given up when the run is cancelled or the deadline has come. -/
def guardedCall (c : Cluster) (call : Call) (deadline : Option Nat) (known : Discovered) :
    Web (Reply call.Answer × Discovered) := do
  match ← Web.ask (.checkpoint deadline) with
  | .cancelled => return (.cancelled, known)
  | .late => return (.late, known)
  | .answered () =>
    match ← Web.guard deadline ((c.answer call).run known) with
    | .answered (a, known) => return (.answered a, known)
    -- what the abandoned call had found out is lost with it
    | .cancelled => return (.cancelled, known)
    | .late => return (.late, known)

/-- Answers a question of a session. -/
def answerQuestion (c : Cluster) : (q : Question) →
    StateT Discovered (Dialogue WebQuestion WebQuestion.Answer) q.Answer
  | .call call => fun known => Web.ofExchange ((c.answer call).run known)
  | .guarded call deadline => c.guardedCall call deadline
  | .now => Web.ask .now
  | .sleepUntil moment => Web.ask (.sleepUntil moment)
  | .report news => Web.ask (.report news)
  | .extract path => do
    let file ← Web.ask (.open path)
    match ← Web.ask (.checkpoint none) with
    | .cancelled => return ExportedState.extract path file true
    | _ => return ExportedState.extract path file false

/-- Leads a session with a cluster. -/
def lead {α : Type} (c : Cluster) (session : Session α) : Web α :=
  (·.1) <$> (session.via c.answerQuestion).run none

end Cluster

end PlaneRestore
