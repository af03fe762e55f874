import PlaneRestore.Cli.Run
import PlaneRestore.Http.Wire
import Std.Async.DNS
import Std.Async.Signal
import Std.Async.TCP
/-!
The program.

`runWords` decides everything; here its questions are answered by the file system, the clock and
the network. Connections are plain: a request over a secure one gets no answer.
-/

namespace PlaneRestore

open Std.Async

/-- What answers the questions of a run. -/
structure Surroundings where
  /-- Ends when the user interrupts the run. -/
  interrupt : AsyncTask Int

namespace Surroundings

/-! ### Files -/

/-- Why a file cannot be opened. -/
def reason : IO.Error → String
  | .noFileOrDirectory _ code text | .permissionDenied _ code text | .invalidArgument _ code text
  | .inappropriateType _ code text | .resourceExhausted _ code text =>
    text ++ " (os error " ++ toString code ++ ")"
  | e => toString e

/-- What is found at a path. -/
def openPath (path : String) : BaseIO SourceFile := do
  match ← (IO.FS.Handle.mk path .read).toBaseIO with
  | .error e => return .closed (reason e)
  | .ok handle =>
    match ← handle.readBinToEnd.toBaseIO with
    | .error _ => return .directory
    | .ok bytes => return .file bytes.toList

/-! ### Requests -/

/-- Connects to the first address that can be connected to. -/
def connectFirst (port : UInt16) : List Std.Net.IPAddr → Async (Option TCP.Socket.Client)
  | [] => return none
  | address :: addresses => do
    let place : Std.Net.SocketAddress :=
      match address with
      | .v4 a => .v4 ⟨a, port⟩
      | .v6 a => .v6 ⟨a, port⟩
    try
      let socket ← TCP.Socket.Client.mk
      socket.connect place
      return some socket
    catch _ =>
      connectFirst port addresses

/-- Reads all that comes until the connection is closed. -/
partial def receiveAll (socket : TCP.Socket.Client) (bytes : ByteArray) : Async ByteArray := do
  match ← socket.recv? 65536 with
  | some more => receiveAll socket (bytes ++ more)
  | none => return bytes

/-- Sends a request, and reads the answer. -/
def exchange (request : HttpRequest) : Async (Option HttpResponse) := do
  if request.url.isSecure then return none
  let host := String.ofList (request.url.host.toList.filter fun c => c ≠ '[' && c ≠ ']')
  let port := request.url.port.getD 80
  let addresses ← DNS.getAddrInfo host (toString port)
  match ← connectFirst port.toUInt16 addresses.toList with
  | none => return none
  | some socket =>
    socket.send ⟨request.toBytes.toArray⟩
    return HttpResponse.ofBytes? (← receiveAll socket .empty).toList

def isFinished (task : AsyncTask α) : BaseIO Bool := do
  return (← task.getState) == .finished

def isInterrupted (s : Surroundings) : BaseIO Bool := isFinished s.interrupt

/-- Whether a moment, if there is one, has come. -/
def hasCome (moment : Option Nat) : BaseIO Bool := do
  let now ← IO.monoMsNow
  return moment.any (· ≤ now)

/-- Waits for an answer, for some time at the most. -/
partial def awaitAnswer (task : AsyncTask (Option HttpResponse)) (limit : Nat) :
    IO (Option HttpResponse) := do
  if ← isFinished task then
    try task.block catch _ => return none
  else if ← hasCome (some limit) then return none
  else
    IO.sleep 1
    awaitAnswer task limit

/-- Waits for an answer unless the run is interrupted or the deadline comes. -/
partial def awaitGuarded (s : Surroundings) (deadline : Option Nat)
    (task : AsyncTask (Option HttpResponse)) (limit : Nat) : IO (Reply (Option HttpResponse)) := do
  if ← s.isInterrupted then return .cancelled
  else if ← hasCome deadline then return .late
  else if (← isFinished task) || (← hasCome (some limit)) then
    return .answered (← awaitAnswer task limit)
  else
    IO.sleep 1
    s.awaitGuarded deadline task limit

/-- Begins a request; with it comes the moment after which its answer is not waited for. -/
def begin (request : HttpRequest) : IO (AsyncTask (Option HttpResponse) × Nat) := do
  let limit := (← IO.monoMsNow) + 1000 * request.timeout
  return (← (exchange request).toIO, limit)

/-! ### The time -/

/-- Waits for a moment unless the run is interrupted. -/
partial def sleepUntil (s : Surroundings) (moment : Nat) : IO (Option Nat) := do
  if ← s.isInterrupted then return none
  let now ← IO.monoMsNow
  if moment ≤ now then return some now
  IO.sleep (min 10 (moment - now)).toUInt32
  s.sleepUntil moment

/-- Answers a question. -/
def answer (s : Surroundings) : (q : WebQuestion) → IO q.Answer
  | .request request => do
    let (task, limit) ← begin request
    awaitAnswer task limit
  | .guarded request deadline => do
    let (task, limit) ← begin request
    s.awaitGuarded deadline task limit
  | .checkpoint deadline => do
    if ← s.isInterrupted then return .cancelled
    else if ← hasCome deadline then return .late
    else return .answered ()
  | .now => IO.monoMsNow
  | .sleepUntil moment => s.sleepUntil moment
  | .report _ => return ()
  | .open path => openPath path

end Surroundings

end PlaneRestore

open PlaneRestore in
/-- Runs the command line, writes what the run writes, and ends with its code. -/
def main (words : List String) : IO UInt32 := do
  let interrupt ← (← Std.Async.Signal.Waiter.mk .sigint false).wait
  let values ← Command.variableNames.filterMapM fun name => do
    return (← IO.getEnv name).map (name, ·)
  let run := runWords (Table.get? · values) words
  let outcome ← run.via (Surroundings.answer ⟨interrupt⟩)
  outcome.output.forM fun line => IO.println line
  outcome.errors.forM fun line => IO.eprintln line
  return outcome.code.toUInt32
