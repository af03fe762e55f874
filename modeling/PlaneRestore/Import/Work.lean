import PlaneRestore.Boundary
/-!
The work of an import: sessions that may fail, and that remember what was found out.

* `Work.call` makes a call that is given up when the run is cancelled.
* `Work.inGroup`, `Work.inFile`, `Work.inCategory` and `Work.inPhase` say what was going on when an
  error arose.
* `Work.step` frames a part of the work with its news: whatever happens, a step that was started is
  ended once.
-/

namespace PlaneRestore

/-- What an import has found out, and need not find out again. -/
structure Memory where
  /-- The exported state, once it has been read. -/
  state : Option ExportedState
  /-- The kinds whose objects are created paused, once they are known. -/
  pausable : Option (List GroupKind)
deriving Repr, Inhabited

/-- Nothing is known yet. -/
def Memory.empty : Memory := ⟨none, none⟩

/-- A session that may fail. What has been found out is kept when it does. -/
abbrev Work (α : Type) : Type :=
  ExceptT ImportError (StateT Memory (Dialogue Question Question.Answer)) α

namespace Work

variable {α : Type}

/-- Asks a question. -/
def ask (q : Question) : Work q.Answer :=
  ExceptT.lift (StateT.lift (Dialogue.ask q))

/-- Makes a call, and gives it up when the run is cancelled. -/
def call (c : Call) : Work c.Answer := do
  match ← ask (.guarded c none) with
  | .answered a => return a
  | _ => throw .cancelled

def report (news : Progress) : Work Unit := ask (.report news)

/-- Says of an error what was going on. -/
def wrapping (f : ImportError → ImportError) (work : Work α) : Work α :=
  tryCatch work fun e => throw (f e)

def inGroup (group : String) (work : Work α) : Work α := work.wrapping (.inGroup group)

def inFile (file : String) (work : Work α) : Work α := work.wrapping (.inFile file)

def inCategory (c : Category) (work : Work α) : Work α := work.wrapping (.inCategory c.name)

def inPhase (context : String) (work : Work α) : Work α := work.wrapping (.inPhase context)

/-- What a call answered, or its error. -/
def orClient (answer : Except ClientError α) : Work α :=
  match answer with
  | .ok a => return a
  | .error e => throw (.client e)

def orThrow (result : Except ImportError α) : Work α :=
  match result with
  | .ok a => return a
  | .error e => throw e

/-- A step of the work under a title, with its opening news and the close of its last ones. -/
def step (title opening : String) (closing : α → String) (work : Work α) : Work α := do
  report (.start (title ++ opening))
  let a ← tryCatch work fun e => do
    report (.fail (title ++ "Failed!"))
    throw e
  report (.success (title ++ closing a))
  return a

end Work

end PlaneRestore
