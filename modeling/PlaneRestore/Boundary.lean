import PlaneRestore.Dialogue
import PlaneRestore.Export
import PlaneRestore.ImportError
import PlaneRestore.Resource
import PlaneRestore.State.Tree
/-!
What an import asks of the world: calls of the control plane, the time, and the archive file.

* `Call` is a call of a control plane, `Call.Answer` the type of its answers and `Call.label` its
  text.
* `Question` is a question of an import. A guarded call is given up when the run is cancelled or
  when a moment has come; it is not even begun if that is so already.
* `Session` is a dialogue with these questions.

Moments are in milliseconds, on a clock that never goes back.
-/

namespace PlaneRestore

/-- A call of a control plane. -/
inductive Call where
  /-- All objects of a kind, in all namespaces. -/
  | list (mapping : KindMapping)
  /-- Adds an object. -/
  | create (mapping : KindMapping) (resource : Resource)
  /-- Replaces an object. -/
  | update (mapping : KindMapping) (resource : Resource)
  /-- How a kind is served at its preferred version. -/
  | mappingForKind (kind : GroupKind)
  /-- How a kind is served at a version. -/
  | mappingForVersion (kind : GroupKind) (version : String)
  /-- Forgets how kinds are served. -/
  | reset
  /-- The kinds of a category. -/
  | resolve (category : Category)
  /-- What the engine is. -/
  | observe
deriving Repr, Inhabited, BEq

namespace Call

/-- What a call answers. -/
abbrev Answer : Call → Type
  | list _ => Except ClientError (List Resource)
  | create _ _ => Except ClientError Resource
  | update _ _ => Except ClientError Resource
  | mappingForKind _ => Except ClientError KindMapping
  | mappingForVersion _ _ => Except ClientError KindMapping
  | reset => Unit
  | resolve _ => Except ClientError (List KindMapping)
  | observe => Except ClientError EngineInfo

/-- The call and what it is about. -/
def label : Call → String
  | list m => "List " ++ m.groupKind.display
  | create m r => "Create " ++ m.groupKind.display ++ " " ++ r.key.display
  | update m r => "Update " ++ m.groupKind.display ++ " " ++ r.key.display
  | mappingForKind k => "MappingForKind " ++ k.display
  | mappingForVersion k v => "MappingForVersion " ++ k.display ++ " " ++ v
  | reset => "Reset"
  | resolve c => "Resolve " ++ c.name
  | observe => "Observe"

/-- The answer of a call that fails. Forgetting cannot fail. -/
def refusal? (e : ClientError) : (c : Call) → Option c.Answer
  | list _ => some (.error e)
  | create _ _ => some (.error e)
  | update _ _ => some (.error e)
  | mappingForKind _ => some (.error e)
  | mappingForVersion _ _ => some (.error e)
  | reset => none
  | resolve _ => some (.error e)
  | observe => some (.error e)

end Call

/-- How a guarded call ends. -/
inductive Reply (α : Type) where
  | answered (answer : α)
  | cancelled
  | late
deriving Repr, Inhabited

/-- News of the step that is being taken. -/
inductive Progress where
  | start (text : String)
  | update (text : String)
  | success (text : String)
  | fail (text : String)
deriving DecidableEq, Repr, Inhabited

/-- A question of an import. -/
inductive Question where
  /-- A call that is seen through to its end. -/
  | call (call : Call)
  /-- A call that is given up when the run is cancelled, or else when a moment has come. -/
  | guarded (call : Call) (deadline : Option Nat)
  /-- What time it is. -/
  | now
  /-- Waits for a moment, and answers what time it has become; none if the run is cancelled. -/
  | sleepUntil (moment : Nat)
  | report (news : Progress)
  /-- The exported state in the archive file at a path. -/
  | extract (path : String)
deriving Repr, Inhabited

/-- What a question is answered with. -/
abbrev Question.Answer : Question → Type
  | call c => c.Answer
  | guarded c _ => Reply c.Answer
  | now => Nat
  | sleepUntil _ => Option Nat
  | report _ => Unit
  | extract _ => Except ImportError ExportedState

/-- A dialogue of an import with the world. -/
abbrev Session (α : Type) : Type := Dialogue Question Question.Answer α

end PlaneRestore
