import PlaneRestore.Mismatch
import PlaneRestore.Yaml.Node
/-!
Why a YAML text cannot be read.

`Error.message` words the cause, with the path to the value and its place in the text.
-/

namespace PlaneRestore.Yaml

/-- One step from a node to one of its parts. -/
inductive Step where
  | key (name : String)
  | item (index : Nat)
  /-- The value of a key that has no name of its own. -/
  | unnamed
deriving DecidableEq, Repr

/-- The steps from the root to a node, the last one first. -/
abbrev Path := List Step

/-- The text of a path; the root is a point. -/
def Path.render : Path → String
  | [] => "."
  | .key name :: [] => name
  | .unnamed :: [] => "?"
  | .key name :: parent => render parent ++ "." ++ name
  | .unnamed :: parent => render parent ++ ".?"
  | .item i :: parent => render parent ++ "[" ++ toString i ++ "]"

/-- Why a text cannot be read. -/
inductive Error where
  | malformed
  | unknownAnchor (mark : Mark)
  /-- The text is empty, and a value is needed. -/
  | noValue
  | tooDeep (mark : Mark)
  | tooRepetitive
  | severalDocuments
  /-- A value has another shape; where, if that is known. -/
  | mismatch (cause : Mismatch) (place : Option (Path × Mark))
deriving DecidableEq, Repr

/-- The cause and its place in words. -/
def Error.message (w : Wording) : Error → String
  | malformed => w.malformedYaml
  | unknownAnchor m => "unknown anchor" ++ m.describe
  | noValue => "EOF while parsing a value"
  | tooDeep m => "recursion limit exceeded" ++ m.describe
  | tooRepetitive => "repetition limit exceeded"
  | severalDocuments => "deserializing from YAML containing more than one document is not supported"
  | mismatch .malformedMoment _ => w.malformedMoment
  | mismatch cause none => cause.message w
  | mismatch cause (some (path, m)) =>
    (if path.isEmpty then "" else Path.render path ++ ": ") ++ cause.message w ++ m.describe

/-- The fault at which a document breaks off. -/
def Error.ofFault : Fault → Error
  | .malformed => malformed
  | .unknownAnchor m => unknownAnchor m

end PlaneRestore.Yaml
