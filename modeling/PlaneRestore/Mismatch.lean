import PlaneRestore.Json.Basic
import PlaneRestore.Text.Quoted
/-!
Why a value does not have the shape that was asked for.

`Mismatch.message` words the cause; `Found.describe` says what was found instead.
-/

namespace PlaneRestore

/-- The wording of causes that are reported from further down: what is not YAML, a text that is no
moment, an archive that cannot be read, a file that holds no certificate, a task that stopped. -/
structure Wording where
  malformedYaml : String
  malformedMoment : String
  brokenArchive : String
  brokenCertificate : String
  stoppedTask : String

/-- The wording of the command line. -/
def Wording.plain : Wording :=
  ⟨"malformed YAML", "malformed date and time", "malformed archive", "builder error",
    "task panicked"⟩

/-- What was found in place of a value. -/
inductive Found where
  /-- The JSON value. -/
  | null
  /-- The YAML value. -/
  | nothing
  | flag (b : Bool)
  | whole (n : Int)
  /-- A whole number beyond 64 bits. -/
  | wide (n : Int)
  | float (digits : String)
  | text (s : String)
  | sequence
  | mapping
  /-- A value with a tag of its own. -/
  | tagged
deriving DecidableEq, Repr

namespace Found

/-- What was found, in words. -/
def describe : Found → String
  | null => "null"
  | nothing => "unit value"
  | flag b => "boolean `" ++ toString b ++ "`"
  | whole n => "integer `" ++ toString n ++ "`"
  | wide n => "integer `" ++ toString n ++ "` as " ++ (if n < 0 then "i128" else "u128")
  | float digits => "floating point `" ++ digits ++ "`"
  | text s => "string " ++ Text.quote s
  | sequence => "sequence"
  | mapping => "map"
  | tagged => "enum"

/-- What a JSON value counts as. -/
def ofJson : Json → Found
  | .null => null
  | .bool b => flag b
  | .number (.whole n) => whole n
  | .number (.float x) => float x.scientific
  | .string s => text s
  | .array _ => sequence
  | .object _ => mapping

end Found

/-- Why a value does not have the shape that was asked for. -/
inductive Mismatch where
  | wrongType (found : Found) (expected : String)
  | wrongValue (found : Found) (expected : String)
  | wrongLength (length : Nat) (expected : String)
  | missingField (name : String)
  | duplicateField (name : String)
  | outOfRange
  | malformedMoment
deriving DecidableEq, Repr

/-- The cause in words. -/
def Mismatch.message (w : Wording) : Mismatch → String
  | wrongType found expected => "invalid type: " ++ found.describe ++ ", expected " ++ expected
  | wrongValue found expected => "invalid value: " ++ found.describe ++ ", expected " ++ expected
  | wrongLength length expected =>
    "invalid length " ++ toString length ++ ", expected " ++ expected
  | missingField name => "missing field `" ++ name ++ "`"
  | duplicateField name => "duplicate field `" ++ name ++ "`"
  | outOfRange => "JSON number out of range"
  | malformedMoment => w.malformedMoment

end PlaneRestore
