import PlaneRestore.Shape
/-!
Conditions in the status of an object.
-/

namespace PlaneRestore

/-- A condition: its type, and whether it holds, in words. -/
structure Condition where
  type : String
  /-- `True`, `False` or `Unknown`. -/
  status : String
  reason : Option String
  message : Option String
  lastTransitionTime : Option String
deriving DecidableEq, Repr, Inhabited

namespace Condition

/-- A condition that holds or does not hold, without details. -/
def plain (type : String) (status : Bool) : Condition :=
  ⟨type, if status then "True" else "False", none, none, none⟩

def isTrue (c : Condition) : Bool := c.status = "True"

def shape : Shape Condition :=
  Fields.record "Condition"
    (.field "type" .text .isError <| .field "status" .text (.gives "") <|
      .field "reason" (.optional .text) (.gives none) <|
      .field "message" (.optional .text) (.gives none) <|
      .field "lastTransitionTime" (.optional .text) (.gives none) .done)
    fun (type, status, reason, message, time, _) => ⟨type, status, reason, message, time⟩

def toJson (c : Condition) : Json :=
  .ofEntries ([("type", .string c.type), ("status", .string c.status)]
    ++ Json.textMember "reason" c.reason ++ Json.textMember "message" c.message
    ++ Json.textMember "lastTransitionTime" c.lastTransitionTime)

end Condition

/-- Types of conditions as `A`, `A and B` or `A, B, and C`. -/
def describeConditions : List String → String
  | [] => ""
  | [only] => only
  | [first, second] => first ++ " and " ++ second
  | types => ", ".intercalate types.dropLast ++ ", and " ++ types.getLastD ""

/-- The types of conditions that are waited for. -/
def established : String := "Established"

def installed : String := "Installed"

def healthy : String := "Healthy"

end PlaneRestore
