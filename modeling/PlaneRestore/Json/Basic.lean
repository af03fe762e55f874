import PlaneRestore.Decimal.Binary64
import PlaneRestore.Table
/-!
JSON values.

* `Json` is a plain recursive type; the members of an object are a table in the order of its keys.
* `Json.member?`, `Json.setMember`, `Json.removeMember` read and write one member, and `Json.at?`
  follows a path.
* `Json.isOrdered` says that the keys of every object inside increase strictly.
-/

namespace PlaneRestore

open Decimal (Binary64)

/-- A number: whole, or binary floating-point. The two are different even if equal in value. -/
inductive Number where
  | whole (n : Int)
  | float (x : Binary64)
deriving DecidableEq, Repr, Inhabited

/-- A JSON value. -/
inductive Json where
  | null
  | bool (b : Bool)
  | number (n : Number)
  | string (s : String)
  | array (items : List Json)
  | object (members : List (String × Json))
deriving Repr, Inhabited, BEq

namespace Json

/-- The members of an object; other values have none. -/
def members : Json → List (String × Json)
  | object ms => ms
  | _ => []

/-- A member of an object. -/
def member? (key : String) : Json → Option Json
  | object ms => Table.get? key ms
  | _ => none

/-- An index is written in decimal digits without superfluous zeros. -/
def index? (token : String) : Option Nat :=
  match token.toList with
  | ['0'] => some 0
  | c :: cs =>
    if c ≠ '0' && (c :: cs).all Char.isDigit then
      some ((c :: cs).foldl (fun n d => n * 10 + (d.toNat - '0'.toNat)) 0)
    else none
  | [] => none

/-- One step of a path: a member of an object, or an item of an array by its index. -/
def step? (token : String) : Json → Option Json
  | object ms => Table.get? token ms
  | array items => do items[← index? token]?
  | _ => none

/-- The value at the end of a path. -/
def at? (path : List String) (v : Json) : Option Json :=
  path.foldlM (fun v token => step? token v) v

/-- The text of a string value. -/
def string? : Json → Option String
  | string s => some s
  | _ => none

/-- The items of an array value. -/
def array? : Json → Option (List Json)
  | array items => some items
  | _ => none

def isObject : Json → Bool
  | object _ => true
  | _ => false

/-- The text at the end of a path, empty if there is none. -/
def textAt (path : List String) (v : Json) : String :=
  ((v.at? path).bind string?).getD ""

/-- Writes a member of an object; other values stay as they are. -/
def setMember (v : Json) (key : String) (value : Json) : Json :=
  match v with
  | object ms => object (Table.put key value ms)
  | v => v

/-- Removes a member of an object; other values stay as they are. -/
def removeMember (v : Json) (key : String) : Json :=
  match v with
  | object ms => object (Table.remove key ms)
  | v => v

/-- Applies a function to one member of an object, if it is present. -/
def modifyMember (v : Json) (key : String) (f : Json → Json) : Json :=
  match v with
  | object ms => object (ms.map fun (k, v) => (k, if k = key then f v else v))
  | v => v

/-- An object from entries in any order. -/
def ofEntries (entries : List (String × Json)) : Json := object (Table.ofList entries)

def ofNat (n : Nat) : Json := number (.whole n)

/-- An array of strings. -/
def ofStrings (ss : List String) : Json := array (ss.map string)

/-- A string, or null. -/
def ofString? : Option String → Json
  | some s => string s
  | none => null

/-- A member with a text, or no member at all. -/
def textMember (name : String) (text : Option String) : List (String × Json) :=
  (text.map fun s => (name, string s)).toList

/-- A table of counts. -/
def ofCounts (counts : List (String × Nat)) : Json :=
  object (counts.map fun (k, n) => (k, ofNat n))

mutual

/-- In every object inside, the keys increase strictly. -/
def isOrdered : Json → Bool
  | array items => allOrdered items
  | object ms => membersOrdered ms
  | _ => true

/-- Every value of the list is ordered. -/
def allOrdered : List Json → Bool
  | [] => true
  | v :: vs => isOrdered v && allOrdered vs

/-- The keys increase strictly, and the values are ordered. -/
def membersOrdered : List (String × Json) → Bool
  | [] => true
  | (k, v) :: rest =>
    isOrdered v && (match rest with | [] => true | (k', _) :: _ => decide (k < k'))
      && membersOrdered rest

end

end Json

end PlaneRestore
