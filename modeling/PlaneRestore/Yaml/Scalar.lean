import PlaneRestore.Decimal.Binary64
import PlaneRestore.Json.Reader
/-!
What a scalar without quotes stands for.

* `Scalar.ofPlain text` is the value of a plain scalar without a tag.
* `Scalar.ofTagged` is the value of a scalar with one of the four basic tags, if its text fits.
* `unsigned?`, `signed?`, `float?`, `flag?` and `isNull` read the text of one kind of value.
-/

namespace PlaneRestore.Yaml

open Decimal (Binary64)

/-- The value of a scalar. A whole number beyond 64 bits is `wide`; beyond 128 bits it is none. -/
inductive Scalar where
  | null
  | flag (b : Bool)
  | whole (n : Int)
  | wide (n : Int)
  | float (x : Binary64)
  | text (s : String)
deriving DecidableEq, Repr

namespace Scalar

def isNull (s : String) : Bool := s = "null" || s = "Null" || s = "NULL" || s = "~"

def flag? (s : String) : Option Bool :=
  if s = "true" || s = "True" || s = "TRUE" then some true
  else if s = "false" || s = "False" || s = "FALSE" then some false
  else none

/-- Drops a sign at the front. -/
def unsign (cs : List Char) : List Char :=
  match cs with
  | '+' :: rest => rest
  | '-' :: rest => rest
  | _ => cs

/-- Digits with superfluous zeros in front are no number. -/
def hasExtraZero (cs : List Char) : Bool :=
  match unsign cs with
  | '0' :: rest => !rest.isEmpty && rest.all Char.isDigit
  | _ => false

/-- The value of a digit of a base. -/
def digit? (base : Nat) (c : Char) : Option Nat :=
  (Json.hexValue? c).filter (· < base)

/-- A number in digits of a base, at least one. -/
def digits? (base : Nat) : List Char → Option Nat
  | [] => none
  | cs => cs.foldlM (fun n c => (digit? base c).map (n * base + ·)) 0

/-- A number in another base than ten. -/
def based? : List Char → Option Nat
  | '0' :: 'x' :: rest => digits? 16 rest
  | '0' :: 'o' :: rest => digits? 8 rest
  | '0' :: 'b' :: rest => digits? 2 rest
  | _ => none

/-- A number without a minus sign that is at most `limit`. -/
def unsigned? (limit : Nat) (cs : List Char) : Option Nat :=
  let body := match cs with
    | '+' :: rest => rest
    | _ => cs
  ((based? body).or (if hasExtraZero cs then none else digits? 10 body)).filter (· ≤ limit)

/-- A number with a minus sign whose magnitude is at most `limit`. -/
def negative? (limit : Nat) (cs : List Char) : Option Nat :=
  match cs with
  | '-' :: body =>
    ((based? body).or (if hasExtraZero cs then none else digits? 10 body)).filter (· ≤ limit)
  | _ => none

/-- The whole number that a text stands for. -/
def whole? (cs : List Char) : Option Scalar :=
  match unsigned? (Nat.pow 2 64 - 1) cs, negative? (Nat.pow 2 63) cs with
  | some n, _ => some (.whole n)
  | none, some n => some (.whole (-(n : Int)))
  | none, none =>
    match unsigned? (Nat.pow 2 128 - 1) cs, negative? (Nat.pow 2 127) cs with
    | some n, _ => some (.wide n)
    | none, some n => some (.wide (-(n : Int)))
    | none, none => none

/-- The exponent at the end of a decimal number. -/
def exponent? : List Char → Option Int
  | [] => some 0
  | c :: rest =>
    if c = 'e' || c = 'E' then
      match rest with
      | '-' :: ds => (digits? 10 ds).map fun n => -(n : Int)
      | '+' :: ds => (digits? 10 ds).map Int.ofNat
      | ds => (digits? 10 ds).map Int.ofNat
    else none

/-- A decimal number without a sign; `none` if it is beyond the range. -/
def decimal? (isNegative : Bool) (cs : List Char) : Option Binary64 :=
  let whole := cs.takeWhile Char.isDigit
  let rest := cs.dropWhile Char.isDigit
  let (places, rest) := match rest with
    | '.' :: rest => (rest.takeWhile Char.isDigit, rest.dropWhile Char.isDigit)
    | _ => ([], rest)
  if whole.isEmpty && places.isEmpty then none
  else do
    let e ← exponent? rest
    let digits := (whole ++ places).foldl (fun n d => n * 10 + Json.digitValue d) 0
    Binary64.nearest isNegative digits (e - places.length)

/-- The floating-point number that a text stands for. -/
def float? (cs : List Char) : Option Binary64 :=
  let text := String.ofList cs
  let isInfinity (s : String) : Bool := s = ".inf" || s = ".Inf" || s = ".INF"
  if text = ".nan" || text = ".NaN" || text = ".NAN" then some Binary64.notANumber
  else
    match cs with
    | '+' :: rest =>
      if isInfinity (String.ofList rest) then some Binary64.infinity else decimal? false rest
    | '-' :: rest =>
      if isInfinity (String.ofList rest) then some Binary64.infinity.negate else decimal? true rest
    | _ => if isInfinity text then some Binary64.infinity else decimal? false cs

/-- The value of a plain scalar without a tag. -/
def ofPlain (s : String) : Scalar :=
  if s = "" || isNull s then .null
  else
    match flag? s with
    | some b => .flag b
    | none =>
      match whole? s.toList with
      | some v => v
      | none =>
        if hasExtraZero s.toList then .text s
        else
          match float? s.toList with
          | some x => .float x
          | none => .text s

/-- The basic tags, and how their values are called. -/
inductive BasicTag where
  | flag
  | whole
  | float
  | null
deriving DecidableEq, Repr

/-- The basic tag of a full tag. -/
def BasicTag.ofTag? (tag : String) : Option BasicTag :=
  if tag = "tag:yaml.org,2002:bool" then some .flag
  else if tag = "tag:yaml.org,2002:int" then some .whole
  else if tag = "tag:yaml.org,2002:float" then some .float
  else if tag = "tag:yaml.org,2002:null" then some .null
  else none

/-- What a text with a basic tag was expected to be. -/
def BasicTag.expected : BasicTag → String
  | .flag => "a boolean"
  | .whole => "an integer"
  | .float => "a float"
  | .null => "null"

/-- The value of a text with a basic tag. -/
def ofTagged (tag : BasicTag) (s : String) : Option Scalar :=
  match tag with
  | .flag => (flag? s).map .flag
  | .whole => whole? s.toList
  | .float => (float? s.toList).map .float
  | .null => if isNull s then some .null else none

end Scalar

end PlaneRestore.Yaml
