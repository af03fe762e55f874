import PlaneRestore.Tar.Header
/-!
Records that extend the header of the member after them.

A record is a line: its own length, a blank, a key, an equals sign and a value.
-/

namespace PlaneRestore.Tar

/-- A key and its value. -/
structure Record where
  key : List UInt8
  value : List UInt8
deriving DecidableEq, Repr

/-- The parts of a text between line feeds. -/
def lines (bytes : List UInt8) : List (List UInt8) :=
  bytes.foldr
    (fun b parts =>
      match parts with
      | part :: rest => if b = 0x0A then [] :: part :: rest else (b :: part) :: rest
      | [] => [[b]])
    [[]]

/-- A number in decimal digits that fits into 64 bits, perhaps with a plus sign. -/
def decimal? (bytes : List UInt8) : Option Nat :=
  let digits := match bytes with
    | 0x2B :: rest => rest
    | _ => bytes
  let n := digits.foldl (fun n d => n * 10 + (d.toNat - 48)) 0
  if digits.isEmpty || !digits.all (fun d => 48 ≤ d && d ≤ 57) || Nat.pow 2 64 ≤ n then none
  else some n

/-- The record on a line; `none` if the line is none. -/
def record? (line : List UInt8) : Option Record := do
  let notBlank := line.takeWhile (· ≠ 0x20)
  let rest ← (line.drop notBlank.length).tail?
  let length ← decimal? notBlank
  let key := rest.takeWhile (· ≠ 0x3D)
  let value ← (rest.drop key.length).tail?
  if line.length + 1 = length then some ⟨key, value⟩ else none

/-- The records of an extension, up to the first empty line. -/
def records (bytes : List UInt8) : List (Option Record) :=
  ((lines bytes).takeWhile fun l => !l.isEmpty).map record?

/-- A key given by its letters. -/
def keyOf (s : String) : List UInt8 := Text.Utf8.encode s

/-- The first value of a key; lines that are no records are passed over. -/
def valueOf? (key : String) (bytes : List UInt8) : Option (List UInt8) :=
  ((records bytes).filterMap id).find? (·.key = keyOf key) |>.map (·.value)

/-- The first value of a key among the records in front of any line that is no record. -/
def strictValueOf? (key : String) (bytes : List UInt8) : Option (List UInt8) :=
  (((records bytes).takeWhile Option.isSome).filterMap id).find? (·.key = keyOf key)
    |>.map (·.value)

end PlaneRestore.Tar
