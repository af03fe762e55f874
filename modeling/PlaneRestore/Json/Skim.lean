import PlaneRestore.Json.Reader
import PlaneRestore.Text.Utf8
/-!
Reading JSON for records, which pass over the members that they do not name.

`Json.skim? bytes` reads a text as far as a record can ask for it. What is only passed over has to
keep to the grammar, but it need not have a value: a number may be out of range, a string may hold
bytes or escapes that are no characters, and arrays and objects may be nested to any depth. Such a
value stands as `Json.valueless`. An object keeps all its members as they are written, for a record
that refuses a second member of the same name.
-/

namespace PlaneRestore.Json

open Decimal (Binary64)

/-- What stands for a value that can only be passed over: a number that no text is read as. -/
def valueless : Json := number (.float Binary64.infinity)

/-! ### Numbers -/

/-- Passes over digits; there has to be one. -/
def skipDigits? (cs : List Char) : Option (List Char) :=
  if (cs.takeWhile Char.isDigit).isEmpty then none else some (cs.dropWhile Char.isDigit)

/-- Passes over the digits before a point, which start with a zero only if that is all. -/
def skipWhole? : List Char → Option (List Char)
  | '0' :: c :: rest => if c.isDigit then none else some (c :: rest)
  | cs => skipDigits? cs

def skipPlaces? : List Char → Option (List Char)
  | '.' :: rest => skipDigits? rest
  | cs => some cs

def skipExponent? : List Char → Option (List Char)
  | c :: rest =>
    if c = 'e' || c = 'E' then
      match rest with
      | '+' :: rest => skipDigits? rest
      | '-' :: rest => skipDigits? rest
      | rest => skipDigits? rest
    else some (c :: rest)
  | [] => some []

/-- A number after its sign. -/
def skimNumber? (negative : Bool) (cs : List Char) : Option (Json × List Char) := do
  let rest ← skipWhole? cs
  let rest ← skipPlaces? rest
  let rest ← skipExponent? rest
  let n := (magnitude? negative cs).map fun (n, _) => number n
  some (n.getD valueless, rest)

/-! ### Strings -/

/-- Whether a backslash and `c` start an escape. -/
def startsEscape (c : Char) (rest : List Char) : Bool :=
  ['"', '\\', '/', 'b', 'f', 'n', 'r', 't'].contains c || c = 'u' && (hexFour? rest).isSome

/-- Passes over a string after its opening quote. What stands in it is kept as it is written. -/
def skipString? : List Char → Array Char → Option (List Char × List Char)
  | [], _ => none
  | '"' :: rest, acc => some (acc.toList, rest)
  | '\\' :: c :: rest, acc =>
    if startsEscape c rest then skipString? rest ((acc.push '\\').push c) else none
  | c :: rest, acc => if c.toNat < 0x20 then none else skipString? rest (acc.push c)

/-- The text of a string whose bytes are written so, if they are characters. -/
def textOf? (written : List Char) : Option String := do
  let cs ← Text.Utf8.decodeChars? (written.map fun c => UInt8.ofNat c.toNat)
  let (s, _) ← stringBody? (cs.length + 1) (cs ++ ['"']) #[]
  some s

/-- The text of a string after its opening quote, if it has one. -/
def skimString? (cs : List Char) : Option (Option String × List Char) :=
  (skipString? cs #[]).map fun (written, rest) => (textOf? written, rest)

/-! ### Values -/

/-- An object is passed over if one of its keys has no text. -/
def ofMembers (ms : List (Option String × Json)) : Json :=
  match ms.mapM fun m => m.1.map (·, m.2) with
  | some ms => object ms
  | none => valueless

mutual

/-- A value at the front of bytes, each of which stands as a character. -/
def skimValue? : Nat → List Char → Option (Json × List Char)
  | 0, _ => none
  | fuel + 1, cs =>
    match skipSpace cs with
    | 'n' :: rest => (word? ['u', 'l', 'l'] rest).map (null, ·)
    | 't' :: rest => (word? ['r', 'u', 'e'] rest).map (bool true, ·)
    | 'f' :: rest => (word? ['a', 'l', 's', 'e'] rest).map (bool false, ·)
    | '"' :: rest =>
      (skimString? rest).map fun (s, rest) => ((s.map string).getD valueless, rest)
    | '[' :: rest =>
      match skipSpace rest with
      | ']' :: rest => some (array [], rest)
      | rest => (skimItems? fuel rest).map fun (vs, rest) => (array vs, rest)
    | '\x7b' :: rest =>
      match skipSpace rest with
      | '\x7d' :: rest => some (object [], rest)
      | rest => (skimMembers? fuel rest).map fun (ms, rest) => (ofMembers ms, rest)
    | '-' :: rest => skimNumber? true rest
    | rest => skimNumber? false rest

/-- The items of an array up to its closing bracket. -/
def skimItems? : Nat → List Char → Option (List Json × List Char)
  | 0, _ => none
  | fuel + 1, cs => do
    let (v, rest) ← skimValue? fuel cs
    match skipSpace rest with
    | ',' :: rest =>
      let (vs, rest) ← skimItems? fuel rest
      some (v :: vs, rest)
    | ']' :: rest => some ([v], rest)
    | _ => none

/-- The members of an object up to its closing brace. -/
def skimMembers? : Nat → List Char → Option (List (Option String × Json) × List Char)
  | 0, _ => none
  | fuel + 1, cs => do
    match skipSpace cs with
    | '"' :: rest =>
      let (k, rest) ← skimString? rest
      match skipSpace rest with
      | ':' :: rest =>
        let (v, rest) ← skimValue? fuel rest
        match skipSpace rest with
        | ',' :: rest =>
          let (ms, rest) ← skimMembers? fuel rest
          some ((k, v) :: ms, rest)
        | '\x7d' :: rest => some ([(k, v)], rest)
        | _ => none
      | _ => none
    | _ => none

end

/-- The value of a whole text. -/
def skim? (bytes : List UInt8) : Option Json :=
  match skimValue? (2 * bytes.length + 2) (bytes.map fun b => Char.ofNat b.toNat) with
  | some (v, rest) => if (skipSpace rest).isEmpty then some v else none
  | none => none

end PlaneRestore.Json
