import PlaneRestore.Json.Basic
/-!
Reading JSON text.

`Json.parse? text` is the value of a whole text, with white space around it, or `none` if the text
is malformed, a number is out of range, or arrays and objects are nested more than 127 deep. Of
equal keys in an object the last one counts.

A number with a point or an exponent is read in two roundings: its digits as far as they fit into
64 bits are a whole number, which is then scaled by a power of ten.
-/

namespace PlaneRestore

namespace Decimal.Binary64

/-- The magnitude of a finite number as a fraction. -/
def fraction (x : Binary64) : Nat × Nat :=
  if 0 ≤ x.exponent then (x.significand * Nat.pow 2 x.exponent.toNat, 1)
  else (x.significand, Nat.pow 2 (-x.exponent).toNat)

/-- The product of two positive numbers, rounded; `none` beyond the range. -/
def times (x y : Binary64) : Option Binary64 :=
  let (a, b) := x.fraction
  let (c, d) := y.fraction
  nearestFraction (a * c) (b * d)

/-- The quotient of two positive numbers, rounded; `none` beyond the range. -/
def quotient (x y : Binary64) : Option Binary64 :=
  let (a, b) := x.fraction
  let (c, d) := y.fraction
  nearestFraction (a * d) (b * c)

/-- Scales by a power of ten of at most 308, or by several of them downwards. -/
def scaleTen : Nat → Binary64 → Int → Option Binary64
  | 0, x, _ => some x
  | fuel + 1, x, e =>
    if e.natAbs ≤ 308 then do
      let power ← nearestMagnitude 1 e.natAbs
      if 0 ≤ e then x.times power else x.quotient power
    else if x.bits = 0 then some x
    else if 0 ≤ e then none
    else do
      let power ← nearestMagnitude 1 308
      scaleTen fuel (← x.quotient power) (e + 308)

/-- The number read from a whole number of at most 64 bits and a power of ten. -/
def ofScaled (negative : Bool) (digits : Nat) (exponent : Int) : Option Binary64 := do
  let x ← nearestMagnitude digits 0
  let y ← scaleTen (exponent.natAbs / 308 + 2) x exponent
  return if negative then y.negate else y

end Decimal.Binary64

namespace Json

open Decimal (Binary64)

/-- White space between tokens. -/
def isSpace (c : Char) : Bool := c = ' ' || c = '\n' || c = '\t' || c = '\r'

def skipSpace (cs : List Char) : List Char := cs.dropWhile isSpace

/-- The value of a decimal digit. -/
def digitValue (c : Char) : Nat := c.toNat - '0'.toNat

/-- The value of a hexadecimal digit. -/
def hexValue? (c : Char) : Option Nat :=
  if c.isDigit then some (c.toNat - '0'.toNat)
  else if 'a' ≤ c && c ≤ 'f' then some (c.toNat - 'a'.toNat + 10)
  else if 'A' ≤ c && c ≤ 'F' then some (c.toNat - 'A'.toNat + 10)
  else none

/-- Four hexadecimal digits. -/
def hexFour? : List Char → Option (Nat × List Char)
  | a :: b :: c :: d :: rest => do
    let a ← hexValue? a
    let b ← hexValue? b
    let c ← hexValue? c
    let d ← hexValue? d
    some (((a * 16 + b) * 16 + c) * 16 + d, rest)
  | _ => none

/-- The character of an escape after `\u`; two escapes make up a character above U+FFFF. -/
def unicodeEscape? (cs : List Char) : Option (Char × List Char) := do
  let (n, rest) ← hexFour? cs
  if 0xDC00 ≤ n && n ≤ 0xDFFF then none
  else if 0xD800 ≤ n && n ≤ 0xDBFF then
    match rest with
    | '\\' :: 'u' :: rest =>
      let (m, rest) ← hexFour? rest
      if 0xDC00 ≤ m && m ≤ 0xDFFF then
        some (Char.ofNat (0x10000 + (n - 0xD800) * 0x400 + (m - 0xDC00)), rest)
      else none
    | _ => none
  else some (Char.ofNat n, rest)

/-- The rest of a string after its opening quote. -/
def stringBody? : Nat → List Char → Array Char → Option (String × List Char)
  | 0, _, _ => none
  | fuel + 1, cs, acc =>
    match cs with
    | [] => none
    | '"' :: rest => some (String.ofList acc.toList, rest)
    | '\\' :: 'u' :: rest => do
      let (c, rest) ← unicodeEscape? rest
      stringBody? fuel rest (acc.push c)
    | '\\' :: c :: rest =>
      match c with
      | '"' | '\\' | '/' => stringBody? fuel rest (acc.push c)
      | 'b' => stringBody? fuel rest (acc.push '\x08')
      | 'f' => stringBody? fuel rest (acc.push '\x0c')
      | 'n' => stringBody? fuel rest (acc.push '\n')
      | 'r' => stringBody? fuel rest (acc.push '\r')
      | 't' => stringBody? fuel rest (acc.push '\t')
      | _ => none
    | c :: rest => if c.toNat < 0x20 then none else stringBody? fuel rest (acc.push c)

/-- The largest number of 64 bits. -/
def maxWord : Nat := Nat.pow 2 64 - 1

/-- Appends decimal digits to a number as long as it fits into 64 bits; the number, how many
digits were taken, and the rest. -/
def takeDigits (n : Nat) (taken : Nat) : List Char → Nat × Nat × List Char
  | [] => (n, taken, [])
  | c :: cs =>
    if c.isDigit && n * 10 + digitValue c ≤ maxWord then
      takeDigits (n * 10 + digitValue c) (taken + 1) cs
    else (n, taken, c :: cs)

/-- The exponent after its letter, and the number scaled by it. -/
def exponent? (negative : Bool) (digits : Nat) (exponent : Int) (cs : List Char) :
    Option (Number × List Char) := do
  let (down, cs) :=
    match cs with
    | '+' :: rest => (false, rest)
    | '-' :: rest => (true, rest)
    | _ => (false, cs)
  let ds := cs.takeWhile Char.isDigit
  let rest := cs.dropWhile Char.isDigit
  if ds.isEmpty then none
  else
    let e : Nat := ds.foldl (fun n d => n * 10 + digitValue d) 0
    -- so large an exponent leaves no digit in the range
    if Nat.pow 2 31 ≤ e then
      if digits ≠ 0 && !down then none
      else some (.float (if negative then ⟨0x8000000000000000⟩ else ⟨0⟩), rest)
    else
      let x ← Binary64.ofScaled negative digits (if down then exponent - e else exponent + e)
      some (.float x, rest)

/-- A number whose digits are read; what follows decides about an exponent. -/
def scaled? (negative : Bool) (digits : Nat) (exponent : Int) (cs : List Char) :
    Option (Number × List Char) :=
  match cs with
  | 'e' :: rest => exponent? negative digits exponent rest
  | 'E' :: rest => exponent? negative digits exponent rest
  | _ => (Binary64.ofScaled negative digits exponent).map fun x => (.float x, cs)

/-- The places after a point. Those that do not fit into 64 bits are dropped. -/
def places? (negative : Bool) (digits : Nat) (exponent : Int) (cs : List Char) :
    Option (Number × List Char) :=
  let (n, taken, rest) := takeDigits digits 0 cs
  match rest with
  | c :: _ =>
    if c.isDigit then scaled? negative n (exponent - taken) (rest.dropWhile Char.isDigit)
    else if taken = 0 then none
    else scaled? negative n (exponent - taken) rest
  | [] => if taken = 0 then none else scaled? negative n (exponent - taken) rest

/-- The number after its sign. -/
def magnitude? (negative : Bool) (cs : List Char) : Option (Number × List Char) :=
  let leadingZero := match cs with
    | '0' :: c :: _ => c.isDigit
    | _ => false
  let (n, taken, rest) := takeDigits 0 0 cs
  if leadingZero || taken = 0 then none
  else
    match rest with
    | '.' :: rest => places? negative n 0 rest
    | 'e' :: rest => exponent? negative n 0 rest
    | 'E' :: rest => exponent? negative n 0 rest
    | c :: _ =>
      if c.isDigit then
        -- digits that do not fit into 64 bits only scale the number
        let dropped := rest.takeWhile Char.isDigit
        match rest.dropWhile Char.isDigit with
        | '.' :: rest => places? negative n dropped.length rest
        | rest => scaled? negative n dropped.length rest
      else whole n rest
    | [] => whole n rest
where
  /-- A number without point and exponent: whole if it fits into 64 bits and is not `-0`. -/
  whole (n : Nat) (rest : List Char) : Option (Number × List Char) :=
    if !negative then some (.whole n, rest)
    else if n = 0 || Nat.pow 2 63 < n then
      (Binary64.ofScaled true n 0).map fun x => (.float x, rest)
    else some (.whole (-(n : Int)), rest)

/-- Drops a word at the front. -/
def word? (word : List Char) (cs : List Char) : Option (List Char) :=
  if word.isPrefixOf cs then some (cs.drop word.length) else none

mutual

/-- A value at the front, with at most `depth` levels of arrays and objects. -/
def value? : Nat → Nat → List Char → Option (Json × List Char)
  | 0, _, _ => none
  | fuel + 1, depth, cs =>
    match skipSpace cs with
    | 'n' :: rest => (word? ['u', 'l', 'l'] rest).map (null, ·)
    | 't' :: rest => (word? ['r', 'u', 'e'] rest).map (bool true, ·)
    | 'f' :: rest => (word? ['a', 'l', 's', 'e'] rest).map (bool false, ·)
    | '"' :: rest => (stringBody? (rest.length + 1) rest #[]).map fun (s, rest) => (string s, rest)
    | '[' :: rest =>
      match depth with
      | 0 => none
      | depth + 1 =>
        match skipSpace rest with
        | ']' :: rest => some (array [], rest)
        | rest => (items? fuel depth rest).map fun (vs, rest) => (array vs, rest)
    | '\x7b' :: rest =>
      match depth with
      | 0 => none
      | depth + 1 =>
        match skipSpace rest with
        | '\x7d' :: rest => some (object [], rest)
        | rest => (members? fuel depth rest).map fun (ms, rest) => (ofEntries ms, rest)
    | '-' :: rest => (magnitude? true rest).map fun (n, rest) => (number n, rest)
    | rest => (magnitude? false rest).map fun (n, rest) => (number n, rest)

/-- The items of an array up to its closing bracket. -/
def items? : Nat → Nat → List Char → Option (List Json × List Char)
  | 0, _, _ => none
  | fuel + 1, depth, cs => do
    let (v, rest) ← value? fuel depth cs
    match skipSpace rest with
    | ',' :: rest =>
      let (vs, rest) ← items? fuel depth rest
      some (v :: vs, rest)
    | ']' :: rest => some ([v], rest)
    | _ => none

/-- The members of an object up to its closing brace. -/
def members? : Nat → Nat → List Char → Option (List (String × Json) × List Char)
  | 0, _, _ => none
  | fuel + 1, depth, cs => do
    match skipSpace cs with
    | '"' :: rest =>
      let (k, rest) ← stringBody? (rest.length + 1) rest #[]
      match skipSpace rest with
      | ':' :: rest =>
        let (v, rest) ← value? fuel depth rest
        match skipSpace rest with
        | ',' :: rest =>
          let (ms, rest) ← members? fuel depth rest
          some ((k, v) :: ms, rest)
        | '\x7d' :: rest => some ([(k, v)], rest)
        | _ => none
      | _ => none
    | _ => none

end

/-- The value of a whole text, with at most `depth` levels of arrays and objects. -/
def parseWithin? (depth : Nat) (text : String) : Option Json :=
  let cs := text.toList
  match value? (2 * cs.length + 2) depth cs with
  | some (v, rest) => if (skipSpace rest).isEmpty then some v else none
  | none => none

/-- The value of a whole text. -/
def parse? (text : String) : Option Json := parseWithin? 127 text

end Json

end PlaneRestore
