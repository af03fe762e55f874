import PlaneRestore.Shape
import PlaneRestore.Text.Blank
/-!
Moments in time, and their texts.

* `Timestamp.parse?` reads a date, a time of day and an offset from UTC, with some liberties: blanks
  between the parts, numbers of one digit, a blank between date and time.
* `Timestamp.render` writes the moment in UTC, with as few places of the second as are needed of
  none, three, six and nine.
-/

namespace PlaneRestore

/-- A day of the Gregorian calendar. -/
structure Date where
  year : Int
  month : Nat
  day : Nat
deriving DecidableEq, Repr, Inhabited

namespace Date

def isLeapYear (y : Int) : Bool := y % 4 = 0 && (y % 100 ≠ 0 || y % 400 = 0)

def daysInMonth (y : Int) (m : Nat) : Nat :=
  if m = 2 then (if isLeapYear y then 29 else 28)
  else if m = 4 || m = 6 || m = 9 || m = 11 then 30
  else 31

/-- Whether the day exists, in one of the years that can be told. -/
def isValid (d : Date) : Bool :=
  -262143 ≤ d.year && d.year ≤ 262142 && 1 ≤ d.month && d.month ≤ 12 && 1 ≤ d.day
    && d.day ≤ daysInMonth d.year d.month

def next (d : Date) : Date :=
  if d.day < daysInMonth d.year d.month then { d with day := d.day + 1 }
  else if d.month < 12 then ⟨d.year, d.month + 1, 1⟩
  else ⟨d.year + 1, 1, 1⟩

def previous (d : Date) : Date :=
  if 1 < d.day then { d with day := d.day - 1 }
  else if 1 < d.month then ⟨d.year, d.month - 1, daysInMonth d.year (d.month - 1)⟩
  else ⟨d.year - 1, 12, 31⟩

end Date

/-- A moment in UTC. The second 60 is a leap second. -/
structure Timestamp where
  date : Date
  hour : Nat
  minute : Nat
  second : Nat
  nano : Nat
deriving DecidableEq, Repr, Inhabited

namespace Timestamp

/-- A number of at most `width` digits, after blanks. -/
def number? (width : Nat) (cs : List Char) : Option (Nat × List Char) :=
  let cs := Text.dropBlanks cs
  let digits := (cs.take width).takeWhile Char.isDigit
  if digits.isEmpty then none
  else some (digits.foldl (fun n d => n * 10 + Json.digitValue d) 0, cs.drop digits.length)

/-- A year: four digits at most, or a sign and any number of digits. -/
def year? (cs : List Char) : Option (Int × List Char) :=
  let signed? (cs : List Char) : Option (Nat × List Char) :=
    if cs.head?.any Char.isDigit then number? cs.length cs else none
  match Text.dropBlanks cs with
  | '-' :: rest => (signed? rest).map fun (n, rest) => (-(n : Int), rest)
  | '+' :: rest => (signed? rest).map fun (n, rest) => ((n : Int), rest)
  | rest => (number? 4 rest).map fun (n, rest) => ((n : Int), rest)

/-- A separator, after blanks. -/
def separator? (c : Char) (cs : List Char) : Option (List Char) :=
  match Text.dropBlanks cs with
  | x :: rest => if x = c then some rest else none
  | [] => none

/-- The places after a point, in billionths; further places are dropped. -/
def fraction? : List Char → Option (Nat × List Char)
  | '.' :: rest =>
    let digits := rest.takeWhile Char.isDigit
    let used := digits.take 9
    if digits.isEmpty then none
    else
      let n := used.foldl (fun n d => n * 10 + Json.digitValue d) 0
      some (n * Nat.pow 10 (9 - used.length), rest.drop digits.length)
  | cs => some (0, cs)

/-- Two digits. -/
def twoDigits? : List Char → Option (Nat × List Char)
  | a :: b :: rest =>
    if a.isDigit && b.isDigit then some (Json.digitValue a * 10 + Json.digitValue b, rest) else none
  | _ => none

/-- The offset of a local time from UTC in minutes. -/
def offset? (cs : List Char) : Option (Int × List Char) :=
  let hoursAndMinutes? (cs : List Char) : Option (Nat × List Char) := do
    let (hours, cs) ← twoDigits? cs
    let (minutes, cs) ← twoDigits? (cs.dropWhile fun c => c = ':' || Text.isBlank c)
    if hours < 24 && minutes < 60 then some (hours * 60 + minutes, cs) else none
  if Text.lowerAscii (String.ofList (cs.take 3)) = "utc" then some (0, cs.drop 3)
  else
    match cs with
    | 'Z' :: rest => some (0, rest)
    | 'z' :: rest => some (0, rest)
    | '+' :: rest => (hoursAndMinutes? rest).map fun (n, rest) => ((n : Int), rest)
    | '-' :: rest => (hoursAndMinutes? rest).map fun (n, rest) => (-(n : Int), rest)
    | '\u2212' :: rest => (hoursAndMinutes? rest).map fun (n, rest) => (-(n : Int), rest)
    | _ => none

/-- The moment of a local date and time. -/
def ofLocal? (d : Date) (hour minute second nano : Nat) (offset : Int) : Option Timestamp :=
  let m := (hour * 60 + minute : Int) - offset
  let d' := if m < 0 then d.previous else if 1440 ≤ m then d.next else d
  let m' := (m % 1440).toNat
  if d.isValid && d'.isValid && hour < 24 && minute < 60 && second ≤ 60 then
    some ⟨d', m' / 60, m' % 60, second, nano⟩
  else none

/-- The moment that a text tells. -/
def parse? (text : String) : Option Timestamp := do
  let (year, cs) ← year? text.toList
  let (month, cs) ← number? 2 (← separator? '-' cs)
  let (day, cs) ← number? 2 (← separator? '-' cs)
  let cs ← match cs with
    | c :: rest => if c = 't' || c = 'T' || c = ' ' then some rest else none
    | [] => none
  let (hour, cs) ← number? 2 cs
  let (minute, cs) ← number? 2 (← separator? ':' cs)
  let (second, cs) ← number? 2 (← separator? ':' cs)
  let (nano, cs) ← fraction? cs
  let (offset, cs) ← offset? (Text.dropBlanks cs)
  if (Text.dropBlanks cs).isEmpty then
    ofLocal? ⟨year, month, day⟩ hour minute second nano offset
  else none

/-- Digits filled up with zeros. -/
def padded (width n : Nat) : String :=
  let s := toString n
  "".pushn '0' (width - s.length) ++ s

/-- A year outside four digits has a sign. -/
def renderYear (y : Int) : String :=
  if 0 ≤ y && y ≤ 9999 then padded 4 y.toNat
  else (if y < 0 then "-" else "+") ++ padded 4 y.natAbs

/-- The places of the second: none, three, six or nine. -/
def renderFraction (nano : Nat) : String :=
  if nano = 0 then ""
  else if nano % 1000000 = 0 then "." ++ padded 3 (nano / 1000000)
  else if nano % 1000 = 0 then "." ++ padded 6 (nano / 1000)
  else "." ++ padded 9 nano

/-- The text of a moment up to the offset. -/
def renderLocal (t : Timestamp) : String :=
  renderYear t.date.year ++ "-" ++ padded 2 t.date.month ++ "-" ++ padded 2 t.date.day ++ "T"
    ++ padded 2 t.hour ++ ":" ++ padded 2 t.minute ++ ":" ++ padded 2 t.second
    ++ renderFraction t.nano

/-- The text of a moment in UTC. -/
def render (t : Timestamp) : String := t.renderLocal ++ "Z"

/-- The text of a moment in UTC, with the offset in digits. -/
def renderWithOffset (t : Timestamp) : String := t.renderLocal ++ "+00:00"

/-- A moment as a text. -/
def shape : Shape Timestamp :=
  Shape.parsed "an RFC 3339 formatted date and time string" fun s =>
    match parse? s with
    | some t => return t
    | none => throw .malformedMoment

end Timestamp

end PlaneRestore
