/-!
Binary floating-point numbers of 64 bits, and their decimal texts.

* `Binary64.nearest` is the number closest to `± digits · 10 ^ exponent`, a tie going to the even
  significand; `none` if it is too large.
* `Binary64.shortest` gives the fewest decimal digits that read back as the same number, of those
  the nearest to it.
* `Binary64.positional` and `Binary64.scientific` write these digits without and with an exponent.
-/

namespace PlaneRestore.Decimal

/-- A number by its bits: sign, eleven bits of exponent, fifty-two bits of significand. -/
structure Binary64 where
  bits : UInt64
deriving DecidableEq, Repr, Inhabited

namespace Binary64

/-- Positive infinity. -/
def infinity : Binary64 := ⟨0x7FF0000000000000⟩

/-- The quiet value that is no number. -/
def notANumber : Binary64 := ⟨0x7FF8000000000000⟩

/-- Changes the sign. -/
def negate (x : Binary64) : Binary64 := ⟨x.bits ^^^ 0x8000000000000000⟩

def isNegative (x : Binary64) : Bool := x.bits ≥ 0x8000000000000000

/-- The exponent field. -/
def exponentField (x : Binary64) : Nat := x.bits.toNat / Nat.pow 2 52 % Nat.pow 2 11

/-- The significand field. -/
def significandField (x : Binary64) : Nat := x.bits.toNat % Nat.pow 2 52

def isFinite (x : Binary64) : Bool := x.exponentField < 2047

/-- The magnitude of a finite number is `significand · 2 ^ exponent`. -/
def significand (x : Binary64) : Nat :=
  if x.exponentField = 0 then x.significandField else Nat.pow 2 52 + x.significandField

/-- The magnitude of a finite number is `significand · 2 ^ exponent`. -/
def exponent (x : Binary64) : Int :=
  if x.exponentField = 0 then -1074 else (x.exponentField : Int) - 1075

/-- Rounds `num / den` to a whole number, a half to the even neighbour. -/
def roundHalfEven (num den : Nat) : Nat :=
  let q := num / den
  let r := num % den
  if 2 * r < den then q
  else if den < 2 * r then q + 1
  else if q % 2 = 0 then q else q + 1

/-- `num / den` in units of `2 ^ k`, as a fraction. -/
def inUnits (num den : Nat) (k : Int) : Nat × Nat :=
  if 0 ≤ k then (num, den * Nat.pow 2 k.toNat) else (num * Nat.pow 2 (-k).toNat, den)

/-- The exponent of the unit in which `num / den` has a significand of 53 bits, or the least one. -/
def unitExponent (num den : Nat) : Int :=
  let guess : Int := (Nat.log2 num : Int) - (Nat.log2 den : Int) - 52
  let (n, d) := inUnits num den guess
  max (-1074) (if n / d < Nat.pow 2 52 then guess - 1 else guess)

/-- The positive number with the given significand (at most `2 ^ 53`) and exponent. -/
def assemble (significand : Nat) (exponent : Int) : Option Binary64 :=
  let (q, k) :=
    if significand = Nat.pow 2 53 then (Nat.pow 2 52, exponent + 1) else (significand, exponent)
  if 971 < k then none
  else if q < Nat.pow 2 52 then some ⟨UInt64.ofNat q⟩
  else some ⟨UInt64.ofNat ((k + 1075).toNat * Nat.pow 2 52 + (q - Nat.pow 2 52))⟩

/-- The number nearest to `num / den`. -/
def nearestFraction (num den : Nat) : Option Binary64 :=
  if num = 0 then some ⟨0⟩
  else
    let k := unitExponent num den
    let (n, d) := inUnits num den k
    assemble (roundHalfEven n d) k

/-- The number of decimal digits of `n`. -/
def digitCount (n : Nat) : Nat := (Nat.toDigits 10 n).length

/-- The number nearest to `digits · 10 ^ exponent`, or `none` if that is beyond the range. -/
def nearestMagnitude (digits : Nat) (exponent : Int) : Option Binary64 :=
  if digits = 0 then some ⟨0⟩
  else
    let magnitude := (digitCount digits : Int) + exponent
    if 400 < magnitude then none
    else if magnitude < -400 then some ⟨0⟩
    else if 0 ≤ exponent then nearestFraction (digits * Nat.pow 10 exponent.toNat) 1
    else nearestFraction digits (Nat.pow 10 (-exponent).toNat)

/-- The number nearest to `± digits · 10 ^ exponent`. -/
def nearest (negative : Bool) (digits : Nat) (exponent : Int) : Option Binary64 :=
  (nearestMagnitude digits exponent).map fun x => if negative then x.negate else x

/-- A decimal: `digits · 10 ^ exponent`. -/
structure Digits where
  digits : Nat
  exponent : Int
deriving DecidableEq, Repr

/-- The candidate on the grid `10 ^ e` inside the interval of the numbers that round to
`m · 2 ^ q`, the nearer one if there are two. -/
def onGrid? (m : Nat) (q : Int) (narrowBelow : Bool) (e : Int) : Option Nat :=
  -- in quarters of a unit in the last place, the number is `4 · m`; for comparing it with the grid,
  -- both are scaled to whole numbers, `4 · m · a` and `d · b`
  let shift := q - 2
  let a := (if 0 ≤ shift then Nat.pow 2 shift.toNat else 1)
    * (if 0 ≤ e then 1 else Nat.pow 10 (-e).toNat)
  let b := (if 0 ≤ shift then 1 else Nat.pow 2 (-shift).toNat)
    * (if 0 ≤ e then Nat.pow 10 e.toNat else 1)
  let value := 4 * m * a
  let low := (if narrowBelow then 4 * m - 1 else 4 * m - 2) * a
  let high := (4 * m + 2) * a
  let fits (d : Nat) : Bool :=
    0 < d && (if m % 2 = 0 then low ≤ d * b && d * b ≤ high else low < d * b && d * b < high)
  let below := value / b
  match fits below, fits (below + 1) with
  | true, true =>
    let toBelow := value - below * b
    let toAbove := (below + 1) * b - value
    if toBelow < toAbove then some below
    else if toAbove < toBelow then some (below + 1)
    else if below % 2 = 0 then some below else some (below + 1)
  | true, false => some below
  | false, true => some (below + 1)
  | false, false => none

/-- Tries ever finer grids, from `10 ^ e` down. -/
def searchGrids (m : Nat) (q : Int) (narrowBelow : Bool) : Nat → Int → Digits
  | 0, e => ⟨0, e⟩
  | fuel + 1, e =>
    match onGrid? m q narrowBelow e with
    | some d => ⟨d, e⟩
    | none => searchGrids m q narrowBelow fuel (e - 1)

/-- The fewest digits that read back as the magnitude of a finite number. -/
def shortest (x : Binary64) : Digits :=
  let m := x.significand
  let q := x.exponent
  if m = 0 then ⟨0, 0⟩
  else
    let binaryMagnitude : Int := (Nat.log2 m : Int) + 1 + q
    let start := binaryMagnitude * 30103 / 100000 + 2
    searchGrids m q (x.significandField = 0 && 1 < x.exponentField) 30 start

/-- The digits of a natural number. -/
def digitsOf (n : Nat) : List Char := Nat.toDigits 10 n

/-- A run of zeros. -/
def zeros (n : Nat) : List Char := List.replicate n '0'

/-- Digits with a decimal point and without exponent; a whole number has no point. -/
def Digits.positional (d : Digits) : List Char :=
  let ds := digitsOf d.digits
  if 0 ≤ d.exponent then ds ++ zeros d.exponent.toNat
  else
    let places := (-d.exponent).toNat
    if places < ds.length then
      ds.take (ds.length - places) ++ '.' :: ds.drop (ds.length - places)
    else '0' :: '.' :: zeros (places - ds.length) ++ ds

/-- Adds the sign. -/
def signed (x : Binary64) (text : List Char) : String :=
  String.ofList (if x.isNegative then '-' :: text else text)

/-- The number without exponent, and with at least one place after the point. -/
def positional (x : Binary64) : String :=
  if x.isFinite then
    let text := x.shortest.positional
    x.signed (if text.contains '.' then text else text ++ ['.', '0'])
  else if x.significandField = 0 then x.signed ['i', 'n', 'f']
  else "NaN"

/-- Positional between `10 ^ -5` and `10 ^ 16`, else with one digit before the point and an
exponent. -/
def scientific (x : Binary64) : String :=
  let d := x.shortest
  let ds := digitsOf d.digits
  let point := (ds.length : Int) + d.exponent
  if d.digits = 0 then x.signed ['0', '.', '0']
  else if -5 < point && point ≤ 16 then
    let text := d.positional
    x.signed (if text.contains '.' then text else text ++ ['.', '0'])
  else
    let exponent := 'e' :: (toString (point - 1)).toList
    match ds with
    | [] => x.signed exponent
    | [c] => x.signed (c :: exponent)
    | c :: rest => x.signed (c :: '.' :: rest ++ exponent)

end Binary64

end PlaneRestore.Decimal
