import PlaneRestore.Text.Split
import PlaneRestore.Url.Percent
/-!
Hosts: names of ASCII characters, and addresses.

* `Host.normalize?` reads a host and writes it in its normal form.
* A host whose last label is a number is an address of four bytes, in any of its spellings.
* A host in brackets is an address of eight pieces of 16 bits.
-/

namespace PlaneRestore.Host

/-! ### Addresses of four bytes -/

/-- A number in digits below a base. -/
def digits? (base : Nat) (cs : List Char) : Option Nat :=
  cs.foldlM (fun n c => do
    let d ← Percent.hexValue? c
    if d < base then some (n * base + d) else none) 0

/-- A part of an address: hexadecimal after `0x`, octal after `0`, or else decimal. -/
def part? : List Char → Option Nat
  | [] => none
  | '0' :: 'x' :: cs => digits? 16 cs
  | '0' :: 'X' :: cs => digits? 16 cs
  | '0' :: c :: cs => digits? 8 (c :: cs)
  | cs => digits? 10 cs

/-- The parts between the points; a point at the end does not count. -/
def labels (cs : List Char) : List (List Char) :=
  let parts := Text.splitAll '.' cs
  if 1 < parts.length && parts.getLast? = some [] then parts.dropLast else parts

/-- Whether the last label is a number. -/
def endsInNumber (cs : List Char) : Bool :=
  match (labels cs).getLast? with
  | some label => !label.isEmpty && (label.all Char.isDigit || (part? label).isSome)
  | none => false

/-- The value of an address; its last part fills the bytes that are left. -/
def address? (cs : List Char) : Option Nat := do
  let parts ← (labels cs).mapM part?
  let last ← parts.getLast?
  let front := parts.dropLast
  if 4 < parts.length ∨ front.any (255 < ·) ∨ Nat.pow 256 (5 - parts.length) ≤ last then none
  else some (front.foldl (fun n p => n * 256 + p) 0 * Nat.pow 256 (5 - parts.length) + last)

def addressText (n : Nat) : String :=
  Text.joinWith "." ([3, 2, 1, 0].map fun i => toString (n / Nat.pow 256 i % 256))

/-! ### Addresses of eight pieces -/

/-- A piece of one to four hexadecimal digits. -/
def piece? (cs : List Char) : Option Nat :=
  if cs.isEmpty ∨ 4 < cs.length then none else digits? 16 cs

/-- Four decimal numbers of a byte without superfluous zeros, as two pieces. -/
def quad? (cs : List Char) : Option (List Nat) := do
  let parts := Text.splitAll '.' cs
  let bytes ← parts.mapM fun p =>
    if p.isEmpty ∨ 3 < p.length ∨ (p.head? = some '0' ∧ 1 < p.length) then none else digits? 10 p
  match bytes with
  | [a, b, c, d] =>
    if [a, b, c, d].all (· < 256) then some [a * 256 + b, c * 256 + d] else none
  | _ => none

/-- The pieces between colons. The last one may be written as four numbers. -/
def pieces? (isLast : Bool) (cs : List Char) : Option (List Nat) :=
  if cs.isEmpty then some []
  else do
    let parts := Text.splitAll ':' cs
    let last ← parts.getLast?
    let front ← parts.dropLast.mapM piece?
    if isLast && last.contains '.' then return front ++ (← quad? last)
    else return front ++ [← piece? last]

/-- Cuts at the first two colons in a row. -/
def splitGap? : List Char → Option (List Char × List Char)
  | ':' :: ':' :: rest => some ([], rest)
  | c :: rest => (splitGap? rest).map fun (l, r) => (c :: l, r)
  | [] => none

/-- All eight pieces; two colons in a row stand for zeros. -/
def allPieces? (cs : List Char) : Option (List Nat) :=
  match splitGap? cs with
  | some (l, r) => do
    let front ← pieces? false l
    let back ← pieces? true r
    if front.length + back.length < 8 then
      some (front ++ List.replicate (8 - front.length - back.length) 0 ++ back)
    else none
  | none => do
    let ps ← pieces? true cs
    if ps.length = 8 then some ps else none

/-- How many zeros come first. -/
def leadingZeros (ps : List Nat) : Nat := (ps.takeWhile (· = 0)).length

/-- Where the first longest run of zeros begins, and how long it is. -/
def longestZeros : Nat → List Nat → Nat × Nat
  | _, [] => (0, 0)
  | i, p :: ps =>
    let here := leadingZeros (p :: ps)
    let (j, n) := longestZeros (i + 1) ps
    if n ≤ here then (i, here) else (j, n)

/-- A number in lower-case hexadecimal digits. -/
def hexText (n : Nat) : String := String.ofList (Nat.toDigits 16 n)

/-- Eight pieces in their shortest form. -/
def piecesText (ps : List Nat) : String :=
  let join (ps : List Nat) : String := Text.joinWith ":" (ps.map hexText)
  let (i, n) := longestZeros 0 ps
  if n < 2 then join ps else join (ps.take i) ++ "::" ++ join (ps.drop (i + n))

/-! ### Hosts -/

/-- The signs that may not stand in a name. -/
def isForbidden (c : Char) : Bool :=
  c.toNat ≤ 0x20 || c.toNat = 0x7F
    || ['#', '/', ':', '<', '>', '?', '@', '[', '\\', ']', '^', '|', '%'].contains c

/-- A host in its normal form. A name with characters outside ASCII is refused: it has to be given
in its ASCII form, which the URL standard would compute here. -/
def normalize? (cs : List Char) : Option String :=
  match cs with
  | '[' :: rest =>
    if rest.getLast? = some ']' then
      (allPieces? rest.dropLast).map fun ps => "[" ++ piecesText ps ++ "]"
    else none
  | cs => do
    let name := (← Text.Utf8.decodeChars? (Percent.decodeBytes cs)).map Char.toLower
    if name.isEmpty ∨ name.any isForbidden ∨ name.any (0x7F < ·.toNat) then none
    else if endsInNumber name then (address? name).map addressText
    else some (String.ofList name)

end PlaneRestore.Host
