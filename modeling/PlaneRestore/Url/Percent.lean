import PlaneRestore.Text.Utf8
/-!
Percent-encoding.

`Percent.encode` writes the characters that may not stand for themselves as the bytes of their
UTF-8; the rest of the module says for each part of a URL which these are.
-/

namespace PlaneRestore.Percent

/-- A digit of a byte: upper case from ten on. -/
def hexDigit (n : Nat) : Char :=
  if n < 10 then Char.ofNat (48 + n) else Char.ofNat (55 + n)

/-- A byte in two hexadecimal digits. -/
def encodeByte (b : UInt8) : List Char :=
  ['%', hexDigit (b.toNat / 16), hexDigit (b.toNat % 16)]

/-- Encodes the characters in a set. -/
def encode (inSet : Char → Bool) (cs : List Char) : List Char :=
  cs.flatMap fun c =>
    if inSet c then (Text.Utf8.encode (String.singleton c)).flatMap encodeByte else [c]

/-- The value of a hexadecimal digit. -/
def hexValue? (c : Char) : Option Nat :=
  if c.isDigit then some (c.toNat - 48)
  else if 'a' ≤ c ∧ c ≤ 'f' then some (c.toNat - 87)
  else if 'A' ≤ c ∧ c ≤ 'F' then some (c.toNat - 55)
  else none

/-- The bytes that are meant. A percent sign without two digits after it stands for itself. -/
def decodeBytes : List Char → List UInt8
  | [] => []
  | '%' :: a :: b :: rest =>
    match hexValue? a, hexValue? b with
    | some x, some y => UInt8.ofNat (16 * x + y) :: decodeBytes rest
    | _, _ => '%'.toNat.toUInt8 :: decodeBytes (a :: b :: rest)
  | c :: rest => Text.Utf8.encode (String.singleton c) ++ decodeBytes rest

/-! ### Which characters are encoded -/

/-- Everything outside printable ASCII. -/
def inControlSet (c : Char) : Bool := c.toNat < 0x20 || 0x7E < c.toNat

def inFragmentSet (c : Char) : Bool := inControlSet c || [' ', '"', '<', '>', '\x60'].contains c

def inPathSet (c : Char) : Bool :=
  inFragmentSet c || ['#', '?', '^', '\x7b', '\x7d'].contains c

def inQuerySet (c : Char) : Bool :=
  inControlSet c || [' ', '"', '#', '<', '>', '\x27'].contains c

/-- In the names and values of a form, letters, digits and few signs stand for themselves. -/
def inFormSet (c : Char) : Bool :=
  !(c.isAlphanum || ['*', '-', '.', '_', ' '].contains c)

/-- A name or a value of a form. -/
def encodeForm (cs : List Char) : List Char :=
  (encode inFormSet cs).map fun c => if c = ' ' then '+' else c

end PlaneRestore.Percent
