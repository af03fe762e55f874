/-!
Base64.

* `Base64.encode` writes bytes in groups of four digits, the last one filled up with `=`.
* `Base64.decode?` reads such groups.
-/

namespace PlaneRestore.Text.Base64

/-- The digit of a value below 64. -/
def digit (n : Nat) : Char :=
  if n < 26 then Char.ofNat (65 + n)
  else if n < 52 then Char.ofNat (71 + n)
  else if n < 62 then Char.ofNat (n - 4)
  else if n = 62 then '+' else '/'

/-- The value of a digit. -/
def value? (c : Char) : Option Nat :=
  if c.isUpper then some (c.toNat - 65)
  else if c.isLower then some (c.toNat - 71)
  else if c.isDigit then some (c.toNat + 4)
  else if c = '+' then some 62
  else if c = '/' then some 63
  else none

/-- Writes bytes. -/
def encode : List UInt8 → List Char
  | [] => []
  | [a] => [digit (a.toNat / 4), digit (a.toNat % 4 * 16), '=', '=']
  | [a, b] =>
    [digit (a.toNat / 4), digit (a.toNat % 4 * 16 + b.toNat / 16), digit (b.toNat % 16 * 4), '=']
  | a :: b :: c :: rest =>
    digit (a.toNat / 4) :: digit (a.toNat % 4 * 16 + b.toNat / 16)
      :: digit (b.toNat % 16 * 4 + c.toNat / 64) :: digit (c.toNat % 64) :: encode rest

/-- The bytes of a group whose digits are the values, as many as it has in full. -/
def group (count : Nat) (values : List Nat) : List UInt8 :=
  let n := values.foldl (fun n v => n * 64 + v) 0 * Nat.pow 64 (4 - values.length)
  ([n / 65536, n / 256, n].map fun m => UInt8.ofNat (m % 256)).take count

/-- Reads groups of four digits. -/
def decode? : List Char → Option (List UInt8)
  | [] => some []
  | [a, b, '=', '='] => do return group 1 [← value? a, ← value? b]
  | [a, b, c, '='] => do return group 2 [← value? a, ← value? b, ← value? c]
  | a :: b :: c :: d :: rest => do
    return group 3 [← value? a, ← value? b, ← value? c, ← value? d] ++ (← decode? rest)
  | _ => none

end PlaneRestore.Text.Base64
