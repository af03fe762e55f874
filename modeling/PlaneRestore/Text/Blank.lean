/-!
White space.

* `isBlank c` holds of the characters with the property White_Space.
* `dropBlanks`, `trimBlanks` remove them at the start, and at both ends.
-/

namespace PlaneRestore.Text

/-- The characters with the property White_Space. -/
def isBlank (c : Char) : Bool :=
  let n := c.toNat
  (9 ≤ n && n ≤ 13) || n == 0x20 || n == 0x85 || n == 0xA0 || n == 0x1680
    || (0x2000 ≤ n && n ≤ 0x200A) || n == 0x2028 || n == 0x2029 || n == 0x202F
    || n == 0x205F || n == 0x3000

/-- Drops the white space at the start. -/
def dropBlanks (cs : List Char) : List Char :=
  cs.dropWhile isBlank

/-- Drops the white space at both ends. -/
def trimBlanks (cs : List Char) : List Char :=
  (dropBlanks (dropBlanks cs).reverse).reverse

/-- ASCII letters in lower case, every other character unchanged. -/
def lowerAscii (s : String) : String :=
  String.ofList (s.toList.map Char.toLower)

end PlaneRestore.Text
