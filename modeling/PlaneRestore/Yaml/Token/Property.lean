import PlaneRestore.Text.Utf8
import PlaneRestore.Yaml.Token.Scalar
/-!
Anchors, tags and directives.

`name?`, `tag?` and `directive?` read one at a cursor; `none` if it is malformed.
-/

namespace PlaneRestore.Yaml

/-- The signs that may stand in a tag. -/
def tagSigns : List Char :=
  [';', '/', '?', ':', '@', '&', '=', '+', '$', '.', '%', '!', '~', '*', '\x27', '(', ')']

/-- The characters of a tag; the indicators of flow sequences belong to them only inside angle
brackets. -/
def isTagChar (bracketed : Bool) (c : Char) : Bool :=
  isNameChar c || tagSigns.contains c || (bracketed && [',', '[', ']'].contains c)

/-- Reads the name of an anchor or of a reference to one, after its indicator. -/
def name? (c : Cursor) : Option (String × Cursor) :=
  let (name, c) := c.readWhile isNameChar
  if name.isEmpty then none
  else if c.blankOrEnds 0 || c.sees 0 ['?', ':', ',', ']', '\x7d', '%', '@', '\x60'].contains then
    some (String.ofList name, c)
  else none

/-- The byte of an escape: a per cent sign and two hexadecimal digits. -/
def tagByte? : List Char → Option UInt8
  | '%' :: a :: b :: _ => do
    let a ← Json.hexValue? a
    let b ← Json.hexValue? b
    some (UInt8.ofNat (a * 16 + b))
  | _ => none

/-- The number of bytes in a character with the given leading byte. -/
def byteLength? (b : UInt8) : Option Nat :=
  if b < 0x80 then some 1
  else if b < 0xC0 then none
  else if b < 0xE0 then some 2
  else if b < 0xF0 then some 3
  else if b < 0xF8 then some 4
  else none

/-- The continuation bytes of an escaped character. -/
def tagBytes? : Nat → List Char → Option (List UInt8)
  | 0, _ => some []
  | n + 1, cs => do
    let b ← tagByte? cs
    if Text.Utf8.isContinuation b then
      let bs ← tagBytes? n (cs.drop 3)
      some (b :: bs)
    else none

/-- Reads the characters of a tag, resolving escapes. -/
def tagText? (bracketed : Bool) : Nat → List UInt8 → Cursor → Option (List UInt8 × Cursor)
  | 0, acc, c => some (acc, c)
  | fuel + 1, acc, c =>
    match c.rest with
    | [] => some (acc, c)
    | x :: _ =>
      if !isTagChar bracketed x then some (acc, c)
      else if x = '%' then do
        let b ← tagByte? c.rest
        let n ← byteLength? b
        let bs ← tagBytes? (n - 1) (c.rest.drop 3)
        tagText? bracketed fuel (acc ++ b :: bs) (c.skip (3 * n))
      else tagText? bracketed fuel (acc ++ Text.Utf8.encode (String.singleton x)) (c.skip 1)

/-- Reads the rest of a tag after what was already taken for a handle: its first character is
dropped, and a handle of one character does count towards a tag that may not be empty. -/
def tagRest? (bracketed : Bool) (head : List Char) (c : Cursor) : Option (String × Cursor) := do
  let (bytes, c') ← tagText? bracketed c.rest.length [] c
  if head.isEmpty && c'.index = c.index then none
  else some (String.ofList head.tail ++ Text.Utf8.decodeLossy bytes, c')

/-- Reads a handle: an exclamation mark, a name, and another exclamation mark if it follows. -/
def tagHandle? (c : Cursor) : Option (List Char × Cursor) :=
  if !c.isAt '!' then none
  else
    let (name, c) := (c.skip 1).readWhile isNameChar
    if c.isAt '!' then some ('!' :: name ++ ['!'], c.skip 1) else some ('!' :: name, c)

/-- Reads a tag: its handle and the rest. A tag in angle brackets has the empty handle. -/
def tag? (inFlow : Bool) (c : Cursor) : Option (String × String × Cursor) := do
  let (handle, suffix, c) ←
    if c.sees 1 (· = '<') then do
      let (suffix, c) ← tagRest? true [] (c.skip 2)
      if c.isAt '>' then some ("", suffix, c.skip 1) else none
    else do
      let (handle, c) ← tagHandle? c
      if 1 < handle.length && handle.getLast? = some '!' then do
        let (suffix, c) ← tagRest? false [] c
        some (String.ofList handle, suffix, c)
      else do
        let (suffix, c) ← tagRest? false handle c
        if suffix.isEmpty then some ("", "!", c) else some ("!", suffix, c)
  if c.blankOrEnds 0 || (inFlow && c.isAt ',') then some (handle, suffix, c) else none

/-- Reads a number of at most nine digits. -/
def versionNumber? (c : Cursor) : Option (Nat × Cursor) :=
  let (digits, c) := c.readWhile Char.isDigit
  if digits.isEmpty || 9 < digits.length then none
  else some (digits.foldl (fun n d => n * 10 + Json.digitValue d) 0, c)

/-- Reads the value of a directive. -/
def directiveValue? (name : String) (c : Cursor) : Option (TokenKind × Cursor) := do
  let c := c.skipWhile isBlank
  if name = "YAML" then
    let (major, c) ← versionNumber? c
    if !c.isAt '.' then none
    else
      let (minor, c) ← versionNumber? (c.skip 1)
      some (.version major minor, c)
  else if name = "TAG" then
    let (handle, c) ← tagHandle? c
    if handle.length ≠ 1 && handle.getLast? ≠ some '!' then none
    else if !c.sees 0 isBlank then none
    else
      let (expansion, c) ← tagRest? true [] (c.skipWhile isBlank)
      if c.blankOrEnds 0 then some (.tagHandle (String.ofList handle) expansion, c) else none
  else none

/-- Reads a directive and its line, after the per cent sign. -/
def directive? (c : Cursor) : Option (TokenKind × Mark × Cursor) := do
  let (name, c) := c.readWhile isNameChar
  if name.isEmpty || !c.blankOrEnds 0 then none
  else
    let (kind, c) ← directiveValue? (String.ofList name) c
    let stop := c.mark
    let c := c.skipTrailer
    if c.lineEnds 0 then some (kind, stop, c.skipBreak) else none

end PlaneRestore.Yaml
