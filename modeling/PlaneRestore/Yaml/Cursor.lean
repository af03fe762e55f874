/-!
Positions in a YAML text.

* `Mark` is a line and a column, both counted from zero; `Mark.describe` counts them from one.
* `Cursor` is a mark together with the text that follows it.
* `Cursor.skip`, `Cursor.skipBreak`, `Cursor.readWhile` move a cursor forward.
-/

namespace PlaneRestore.Yaml

/-- A line and a column, counted from zero. -/
structure Mark where
  line : Nat
  column : Nat
deriving DecidableEq, Repr, Inhabited

/-- Line and column in words, after a blank; nothing for the start of the text. -/
def Mark.describe (m : Mark) : String :=
  if m.line = 0 ∧ m.column = 0 then ""
  else " at line " ++ toString (m.line + 1) ++ " column " ++ toString (m.column + 1)

/-- A line feed, carriage return, next line, line separator or paragraph separator. -/
def isBreak (c : Char) : Bool :=
  c = '\n' || c = '\r' || c = '\u0085' || c = '\u2028' || c = '\u2029'

/-- A space or a tab. -/
def isBlank (c : Char) : Bool := c = ' ' || c = '\t'

/-- A character of a name: a letter or digit of ASCII, an underscore or a hyphen. -/
def isNameChar (c : Char) : Bool := c.isAlphanum || c = '_' || c = '-'

/-- The characters that a text may hold. -/
def isAllowed (c : Char) : Bool :=
  let n := c.toNat
  n = 9 || n = 0xA || n = 0xD || (0x20 ≤ n && n ≤ 0x7E) || n = 0x85 || (0xA0 ≤ n && n ≤ 0xFFFD)
    || 0x10000 ≤ n

/-- A place in a text, and what follows. -/
structure Cursor where
  rest : List Char
  /-- How many characters precede. -/
  index : Nat
  mark : Mark
deriving Repr, Inhabited

namespace Cursor

/-- The start of a text. -/
def start (text : List Char) : Cursor := ⟨text, 0, ⟨0, 0⟩⟩

def column (c : Cursor) : Nat := c.mark.column

def line (c : Cursor) : Nat := c.mark.line

def isAtEnd (c : Cursor) : Bool := c.rest.isEmpty

/-- Whether a character follows `n` places ahead, and satisfies `p`. -/
def sees (c : Cursor) (n : Nat) (p : Char → Bool) : Bool := (c.rest[n]?).any p

/-- Whether the next character is `x`. -/
def isAt (c : Cursor) (x : Char) : Bool := c.sees 0 (· = x)

/-- Whether the line ends `n` places ahead. -/
def lineEnds (c : Cursor) (n : Nat) : Bool := (c.rest[n]?).all isBreak

/-- Whether a blank follows `n` places ahead, or the line ends there. -/
def blankOrEnds (c : Cursor) (n : Nat) : Bool := (c.rest[n]?).all fun x => isBlank x || isBreak x

/-- Moves over `n` characters of the line. -/
def skip (c : Cursor) (n : Nat) : Cursor :=
  ⟨c.rest.drop n, c.index + n, ⟨c.line, c.column + n⟩⟩

/-- Moves over a line break and gives it as text: a carriage return with a line feed is one break,
and every break but the two separators reads as a line feed. -/
def readBreak (c : Cursor) : List Char × Cursor :=
  match c.rest with
  | '\r' :: '\n' :: rest => (['\n'], ⟨rest, c.index + 2, ⟨c.line + 1, 0⟩⟩)
  | x :: rest =>
    if isBreak x then
      ([if x = '\u2028' || x = '\u2029' then x else '\n'], ⟨rest, c.index + 1, ⟨c.line + 1, 0⟩⟩)
    else ([], c)
  | [] => ([], c)

def skipBreak (c : Cursor) : Cursor := c.readBreak.2

/-- The longest run of characters that satisfy `p`, which no line break does. -/
def readWhile (c : Cursor) (p : Char → Bool) : List Char × Cursor :=
  let run := c.rest.takeWhile p
  (run, c.skip run.length)

def skipWhile (c : Cursor) (p : Char → Bool) : Cursor := (c.readWhile p).2

/-- Moves over the blanks and a comment at the end of a line. -/
def skipTrailer (c : Cursor) : Cursor :=
  let c := c.skipWhile isBlank
  if c.isAt '#' then c.skipWhile (!isBreak ·) else c

/-- Whether a line starts with three times `x` as a word of its own. -/
def atIndicator (c : Cursor) (x : Char) : Bool :=
  c.column = 0 && c.sees 0 (· = x) && c.sees 1 (· = x) && c.sees 2 (· = x) && c.blankOrEnds 3

/-- Whether a document indicator follows. -/
def atDocumentIndicator (c : Cursor) : Bool := c.atIndicator '-' || c.atIndicator '.'

end Cursor

end PlaneRestore.Yaml
