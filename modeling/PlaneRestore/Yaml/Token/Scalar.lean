import PlaneRestore.Yaml.Token
import PlaneRestore.Json.Reader
/-!
The text of scalars.

* `plain?`, `quoted?`, `block?` read a scalar of each style at a cursor; `none` if it is malformed.
* `Gap.text` says how the blanks and line breaks between two runs of text are folded.
-/

namespace PlaneRestore.Yaml

/-- The blanks and line breaks between two runs of text. `first` is the first line break, empty if
that break is escaped, and `more` the breaks after it. -/
structure Gap where
  blanks : List Char
  broken : Bool
  first : List Char
  more : List Char

namespace Gap

def empty : Gap := ⟨[], false, [], []⟩

/-- A gap that starts with an escaped line break. -/
def escaped : Gap := ⟨[], true, [], []⟩

/-- A single line feed becomes a space, the first of several is dropped. -/
def text (g : Gap) : List Char :=
  if !g.broken then g.blanks
  else if g.first = ['\n'] then (if g.more.isEmpty then [' '] else g.more)
  else g.first ++ g.more

def addBlank (g : Gap) (c : Char) : Gap :=
  if g.broken then g else { g with blanks := g.blanks ++ [c] }

def addBreak (g : Gap) (text : List Char) : Gap :=
  if g.broken then { g with more := g.more ++ text } else ⟨[], true, text, []⟩

/-- Reads a gap. On the lines after a break, a tab before the column `indent` is malformed. -/
def read? (indent : Nat) : Nat → Gap → Cursor → Option (Gap × Cursor)
  | 0, g, c => some (g, c)
  | fuel + 1, g, c =>
    match c.rest with
    | [] => some (g, c)
    | x :: _ =>
      if isBlank x then
        if g.broken && x = '\t' && c.column < indent then none
        else read? indent fuel (g.addBlank x) (c.skip 1)
      else if isBreak x then
        let (text, c) := c.readBreak
        read? indent fuel (g.addBreak text) c
      else some (g, c)

end Gap

/-- A scalar that was read. -/
structure Scanned where
  text : List Char
  /-- The end of the text. -/
  stop : Mark
  /-- Whether a line break was passed after the text. -/
  broken : Bool
  cursor : Cursor

/-- Separates the items of a flow collection, or brackets one. -/
def isFlowIndicator (c : Char) : Bool :=
  c = ',' || c = '[' || c = ']' || c = '\x7b' || c = '\x7d'

/-- The length of the run of plain text at the front. Inside a flow collection, a colon in front of
an indicator is malformed. -/
def plainRun? (inFlow : Bool) : List Char → Option Nat
  | [] => some 0
  | x :: rest =>
    if isBlank x || isBreak x then some 0
    else if inFlow && x = ':' && rest.head?.any (fun y => isFlowIndicator y || y = '?') then none
    else if x = ':' && rest.head?.all (fun y => isBlank y || isBreak y) then some 0
    else if inFlow && isFlowIndicator x then some 0
    else (plainRun? inFlow rest).map (· + 1)

/-- Reads the runs and gaps of a plain scalar. -/
def plainLoop? (inFlow : Bool) (indent : Nat) :
    Nat → Array Char → Mark → Gap → Cursor → Option Scanned
  | 0, text, stop, gap, c => some ⟨text.toList, stop, gap.broken, c⟩
  | fuel + 1, text, stop, gap, c =>
    if c.atDocumentIndicator || c.isAt '#' then some ⟨text.toList, stop, gap.broken, c⟩
    else do
      let n ← plainRun? inFlow c.rest
      let after := c.skip n
      let (text, stop, gap) :=
        if n = 0 then (text, stop, gap)
        else (text ++ gap.text ++ c.rest.take n, after.mark, Gap.empty)
      if after.isAtEnd || !after.blankOrEnds 0 then some ⟨text.toList, stop, gap.broken, after⟩
      else
        let (gap, c) ← Gap.read? indent (fuel + 1) gap after
        -- a line that is indented less belongs to what is around the scalar
        if !inFlow && c.column < indent then some ⟨text.toList, stop, gap.broken, c⟩
        else plainLoop? inFlow indent fuel text stop gap c

/-- Reads a plain scalar. In block context, later lines start at the column `indent` at least. -/
def plain? (inFlow : Bool) (indent : Nat) (c : Cursor) : Option Scanned :=
  plainLoop? inFlow indent (c.rest.length + 1) #[] c.mark Gap.empty c

/-- The character of an escape of one letter. -/
def shortEscape? : Char → Option Char
  | '0' => some '\x00'
  | 'a' => some '\x07'
  | 'b' => some '\x08'
  | 't' => some '\t'
  | '\t' => some '\t'
  | 'n' => some '\n'
  | 'v' => some '\x0b'
  | 'f' => some '\x0c'
  | 'r' => some '\r'
  | 'e' => some '\x1b'
  | ' ' => some ' '
  | '"' => some '"'
  | '/' => some '/'
  | '\\' => some '\\'
  | 'N' => some '\u0085'
  | '_' => some '\u00a0'
  | 'L' => some '\u2028'
  | 'P' => some '\u2029'
  | _ => none

/-- How many hexadecimal digits follow the letter of an escape. -/
def longEscape? : Char → Option Nat
  | 'x' => some 2
  | 'u' => some 4
  | 'U' => some 8
  | _ => none

/-- The number of a run of hexadecimal digits. -/
def hexNumber? (digits : List Char) : Option Nat :=
  digits.foldlM (fun n d => (Json.hexValue? d).map (n * 16 + ·)) 0

/-- The character of the escape after a backslash, and how long the escape is. -/
def escape? : List Char → Option (Char × Nat)
  | [] => none
  | x :: rest =>
    match shortEscape? x with
    | some c => some (c, 1)
    | none => do
      let n ← longEscape? x
      if rest.length < n then none
      else
        let value ← hexNumber? (rest.take n)
        if (0xD800 ≤ value && value ≤ 0xDFFF) || 0x10FFFF < value then none
        else some (Char.ofNat value, n + 1)

/-- The run of text inside quotes up to a blank, a break or the closing quote; whether it ended
with an escaped line break. -/
def quotedRun? (quote : Char) : Nat → Array Char → Cursor → Option (Array Char × Bool × Cursor)
  | 0, text, c => some (text, false, c)
  | fuel + 1, text, c =>
    match c.rest with
    | [] => some (text, false, c)
    | x :: rest =>
      if isBlank x || isBreak x then some (text, false, c)
      else if x = quote then
        -- two single quotes stand for one
        if quote = '\x27' && rest.head? = some quote then
          quotedRun? quote fuel (text.push quote) (c.skip 2)
        else some (text, false, c)
      else if quote = '"' && x = '\\' then
        if rest.head?.any isBreak then some (text, true, (c.skip 1).skipBreak)
        else do
          let (y, n) ← escape? rest
          quotedRun? quote fuel (text.push y) (c.skip (n + 1))
      else quotedRun? quote fuel (text.push x) (c.skip 1)

/-- Reads the runs and gaps of a quoted scalar up to its closing quote. -/
def quotedLoop? (quote : Char) : Nat → Array Char → Cursor → Option (Array Char × Cursor)
  | 0, _, _ => none
  | fuel + 1, text, c =>
    if c.atDocumentIndicator || c.isAtEnd then none
    else do
      let (text, broken, c) ← quotedRun? quote (fuel + 1) text c
      if c.isAt quote then some (text, c.skip 1)
      else
        let (gap, c) ← Gap.read? 0 (fuel + 1) (if broken then Gap.escaped else Gap.empty) c
        quotedLoop? quote fuel (text ++ gap.text) c

/-- Reads a quoted scalar at its opening quote. -/
def quoted? (quote : Char) (c : Cursor) : Option Scanned := do
  let (text, c) ← quotedLoop? quote (c.rest.length + 1) #[] (c.skip 1)
  some ⟨text.toList, c.mark, false, c⟩

/-- What becomes of the line breaks at the end of a block scalar. -/
inductive Chomping where
  | strip
  | clip
  | keep

/-- The header of a block scalar: its chomping and its indentation, zero if that is to be found. -/
def blockHeader? (c : Cursor) : Option (Chomping × Nat × Cursor) :=
  let chomping? (c : Cursor) : Option Chomping :=
    if c.isAt '+' then some .keep else if c.isAt '-' then some .strip else none
  let digit? (c : Cursor) : Option (Option Nat) :=
    if c.sees 0 Char.isDigit then
      if c.isAt '0' then none else some (c.rest.head?.map Json.digitValue)
    else some none
  match chomping? c with
  | some chomping => do
    let c := c.skip 1
    match ← digit? c with
    | some n => some (chomping, n, c.skip 1)
    | none => some (chomping, 0, c)
  | none => do
    match ← digit? c with
    | some n =>
      let c := c.skip 1
      match chomping? c with
      | some chomping => some (chomping, n, c.skip 1)
      | none => some (.clip, n, c)
    | none => some (.clip, 0, c)

/-- Reads indentation and empty lines: the greatest column that was reached, the line breaks, and
the end of the last one. A tab inside the indentation is malformed. -/
def blockBreaks? (indent : Nat) :
    Nat → Nat → List Char → Mark → Cursor → Option (Nat × List Char × Mark × Cursor)
  | 0, widest, breaks, stop, c => some (widest, breaks, stop, c)
  | fuel + 1, widest, breaks, stop, c =>
    let spaces := (c.rest.takeWhile (· = ' ')).length
    let c := c.skip (if indent = 0 then spaces else min spaces (indent - c.column))
    let widest := max widest c.column
    if (indent = 0 || c.column < indent) && c.isAt '\t' then none
    else if c.sees 0 isBreak then
      let (text, c) := c.readBreak
      blockBreaks? indent fuel widest (breaks ++ text) c.mark c
    else some (widest, breaks, stop, c)

/-- Reads the lines of a block scalar. `first` is the line break before the current line, `breaks`
are those of the empty lines after it, and `spaced` says that the last line began with a blank. -/
def blockLines? (isFolded : Bool) (indent : Nat) :
    Nat → Array Char → List Char → List Char → Bool → Mark → Cursor →
      Option (List Char × List Char × List Char × Mark × Cursor)
  | 0, text, first, breaks, _, stop, c => some (text.toList, first, breaks, stop, c)
  | fuel + 1, text, first, breaks, spaced, stop, c =>
    if c.column ≠ indent || c.isAtEnd then some (text.toList, first, breaks, stop, c)
    else do
      let startsBlank := c.sees 0 isBlank
      -- folding joins lines by a space, but not next to one that begins with a blank
      let joint :=
        if isFolded && first = ['\n'] && !spaced && !startsBlank then
          (if breaks.isEmpty then [' '] else [])
        else first
      let (line, c) := c.readWhile (!isBreak ·)
      let (first, c) := c.readBreak
      let (_, more, stop, c) ← blockBreaks? indent (fuel + 1) 0 [] c.mark c
      blockLines? isFolded indent fuel (text ++ joint ++ breaks ++ line) first more startsBlank
        stop c

/-- Reads a block scalar at its indicator, inside a block that is indented to the column
`parent`, which is negative outside every block. -/
def block? (isFolded : Bool) (parent : Int) (c : Cursor) : Option Scanned := do
  let (chomping, increment, c) ← blockHeader? (c.skip 1)
  let c := c.skipTrailer
  if !c.lineEnds 0 then none
  else
    let c := c.skipBreak
    let given := if increment = 0 then 0 else parent.toNat + increment
    let (widest, breaks, stop, c) ← blockBreaks? given (c.rest.length + 1) 0 [] c.mark c
    -- unless it is given, the indentation is the widest up to the first line that is not empty
    let indent := if given = 0 then max widest (max (parent + 1).toNat 1) else given
    let (text, first, breaks, stop, c) ←
      blockLines? isFolded indent (c.rest.length + 1) #[] [] breaks false stop c
    let text := match chomping with
      | .strip => text
      | .clip => text ++ first
      | .keep => text ++ first ++ breaks
    some ⟨text, stop, false, c⟩

end PlaneRestore.Yaml
