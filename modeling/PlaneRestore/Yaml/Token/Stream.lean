import PlaneRestore.Yaml.Token.Property
/-!
The tokens of a text.

`Token.scan text` is the list of the tokens that can be delivered; after a fault there are no more,
and the token for the end of the stream is missing. A key is recognised by the colon that follows
it: until then its place is remembered, and no token at or after that place is delivered.
-/

namespace PlaneRestore.Yaml

/-- A place where a key may have started. -/
structure PossibleKey where
  /-- The number of the token that starts there. -/
  token : Nat
  /-- Nothing but a key can stand there. -/
  isRequired : Bool
  index : Nat
  mark : Mark

/-- The state of reading tokens. -/
structure Scanner where
  cursor : Cursor
  /-- The tokens read and not yet delivered. -/
  queue : List Token
  /-- How many tokens were delivered. -/
  delivered : Nat
  /-- The column of the current block, negative outside every block. -/
  indent : Int
  /-- The columns of the blocks around it. -/
  outer : List Int
  /-- The possible key of each level, the innermost flow collection first. -/
  keys : List (Option PossibleKey)
  /-- Whether a key may start here. -/
  keyAllowed : Bool

namespace Scanner

def start (text : List Char) : Scanner :=
  ⟨Cursor.start text, [⟨.streamStart, ⟨0, 0⟩, ⟨0, 0⟩⟩], 0, -1, [], [none], true⟩

def inFlow (s : Scanner) : Bool := 1 < s.keys.length

def mark (s : Scanner) : Mark := s.cursor.mark

def push (s : Scanner) (kind : TokenKind) (start stop : Mark) : Scanner :=
  { s with queue := s.queue ++ [⟨kind, start, stop⟩] }

/-- A key ends on its line, and within 1024 characters. -/
def isStale (s : Scanner) (k : PossibleKey) : Bool :=
  k.mark.line < s.cursor.line || k.index + 1024 < s.cursor.index

/-- Forgets the possible keys that have become stale. -/
def dropStale? (s : Scanner) : Option Scanner :=
  if s.keys.any fun k => k.any fun k => k.isRequired && s.isStale k then none
  else some { s with keys := s.keys.map fun k => if k.any s.isStale then none else k }

/-- Forgets the possible key of the current level. -/
def dropKey? (s : Scanner) : Option Scanner :=
  match s.keys with
  | some k :: rest => if k.isRequired then none else some { s with keys := none :: rest }
  | _ => some s

/-- Remembers that a key may start here. -/
def saveKey? (s : Scanner) : Option Scanner :=
  if !s.keyAllowed then some s
  else do
    let isRequired := !s.inFlow && s.indent = s.cursor.column
    let key := ⟨s.delivered + s.queue.length, isRequired, s.cursor.index, s.mark⟩
    let s ← s.dropKey?
    some { s with keys := some key :: s.keys.tail }

def insertAt (token : Token) (n : Nat) (queue : List Token) : List Token :=
  queue.take n ++ token :: queue.drop n

/-- Opens a block at a column further right. -/
def openBlock (s : Scanner) (column : Nat) (position : Nat) (kind : TokenKind) (mark : Mark) :
    Scanner :=
  if s.inFlow || (column : Int) ≤ s.indent then s
  else
    { s with
      queue := insertAt ⟨kind, mark, mark⟩ position s.queue
      outer := s.indent :: s.outer
      indent := column }

/-- Closes the blocks further right than a column. -/
def closeBlocks (column : Int) : List Int → Scanner → Scanner
  | [], s => s
  | outer :: rest, s =>
    if s.indent ≤ column then s
    else closeBlocks column rest
      { s.push .blockEnd s.mark s.mark with indent := outer, outer := rest }

/-- Closes the blocks further right than a column, outside flow collections. -/
def unindent (s : Scanner) (column : Int) : Scanner :=
  if s.inFlow then s else closeBlocks column s.outer s

/-- Moves over blanks, comments and line breaks. A line may start with a byte order mark, and a tab
is a blank where no key may start. -/
def skipToToken : Nat → Scanner → Scanner
  | 0, s => s
  | fuel + 1, s =>
    let c := s.cursor
    let c := if c.column = 0 && c.isAt '\uFEFF' then c.skip 1 else c
    let c := c.skipWhile fun x => x = ' ' || ((s.inFlow || !s.keyAllowed) && x = '\t')
    let c := if c.isAt '#' then c.skipWhile (!isBreak ·) else c
    if c.sees 0 isBreak then
      skipToToken fuel
        { s with cursor := c.skipBreak, keyAllowed := s.keyAllowed || !s.inFlow }
    else { s with cursor := c }

/-- Reads an indicator of `n` characters. -/
def indicator (s : Scanner) (kind : TokenKind) (n : Nat) : Scanner :=
  let c := s.cursor.skip n
  { s.push kind s.mark c.mark with cursor := c }

/-- The end of the text closes every block. -/
def endStream? (s : Scanner) : Option Scanner := do
  let m : Mark := if s.cursor.column = 0 then s.mark else ⟨s.cursor.line + 1, 0⟩
  let s := { s with cursor := { s.cursor with mark := m } }
  let s ← (s.unindent (-1)).dropKey?
  some ({ s with keyAllowed := false }.push .streamEnd m m)

def directiveToken? (s : Scanner) : Option Scanner := do
  let s ← (s.unindent (-1)).dropKey?
  let (kind, stop, c) ← directive? (s.cursor.skip 1)
  some { s.push kind s.mark stop with cursor := c, keyAllowed := false }

def documentIndicator? (s : Scanner) (kind : TokenKind) : Option Scanner := do
  let s ← (s.unindent (-1)).dropKey?
  some ({ s with keyAllowed := false }.indicator kind 3)

def flowStart? (s : Scanner) (kind : TokenKind) : Option Scanner := do
  let s ← s.saveKey?
  some ({ s with keys := none :: s.keys, keyAllowed := true }.indicator kind 1)

def flowEnd? (s : Scanner) (kind : TokenKind) : Option Scanner := do
  let s ← s.dropKey?
  let keys := match s.keys with
    | _ :: k :: rest => k :: rest
    | keys => keys
  some ({ s with keys := keys, keyAllowed := false }.indicator kind 1)

def flowEntry? (s : Scanner) : Option Scanner := do
  let s ← s.dropKey?
  some ({ s with keyAllowed := true }.indicator .flowEntry 1)

/-- Opens a block at an indicator that stands where a key may start. -/
def blockIndicator? (s : Scanner) (block : TokenKind) : Option Scanner :=
  if s.inFlow then some s
  else if s.keyAllowed then some (s.openBlock s.cursor.column s.queue.length block s.mark)
  else none

def blockEntry? (s : Scanner) : Option Scanner := do
  let s ← (← s.blockIndicator? .blockSequenceStart).dropKey?
  some ({ s with keyAllowed := true }.indicator .blockEntry 1)

def explicitKey? (s : Scanner) : Option Scanner := do
  let s ← (← s.blockIndicator? .blockMappingStart).dropKey?
  some ({ s with keyAllowed := !s.inFlow }.indicator .key 1)

/-- A colon: the key before it, if there was one, gets its token now. -/
def valueIndicator? (s : Scanner) : Option Scanner :=
  match s.keys with
  | some k :: rest =>
    -- the key goes in front of the token at its place, and a new block in front of the key
    let position := k.token - s.delivered
    let s := { s with queue := insertAt ⟨.key, k.mark, k.mark⟩ position s.queue }
    let s := s.openBlock k.mark.column position .blockMappingStart k.mark
    some ({ s with keys := none :: rest, keyAllowed := false }.indicator .value 1)
  | _ => do
    -- a colon without a key in front of it
    let s ← s.blockIndicator? .blockMappingStart
    some ({ s with keyAllowed := !s.inFlow }.indicator .value 1)

def nameToken? (s : Scanner) (kind : String → TokenKind) : Option Scanner := do
  let s ← s.saveKey?
  let (name, c) ← name? (s.cursor.skip 1)
  some { s.push (kind name) s.mark c.mark with cursor := c, keyAllowed := false }

def tagToken? (s : Scanner) : Option Scanner := do
  let s ← s.saveKey?
  let (handle, suffix, c) ← tag? s.inFlow s.cursor
  some { s.push (.tag handle suffix) s.mark c.mark with cursor := c, keyAllowed := false }

def scalarToken (s : Scanner) (style : Style) (keyAllowed : Bool) (r : Scanned) : Scanner :=
  { s.push (.scalar (String.ofList r.text) style) s.mark r.stop with
    cursor := r.cursor
    keyAllowed := keyAllowed }

def blockScalar? (s : Scanner) (isFolded : Bool) : Option Scanner := do
  let s ← s.dropKey?
  let r ← block? isFolded s.indent s.cursor
  some (s.scalarToken (if isFolded then .folded else .literal) true r)

def quotedScalar? (s : Scanner) (quote : Char) : Option Scanner := do
  let s ← s.saveKey?
  let r ← quoted? quote s.cursor
  some (s.scalarToken .quoted false r)

def plainScalar? (s : Scanner) : Option Scanner := do
  let s ← s.saveKey?
  let r ← plain? s.inFlow (s.indent + 1).toNat s.cursor
  some (s.scalarToken .plain r.broken r)

/-- Reads the next token at a cursor that is not at the end. -/
def tokenAt? (s : Scanner) (x : Char) : Option Scanner :=
  let c := s.cursor
  if c.column = 0 && x = '%' then s.directiveToken?
  else if c.atIndicator '-' then s.documentIndicator? .documentStart
  else if c.atIndicator '.' then s.documentIndicator? .documentEnd
  else if x = '[' then s.flowStart? .flowSequenceStart
  else if x = '\x7b' then s.flowStart? .flowMappingStart
  else if x = ']' then s.flowEnd? .flowSequenceEnd
  else if x = '\x7d' then s.flowEnd? .flowMappingEnd
  else if x = ',' then s.flowEntry?
  -- in a block these three indicate something only in front of a blank
  else if x = '-' && c.blankOrEnds 1 then s.blockEntry?
  else if x = '?' && (s.inFlow || c.blankOrEnds 1) then s.explicitKey?
  else if x = ':' && (s.inFlow || c.blankOrEnds 1) then s.valueIndicator?
  else if x = '*' then s.nameToken? .reference
  else if x = '&' then s.nameToken? .anchor
  else if x = '!' then s.tagToken?
  else if x = '|' && !s.inFlow then s.blockScalar? false
  else if x = '>' && !s.inFlow then s.blockScalar? true
  else if x = '\x27' || x = '"' then s.quotedScalar? x
  -- no plain scalar begins with these
  else if isBlank x || ['#', '|', '>', '%', '@', '\x60'].contains x then none
  else s.plainScalar?

/-- Reads the next token. -/
def next? (s : Scanner) : Option Scanner := do
  let s ← (skipToToken (s.cursor.rest.length + 1) s).dropStale?
  let s := s.unindent s.cursor.column
  match s.cursor.rest with
  | [] => s.endStream?
  | x :: _ => s.tokenAt? x

/-- Whether the first token of the queue may still get a key in front of it. -/
def headIsOpen (s : Scanner) : Bool :=
  s.keys.any fun k => k.any (·.token = s.delivered)

/-- Delivers tokens up to the end of the text or the first fault. -/
def run : Nat → Scanner → Array Token → Array Token
  | 0, _, out => out
  | fuel + 1, s, out =>
    match s.queue with
    | [] =>
      match s.next? with
      | some s => run fuel s out
      | none => out
    | token :: queue =>
      match s.dropStale? with
      | none => out
      | some s =>
        -- the token waits until it is known whether it belongs to a key
        if s.headIsOpen then
          match s.next? with
          | some s => run fuel s out
          | none => out
        else if token.kind = .streamEnd then out.push token
        else run fuel { s with queue := queue, delivered := s.delivered + 1 } (out.push token)

end Scanner

/-- The tokens of a text up to the end of the stream, or up to its first fault. -/
def Token.scan (text : List Char) : List Token :=
  (Scanner.run (8 * text.length + 16) (Scanner.start text) #[]).toList

end PlaneRestore.Yaml
