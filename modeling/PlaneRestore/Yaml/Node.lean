import PlaneRestore.Table
import PlaneRestore.Yaml.Token.Stream
/-!
The nodes of a YAML document.

* `Document.read bytes` is the first document of a text. A document that breaks off has a `cut`
  node where the next node would have come, and carries the fault.
* References are kept as numbers; `Document.target?` finds the node with such a number.
-/

namespace PlaneRestore.Yaml

/-- A node of a document. -/
inductive Node where
  | scalar (mark : Mark) (anchor : Option Nat) (tag : Option String) (text : String)
      (style : Style)
  | sequence (mark : Mark) (anchor : Option Nat) (tag : Option String) (items : List Node)
  | mapping (mark : Mark) (anchor : Option Nat) (tag : Option String)
      (entries : List (Node × Node))
  | reference (anchor : Nat)
  /-- Stands in an empty text. -/
  | void (mark : Mark)
  /-- The document breaks off here. -/
  | cut
deriving Repr, Inhabited

/-- Why a document breaks off. -/
inductive Fault where
  | malformed
  | unknownAnchor (mark : Mark)
deriving DecidableEq, Repr

/-- What is left of a text after a part of a document. -/
structure Rest where
  tokens : List Token
  /-- The numbers of the anchors seen so far. -/
  anchors : List (String × Nat)
  /-- What the handles of tags stand for. -/
  handles : List (String × String)

namespace Rest

/-- The kind of the next token. -/
def kind? (r : Rest) : Option TokenKind := r.tokens.head?.map (·.kind)

def drop (r : Rest) : Rest := { r with tokens := r.tokens.tail }

/-- The place of the next token. -/
def mark (r : Rest) : Mark := (r.tokens.head?.map (·.start)).getD ⟨0, 0⟩

/-- Where the next token ends. -/
def stop (r : Rest) : Mark := (r.tokens.head?.map (·.stop)).getD ⟨0, 0⟩

/-- Numbers an anchor by how many different ones there are; a known one is numbered anew. -/
def name (r : Rest) : Option String → Option Nat × Rest
  | none => (none, r)
  | some a => (some r.anchors.length, { r with anchors := Table.put a r.anchors.length r.anchors })

end Rest

/-- The anchor and the tag in front of a node. -/
structure Properties where
  mark : Mark
  anchor : Option String
  /-- Handle and suffix. -/
  tag : Option (String × String)

/-- Reads an anchor and a tag, in either order. -/
def Properties.read (r : Rest) : Properties × Rest :=
  let mark := r.mark
  match r.kind? with
  | some (.anchor a) =>
    let r := r.drop
    match r.kind? with
    | some (.tag h s) => (⟨mark, some a, some (h, s)⟩, r.drop)
    | _ => (⟨mark, some a, none⟩, r)
  | some (.tag h s) =>
    let r := r.drop
    match r.kind? with
    | some (.anchor a) => (⟨mark, some a, some (h, s)⟩, r.drop)
    | _ => (⟨mark, none, some (h, s)⟩, r)
  | _ => (⟨mark, none, none⟩, r)

/-- A tag with what its handle stands for. -/
def resolveTag? (r : Rest) : Option (String × String) → Option (Option String)
  | none => some none
  | some (handle, suffix) =>
    if handle = "" then some (some suffix)
    else ((r.handles.find? (·.1 = handle)).map fun h => some (h.2 ++ suffix))

/-- An empty scalar, where a node is left out. -/
def Node.empty (mark : Mark) : Node := .scalar mark none none "" .plain

/-- A part of a document and what follows it, or the fault at which it breaks off. -/
abbrev Part (α : Type) := α × Except Fault Rest

/-- There is no node where there has to be one. -/
def broken : Part Node := (.cut, .error .malformed)

/-- The place of an item or entry that is not there. -/
def brokenItems : Part (List Node) := ([.cut], .error .malformed)

/-- The place of an item or entry that is not there. -/
def brokenEntries : Part (List (Node × Node)) := ([(.cut, .cut)], .error .malformed)

/-- A node that is left out. -/
def omitted (mark : Mark) (r : Rest) : Part Node := (.empty mark, .ok r)

/-- Whether a token ends the entry of a block mapping. -/
def endsEntry : Option TokenKind → Bool
  | some .key | some .value | some .blockEnd => true
  | _ => false

/-- Whether a token ends an item of a sequence without brackets. -/
def endsItem (isIndented : Bool) : Option TokenKind → Bool
  | some .blockEntry | some .blockEnd => true
  | some .key | some .value => !isIndented
  | _ => false

mutual

/-- Reads a node. Blocks are possible outside flow collections; a sequence that is a value may stand
in the column of its key. -/
def node : Nat → (inBlock isValue : Bool) → Rest → Part Node
  | 0, _, _, _ => broken
  | fuel + 1, inBlock, isValue, r =>
    match r.kind? with
    | none => broken
    | some (.reference a) =>
      match Table.get? a r.anchors with
      | some n => (.reference n, .ok r.drop)
      | none => (.cut, .error (.unknownAnchor r.mark))
    | some _ =>
      let (p, r) := Properties.read r
      -- a tag that cannot be resolved breaks the document before anything else of its node is seen
      match r.kind?, resolveTag? r p.tag with
      | none, _ => broken
      | _, none => broken
      | some kind, some tag =>
        let isBare := p.anchor.isNone && p.tag.isNone
        let mark := if isBare then r.mark else p.mark
        let (anchor, named) := r.name p.anchor
        match kind with
        | .scalar text style => (.scalar mark anchor tag text style, .ok named.drop)
        | .flowSequenceStart =>
          let (items, rest) := flowItems fuel true named.drop
          (.sequence mark anchor tag items, rest)
        | .flowMappingStart =>
          let (entries, rest) := flowEntries fuel true named.drop
          (.mapping mark anchor tag entries, rest)
        | kind =>
          -- here the hyphens stand in the column of the key, and no token closes the sequence
          if isValue && kind = .blockEntry then
            let (items, rest) := blockItems fuel false named
            (.sequence mark anchor tag items, rest)
          else if inBlock && kind = .blockSequenceStart then
            let (items, rest) := blockItems fuel true named.drop
            (.sequence mark anchor tag items, rest)
          else if inBlock && kind = .blockMappingStart then
            let (entries, rest) := blockEntries fuel named.drop
            (.mapping mark anchor tag entries, rest)
          -- an anchor or a tag alone is an empty scalar
          else if isBare then broken
          else (.scalar mark anchor tag "" .plain, .ok named)

/-- Reads the items of a block sequence. -/
def blockItems : Nat → (isIndented : Bool) → Rest → Part (List Node)
  | 0, _, _ => brokenItems
  | fuel + 1, isIndented, r =>
    match r.kind? with
    | some .blockEntry =>
      let stop := r.stop
      let r := r.drop
      let (item, rest) : Part Node :=
        if r.kind?.isNone then broken
        else if endsItem isIndented r.kind? then omitted stop r
        else node fuel true false r
      match rest with
      | .error f => ([item], .error f)
      | .ok r =>
        let (items, rest) := blockItems fuel isIndented r
        (item :: items, rest)
    | some .blockEnd => ([], .ok (if isIndented then r.drop else r))
    | some _ => if isIndented then brokenItems else ([], .ok r)
    | none => brokenItems

/-- Reads the key or the value of an entry of a block mapping after its indicator. -/
def blockPart : Nat → Mark → Rest → Part Node
  | 0, _, _ => broken
  | fuel + 1, stop, r =>
    if r.kind?.isNone then broken
    else if endsEntry r.kind? then omitted stop r
    else node fuel true true r

/-- Reads the entries of a block mapping. -/
def blockEntries : Nat → Rest → Part (List (Node × Node))
  | 0, _ => brokenEntries
  | fuel + 1, r =>
    match r.kind? with
    | some .key =>
      let (key, rest) : Part Node := blockPart fuel r.stop r.drop
      match rest with
      | .error f => ([(key, .cut)], .error f)
      | .ok r =>
        let (value, rest) : Part Node :=
          match r.kind? with
          | some .value => blockPart fuel r.stop r.drop
          | some _ => omitted r.mark r
          | none => broken
        match rest with
        | .error f => ([(key, value)], .error f)
        | .ok r =>
          let (entries, rest) := blockEntries fuel r
          ((key, value) :: entries, rest)
    | some .blockEnd => ([], .ok r.drop)
    | _ => brokenEntries

/-- Reads the items of a flow sequence. -/
def flowItems : Nat → (isFirst : Bool) → Rest → Part (List Node)
  | 0, _, _ => brokenItems
  | fuel + 1, isFirst, r =>
    match r.kind? with
    | some .flowSequenceEnd => ([], .ok r.drop)
    | none => brokenItems
    | some kind =>
      if !isFirst && kind ≠ .flowEntry then brokenItems
      else
        let r := if isFirst then r else r.drop
        -- a comma may stand after the last item
        match r.kind? with
        | some .flowSequenceEnd => ([], .ok r.drop)
        | none => brokenItems
        | some kind =>
          let (item, rest) : Part Node :=
            if kind = .key then flowPair fuel r.mark r.drop else node fuel false false r
          match rest with
          | .error f => ([item], .error f)
          | .ok r =>
            let (items, rest) := flowItems fuel false r
            (item :: items, rest)

/-- Reads an item of a flow sequence that is a mapping with one entry. A token that stands in the
place of a key is passed over. -/
def flowPair : Nat → Mark → Rest → Part Node
  | 0, _, _ => broken
  | fuel + 1, mark, r =>
    let pair (key value : Node) := Node.mapping mark none none [(key, value)]
    let (key, rest) : Part Node :=
      match r.kind? with
      | none => broken
      | some .value | some .flowEntry | some .flowSequenceEnd => omitted r.stop r.drop
      | some _ => node fuel false false r
    match rest with
    | .error f => (pair key .cut, .error f)
    | .ok r =>
      let (value, rest) : Part Node := flowValue fuel .flowSequenceEnd r
      match rest with
      | .error f => (pair key value, .error f)
      | .ok r =>
        -- without a further token it cannot be told that the pair is complete
        if r.kind?.isNone then
          (.mapping mark none none [(key, value), (.cut, .cut)], .error .malformed)
        else (pair key value, .ok r)

/-- Reads the value of an entry of a flow collection, which may be left out. -/
def flowValue : Nat → (closing : TokenKind) → Rest → Part Node
  | 0, _, _ => broken
  | fuel + 1, closing, r =>
    match r.kind? with
    | none => broken
    | some .value =>
      let r := r.drop
      match r.kind? with
      | none => broken
      | some kind =>
        if kind = .flowEntry || kind = closing then omitted r.mark r
        else node fuel false false r
    | some _ => omitted r.mark r

/-- Reads the entries of a flow mapping. -/
def flowEntries : Nat → (isFirst : Bool) → Rest → Part (List (Node × Node))
  | 0, _, _ => brokenEntries
  | fuel + 1, isFirst, r =>
    match r.kind? with
    | some .flowMappingEnd => ([], .ok r.drop)
    | none => brokenEntries
    | some kind =>
      if !isFirst && kind ≠ .flowEntry then brokenEntries
      else
        let r := if isFirst then r else r.drop
        match r.kind? with
        | some .flowMappingEnd => ([], .ok r.drop)
        | none => brokenEntries
        | some kind =>
          let isMarked := kind = .key
          let (key, rest) : Part Node :=
            if isMarked then
              let r := r.drop
              match r.kind? with
              | none => broken
              | some .value | some .flowEntry | some .flowMappingEnd => omitted r.mark r
              | some _ => node fuel false false r
            else node fuel false false r
          match rest with
          | .error f => ([(key, .cut)], .error f)
          | .ok r =>
            let (value, rest) : Part Node :=
              if isMarked then flowValue fuel .flowMappingEnd r
              else if r.kind?.isNone then broken
              else omitted r.mark r
            match rest with
            | .error f => ([(key, value)], .error f)
            | .ok r =>
              let (entries, rest) := flowEntries fuel false r
              ((key, value) :: entries, rest)

end

/-- Reads the directives in front of a document. -/
def directives? (version : Bool) (handles : List (String × String)) :
    List Token → Option (List (String × String) × List Token)
  | [] => none
  | t :: rest =>
    match t.kind with
    | .version major minor =>
      if version || major ≠ 1 || (minor ≠ 1 && minor ≠ 2) then none
      else directives? true handles rest
    | .tagHandle handle expansion =>
      if handles.any (·.1 = handle) then none
      else directives? version (handles ++ [(handle, expansion)]) rest
    | _ => some (handles, t :: rest)

/-- What the two short handles stand for unless a directive says otherwise. -/
def defaultHandles : List (String × String) := [("!", "!"), ("!!", "tag:yaml.org,2002:")]

/-- A document of a text. -/
structure Document where
  root : Node
  fault : Option Fault
  /-- Whether anything but the end of the text follows. -/
  hasMore : Bool
deriving Repr

/-- A document that breaks off before its first node. -/
def Document.broken : Document := ⟨.cut, some .malformed, false⟩

/-- Whether anything but the end of the text follows a document. -/
def followsMore : List Token → Bool
  | [] => true
  | t :: rest =>
    match t.kind with
    | .documentEnd => followsMore rest
    | .streamEnd => false
    | _ => true

/-- The document whose content comes next. -/
def Document.ofContent (handles : List (String × String)) (mayBeEmpty : Bool)
    (tokens : List Token) : Document :=
  let r : Rest := ⟨tokens, [], handles⟩
  let (root, rest) : Part Node :=
    match r.kind? with
    | some (.version ..) | some (.tagHandle ..) | some .documentStart | some .documentEnd
    | some .streamEnd =>
      if mayBeEmpty then omitted r.mark r
      else node (4 * tokens.length + 8) true false r
    | _ => node (4 * tokens.length + 8) true false r
  match rest with
  | .error f => ⟨root, some f, false⟩
  | .ok r =>
    match r.kind? with
    | none => ⟨root, some .malformed, false⟩
    | some .documentEnd => ⟨root, none, followsMore r.drop.tokens⟩
    | some _ => ⟨root, none, followsMore r.tokens⟩

/-- The first document of a list of tokens. -/
def Document.ofTokens (tokens : List Token) : Document :=
  match tokens.tail with
  | [] => .broken
  | t :: rest =>
    match t.kind with
    | .streamEnd => ⟨.void t.start, none, false⟩
    | .version .. | .tagHandle .. | .documentStart =>
      match directives? false [] (t :: rest) with
      | some (handles, t :: rest) =>
        if t.kind = .documentStart then
          ofContent (handles ++ defaultHandles) true rest
        else .broken
      | _ => .broken
    | _ => ofContent defaultHandles false (t :: rest)

/-- The first document of a text in UTF-8. A text with a character that is not allowed has none. -/
def Document.read (bytes : List UInt8) : Document :=
  match Text.Utf8.decodeChars? bytes with
  | some text =>
    if text.all isAllowed then ofTokens (Token.scan text) else .broken
  | none => .broken

mutual

/-- How many steps it takes to walk over a node, entering and leaving each collection, and whether
it does not break off. -/
def Node.walk : Node → Nat × Bool
  | .scalar .. | .reference _ | .void _ => (1, true)
  | .cut => (0, false)
  | .sequence _ _ _ items =>
    let (n, isWhole) := walkItems items
    (n + (if isWhole then 2 else 1), isWhole)
  | .mapping _ _ _ entries =>
    let (n, isWhole) := walkEntries entries
    (n + (if isWhole then 2 else 1), isWhole)

def walkItems : List Node → Nat × Bool
  | [] => (0, true)
  | n :: ns => (n.walk.1 + (walkItems ns).1, n.walk.2 && (walkItems ns).2)

def walkEntries : List (Node × Node) → Nat × Bool
  | [] => (0, true)
  | (k, v) :: rest =>
    (k.walk.1 + v.walk.1 + (walkEntries rest).1, k.walk.2 && v.walk.2 && (walkEntries rest).2)

end

mutual

/-- The node with an anchor number that comes last. -/
def Node.find? (anchor : Nat) : Node → Option Node
  | .scalar m a t s style => if a = some anchor then some (.scalar m a t s style) else none
  | .sequence m a t items =>
    (findInItems? anchor items).or (if a = some anchor then some (.sequence m a t items) else none)
  | .mapping m a t entries =>
    (findInEntries? anchor entries).or
      (if a = some anchor then some (.mapping m a t entries) else none)
  | _ => none

def findInItems? (anchor : Nat) : List Node → Option Node
  | [] => none
  | n :: ns => (findInItems? anchor ns).or (n.find? anchor)

def findInEntries? (anchor : Nat) : List (Node × Node) → Option Node
  | [] => none
  | (k, v) :: rest => (findInEntries? anchor rest).or ((v.find? anchor).or (k.find? anchor))

end

/-- The node that a reference stands for. -/
def Document.target? (d : Document) (anchor : Nat) : Option Node := d.root.find? anchor

end PlaneRestore.Yaml
