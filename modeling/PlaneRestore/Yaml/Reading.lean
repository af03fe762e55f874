import PlaneRestore.Yaml.Error
import PlaneRestore.Yaml.Scalar
/-!
Reading values from a document.

* `Read` is the type of a reading: it counts how often a reference was followed, and may fail.
* `Reading.value` reads any node as JSON; `Reading.text` reads a scalar as its text.
* `Reading.run` reads the whole of a text that has to hold one document.
-/

namespace PlaneRestore.Yaml

/-- A reading, which counts the references that it follows. -/
abbrev Read := StateT Nat (Except Error)

/-- Where a reading stands. -/
structure Reading where
  document : Document
  /-- How often references may be followed. -/
  limit : Nat
  path : Path
  /-- How deep collections may still be nested. -/
  depth : Nat

namespace Reading

/-- The start of a document: collections are nested 128 deep at most, and there are at most a
hundred times as many references to follow as there are steps in the document. -/
def start (d : Document) : Reading := ⟨d, 100 * d.root.walk.1, [], 128⟩

def item (r : Reading) (i : Nat) : Reading := { r with path := .item i :: r.path }

/-- The value of a key. -/
def valueOf (r : Reading) : Node → Reading
  | .scalar _ _ _ name _ => { r with path := .key name :: r.path }
  | _ => { r with path := .unnamed :: r.path }

/-- The error at the place where the document breaks off. -/
def fault (r : Reading) : Error :=
  match r.document.fault with
  | some f => .ofFault f
  | none => .malformed

def fail (m : Mismatch) : Read α := throw (.mismatch m none)

/-- Adds the place to a mismatch that has none yet. -/
def locate (r : Reading) (mark : Mark) (act : Read α) : Read α := fun s =>
  match act s with
  | .error (.mismatch m none) => .error (.mismatch m (some (r.path, mark)))
  | result => result

/-- The node that a reference stands for; any other node itself. -/
def follow (r : Reading) : Node → Read Node
  | .reference anchor => do
    modify (· + 1)
    if r.limit < (← get) then throw .tooRepetitive
    else
      match r.document.target? anchor with
      | some n => return n
      | none => throw .malformed
  | n => return n

/-- Goes into a collection. -/
def enter (r : Reading) (mark : Mark) (act : Reading → Read α) : Read α :=
  match r.depth with
  | 0 => throw (.tooDeep mark)
  | depth + 1 => act { r with depth := depth }

/-- Passes over a node. -/
def pass (r : Reading) (n : Node) : Read Unit :=
  if n.walk.2 then return else throw r.fault

/-- Whether a tag is one of the document's own. -/
def isOwn (tag : Option String) : Bool := tag.any (·.startsWith "!")

/-- The value of a scalar by its tag and style. -/
def scalarValue (tag : Option String) (text : String) (style : Style) : Except Mismatch Scalar :=
  match tag with
  | none => return if style = .plain then Scalar.ofPlain text else .text text
  | some t =>
    match Scalar.BasicTag.ofTag? t with
    | some basic =>
      match Scalar.ofTagged basic text with
      | some v => return v
      | none => throw (.wrongValue (.text text) basic.expected)
    | none =>
      return if t.startsWith "!" && style = .plain then Scalar.ofPlain text else .text text

/-- What a scalar counts as where another kind of value is expected. -/
def found : Scalar → Found
  | .null => .nothing
  | .flag b => .flag b
  | .whole n => .whole n
  | .wide n => .wide n
  | .float x => .float x.positional
  | .text s => .text s

/-- Reports that a node is not what was expected. -/
def unexpected (r : Reading) (n : Node) (expected : String) : Read α :=
  match n with
  | .scalar _ _ tag text style =>
    match scalarValue tag text style with
    | .ok v => fail (.wrongType (found v) expected)
    | .error m => fail m
  | .sequence .. => fail (.wrongType .sequence expected)
  | .mapping .. => fail (.wrongType .mapping expected)
  | .void _ => throw .noValue
  | .reference _ | .cut => throw r.fault

/-- The place of a node. -/
def markOf : Node → Mark
  | .scalar m .. | .sequence m .. | .mapping m .. | .void m => m
  | .reference _ | .cut => ⟨0, 0⟩

/-- Reads the text of a scalar. -/
def text (expected : String) (accept : String → Except Mismatch α) (r : Reading) (n : Node) :
    Read α := do
  let n ← r.follow n
  r.locate (markOf n) do
    match n with
    | .scalar _ _ _ s _ =>
      match accept s with
      | .ok v => return v
      | .error m => fail m
    | _ => r.unexpected n expected

/-- Reads a scalar that is not quoted, or that is literal and has the basic tag of its kind. -/
def bare (expected : String) (basic : Scalar.BasicTag) (accept : String → Option α) (r : Reading)
    (n : Node) : Read α := do
  let n ← r.follow n
  r.locate (markOf n) do
    match n with
    | .scalar _ _ tag s style =>
      let isBare := style = .plain
        || (style = .literal && tag.any fun t => Scalar.BasicTag.ofTag? t = some basic)
      match if isBare then accept s else none with
      | some v => return v
      | none => r.unexpected n expected
    | _ => r.unexpected n expected

/-- Whether a node stands for an empty collection: a plain scalar without text, or no node. -/
def isVacant : Node → Bool
  | .scalar _ _ _ s style => s = "" && style = .plain
  | .void _ => true
  | _ => false

/-- Reads the items of a sequence one after another. -/
def items (r : Reading) (read : Reading → Node → Read α) : Nat → List Node → Read (List α)
  | _, [] => return []
  | i, n :: ns => do
    let v ← read (r.item i) n
    let vs ← items r read (i + 1) ns
    return v :: vs

/-- Reads a sequence. -/
def sequence (expected : String) (read : Reading → Node → Read α) (r : Reading) (n : Node) :
    Read (List α) := do
  let n ← r.follow n
  r.locate (markOf n) do
    match n with
    | .sequence m _ _ ns => r.enter m fun r => items r read 0 ns
    | n => if isVacant n then return [] else r.unexpected n expected

/-- Reads the entries of a mapping in turn. A key is expected to be a string. -/
def entries (r : Reading) (expected : String) (next : α → String → (Reading × Node) → Read α) :
    α → List (Node × Node) → Read α
  | acc, [] => return acc
  | acc, (k, v) :: rest => do
    if let .cut := k then throw r.fault
    let name ← text expected Except.ok r k
    let acc ← next acc name (r.valueOf k, v)
    entries r expected next acc rest

/-- A float that is no number, or is infinite, has no JSON form. -/
def jsonOf : Scalar → Except Mismatch Json
  | .null => return .null
  | .flag b => return .bool b
  | .whole n => return .number (.whole n)
  | .wide _ => throw .outOfRange
  | .float x => return if x.isFinite then .number (.float x) else .null
  | .text s => return .string s

/-- What is expected where any value may stand. -/
def anyValue : String := "any valid JSON value"

/-- Reads a node as JSON. A tag of the document's own has no JSON form. -/
def value : Nat → Reading → Node → Read Json
  | depth, r, n => do
    let n ← r.follow n
    r.locate (markOf n) do
      match n with
      | .scalar _ _ tag s style =>
        if isOwn tag then fail (.wrongType .tagged anyValue)
        else
          match scalarValue tag s style >>= jsonOf with
          | .ok v => return v
          | .error m => fail m
      | .sequence mark _ tag ns =>
        if isOwn tag then fail (.wrongType .tagged anyValue)
        else
          match depth with
          | 0 => throw (.tooDeep mark)
          | depth + 1 => return .array (← items r (value depth) 0 ns)
      | .mapping mark _ tag es =>
        if isOwn tag then fail (.wrongType .tagged anyValue)
        else
          match depth with
          | 0 => throw (.tooDeep mark)
          | depth + 1 =>
            let put (ms : List (String × Json)) (name : String) (v : Reading × Node) := do
              let v ← value depth v.1 v.2
              return Table.put name v ms
            -- the first key is expected in other words than the ones after it
            match es with
            | [] => return .object []
            | first :: rest =>
              let ms ← entries r "a string key" put [] [first]
              return .object (← entries r "a string" put ms rest)
      | .void _ => return .null
      | .reference _ | .cut => throw r.fault

/-- Reads a whole text: its first document, which has to be whole and the only one. -/
def run (read : Reading → Node → Read α) (bytes : List UInt8) : Except Error α := do
  let d := Document.read bytes
  let v ← (read (start d) d.root).run' 0
  match d.fault with
  | some f => throw (.ofFault f)
  | none => if d.hasMore then throw .severalDocuments else return v

end Reading

end PlaneRestore.Yaml
