import PlaneRestore.Yaml.Reading
/-!
The shapes of values, and reading them from JSON and from YAML.

* A `Shape α` reads a value of type `α`, from JSON by `Shape.ofJson` and from a YAML node by
  `Shape.ofYaml`; `Shape.ofYamlText` reads a whole YAML text.
* `Shape.text`, `Shape.flag`, `Shape.count`, `Shape.optional`, `Shape.list`, `Shape.table` are the
  basic shapes.
* `Fields` are the named fields of a record, and `Fields.record` is its shape. A record is written
  as a mapping, or in JSON also as the array of its fields in order. Unknown fields are ignored.
-/

namespace PlaneRestore

open Yaml (Node Read Reading)

/-- How a value is read from JSON and from YAML. -/
structure Shape (α : Type) where
  ofJson : Json → Except Mismatch α
  ofYaml : Reading → Node → Read α

namespace Shape

/-- Reads a whole YAML text. -/
def ofYamlText (s : Shape α) (bytes : List UInt8) : Except Yaml.Error α :=
  Reading.run s.ofYaml bytes

/-- Converts what was read. -/
def map (f : α → β) (s : Shape α) : Shape β where
  ofJson v := f <$> s.ofJson v
  ofYaml r n := f <$> s.ofYaml r n

/-- Any JSON value. -/
def any : Shape Json where
  ofJson v := return v
  ofYaml r n := Reading.value r.depth r n

/-- A text with a meaning of its own. -/
def parsed (expected : String) (accept : String → Except Mismatch α) : Shape α where
  ofJson
    | .string s => accept s
    | v => throw (.wrongType (.ofJson v) expected)
  ofYaml := Reading.text expected accept

/-- A text. In YAML it may be written like any scalar. -/
def text : Shape String := parsed "a string" Except.ok

/-- A path of a file. -/
def path : Shape String := parsed "path string" Except.ok

/-- A truth value. -/
def flag : Shape Bool where
  ofJson
    | .bool b => return b
    | v => throw (.wrongType (.ofJson v) "a boolean")
  ofYaml := Reading.bare "a boolean" .flag Yaml.Scalar.flag?

/-- A natural number of at most 64 bits. -/
def count (expected : String) : Shape Nat where
  ofJson
    | .number (.whole n) =>
      if 0 ≤ n then return n.toNat else throw (.wrongValue (.whole n) expected)
    | v => throw (.wrongType (.ofJson v) expected)
  ofYaml := Reading.bare expected .whole fun s => Yaml.Scalar.unsigned? (Nat.pow 2 64 - 1) s.toList

/-- A value, or nothing. -/
def optional (s : Shape α) : Shape (Option α) where
  ofJson
    | .null => return none
    | v => some <$> s.ofJson v
  ofYaml r n := do
    match ← r.follow n with
    | .scalar m a tag t .plain =>
      match tag.bind Yaml.Scalar.BasicTag.ofTag? with
      | some .null =>
        if Yaml.Scalar.isNull t then return none
        else Reading.fail (.wrongValue (.text t) Yaml.Scalar.BasicTag.null.expected)
      | _ =>
        -- a tag of another kind makes even an empty text a value
        if tag.isNone && (t = "" || Yaml.Scalar.isNull t) then return none
        else some <$> s.ofYaml r (.scalar m a tag t .plain)
    | .void _ => return none
    | .cut => throw r.fault
    | n => some <$> s.ofYaml r n

/-- A list. -/
def list (s : Shape α) : Shape (List α) where
  ofJson
    | .array items => items.mapM s.ofJson
    | v => throw (.wrongType (.ofJson v) "a sequence")
  ofYaml := Reading.sequence "a sequence" s.ofYaml

/-- A table of values with texts as keys; of equal keys the last one counts. -/
def table (s : Shape α) : Shape (List (String × α)) where
  ofJson
    | .object ms => ms.mapM fun (k, v) => do return (k, ← s.ofJson v)
    | v => throw (.wrongType (.ofJson v) "a map")
  ofYaml r n := do
    let n ← r.follow n
    r.locate (Reading.markOf n) do
      match n with
      | .mapping m _ _ es =>
        let put (t : List (String × α)) (k : String) (v : Reading × Node) : Read _ := do
          return Table.put k (← s.ofYaml v.1 v.2) t
        r.enter m fun r => Reading.entries r "a string" put [] es
      | n => if Reading.isVacant n then return [] else r.unexpected n "a map"

end Shape

/-- What becomes of a field that is left out. -/
inductive Absent (α : Type) where
  | isError
  | gives (default : α)
  /-- As `gives`, but an array has to have the field. -/
  | givesByName (default : α)

/-- The fields of a record: what is read of them so far is a `σ`, and all of them are a `β`. -/
structure Fields (σ β : Type) where
  names : List String
  /-- No field is read yet. -/
  blank : σ
  holds : String → σ → Bool
  putJson : String → Json → σ → Except Mismatch σ
  putYaml : String → Reading → Node → σ → Read σ
  /-- All fields, or the first that is missing. -/
  complete : σ → Except Mismatch β
  /-- The fields as the items of an array, from the given number on, and the items left over. -/
  ofItems : (size : Nat) → (name : String) → Nat → List Json → Except Mismatch (β × List Json)

namespace Fields

/-- No fields. -/
def done : Fields Unit Unit where
  names := []
  blank := ()
  holds _ _ := false
  putJson _ _ _ := return ()
  putYaml _ r n _ := do r.pass n
  complete _ := return ()
  ofItems _ _ _ items := return ((), items)

/-- What an array with too few items was expected to be. -/
def arrayExpected (name : String) (size : Nat) : String :=
  "struct " ++ name ++ " with " ++ toString size ++ (if size = 1 then " element" else " elements")

/-- One more field, in front of the others. -/
def field (name : String) (s : Shape α) (absent : Absent α) (rest : Fields σ β) :
    Fields (Option α × σ) (α × β) where
  names := name :: rest.names
  blank := (none, rest.blank)
  holds k st := if k = name then st.1.isSome else rest.holds k st.2
  putJson k v st :=
    if k = name then do return (some (← s.ofJson v), st.2)
    else do return (st.1, ← rest.putJson k v st.2)
  putYaml k r n st :=
    if k = name then do return (some (← s.ofYaml r n), st.2)
    else do return (st.1, ← rest.putYaml k r n st.2)
  complete st := do
    let v ← match st.1, absent with
      | some v, _ => pure v
      | none, .isError => throw (.missingField name)
      | none, .gives v => pure v
      | none, .givesByName v => pure v
    return (v, ← rest.complete st.2)
  ofItems size record i items := do
    let (v, items) ← match items, absent with
      | item :: items, _ => do pure (← s.ofJson item, items)
      | [], .gives v => pure (v, [])
      | [], _ => throw (.wrongLength i (arrayExpected record size))
    let (vs, items) ← rest.ofItems size record (i + 1) items
    return ((v, vs), items)

/-- A record. -/
def record (name : String) (f : Fields σ β) (build : β → α) : Shape α where
  ofJson
    | .object ms => do
      let put (st : σ) (k : String) (v : Json) : Except Mismatch σ :=
        if f.holds k st then throw (.duplicateField k) else f.putJson k v st
      let st ← ms.foldlM (fun st (k, v) => put st k v) f.blank
      return build (← f.complete st)
    -- an array gives the fields in their order
    | .array items => do
      let (v, more) ← f.ofItems f.names.length name 0 items
      if more.isEmpty then return build v
      else throw (.wrongLength items.length "fewer elements in array")
    | v => throw (.wrongType (.ofJson v) ("struct " ++ name))
  ofYaml r n := do
    let n ← r.follow n
    let finish (st : σ) : Read α :=
      match f.complete st with
      | .ok v => return build v
      | .error m => Reading.fail m
    let put (st : σ) (k : String) (v : Reading × Node) : Read σ :=
      if f.holds k st then Reading.fail (.duplicateField k) else f.putYaml k v.1 v.2 st
    r.locate (Reading.markOf n) do
      match n with
      | .mapping m _ _ es =>
        r.enter m fun r => do finish (← Reading.entries r "field identifier" put f.blank es)
      | n =>
        if Reading.isVacant n then finish f.blank else r.unexpected n ("struct " ++ name)

end Fields

end PlaneRestore
