import PlaneRestore.Text.Split
/-!
Paths of an exported state.

* `Path.parse?` reads a path: empty segments and single points are dropped, and a path that leads
  upwards is refused.
* `Path.render` joins the segments with slashes.
-/

namespace PlaneRestore

/-- The names from the root to an entry; the root itself has none. -/
abbrev Path := List String

namespace Path

/-- The parts of a text between slashes. -/
def segments (text : String) : List String :=
  (Text.splitAll '/' text.toList).map String.ofList

/-- Whether a segment names something. -/
def isName (s : String) : Bool := s ≠ "" && s ≠ "."

/-- The path that a text denotes; `none` if one of its segments leads upwards. -/
def parse? (text : String) : Option Path :=
  let names := (segments text).filter isName
  if names.contains ".." then none else some names

/-- The text of a path: its names, with slashes between them. -/
def render (p : Path) : String := "/".intercalate p

/-- The directories above an entry, the nearest first, without the root. -/
def ancestors (p : Path) : List Path :=
  ((List.range' 1 (p.length - 1)).map fun n => p.take n).reverse

/-- The name of an entry directly inside a directory. -/
def childName? (directory p : Path) : Option String :=
  match directory, p with
  | [], [name] => some name
  | d :: ds, x :: xs => if d = x then childName? ds xs else none
  | _, _ => none

end Path

end PlaneRestore
