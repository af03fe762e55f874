import PlaneRestore.ImportError
import PlaneRestore.State.Path
import PlaneRestore.Table
/-!
The files and directories of an exported state.

* `ExportedState.addDirectory` and `addFile` add an entry, with the directories above it.
* `contentsOf`, `itemsOf` and `entryAt?` look at entries; `walk` visits all of them.
-/

namespace PlaneRestore

/-- A file or a directory, with its access mode. -/
inductive Entry where
  | directory (mode : Nat)
  | file (mode : Nat) (contents : List UInt8)
deriving DecidableEq, Repr, Inhabited

def Entry.isDirectory : Entry → Bool
  | directory _ => true
  | file .. => false

/-- An exported state: its entries by their paths. The root has no entry of its own. -/
structure ExportedState where
  entries : List (Path × Entry)
deriving DecidableEq, Repr, Inhabited

namespace ExportedState

def empty : ExportedState := ⟨[]⟩

def size (s : ExportedState) : Nat := s.entries.length

/-- The entry at a path, if it can be read and is not the root. -/
def entryAt? (s : ExportedState) (path : String) : Option Entry :=
  (Path.parse? path).bind fun p => Table.get? p s.entries

/-- Reads a path. -/
def parsePath (path : String) : Except ImportError Path :=
  match Path.parse? path with
  | some p => return p
  | none => throw (.invalidPath path)

def isDir (s : ExportedState) (path : String) : Bool :=
  match Path.parse? path with
  | none => false
  | some [] => true
  | some p => (Table.get? p s.entries).any Entry.isDirectory

/-- The mode of a directory that no one has asked for. -/
def implicitMode : Nat := 0o755

/-- Of the directories above an entry, the nearest first, those below the nearest one that exists.
A file among them is an error. -/
def missing (s : ExportedState) : List Path → Except ImportError (List Path)
  | [] => return []
  | d :: above =>
    match Table.get? d s.entries with
    | some (.directory _) => return []
    | some (.file ..) => throw (.pathConflict (Path.render d))
    | none => do return d :: (← s.missing above)

def put (s : ExportedState) (p : Path) (e : Entry) : ExportedState := ⟨Table.put p e s.entries⟩

/-- Adds an entry with the directories above it. -/
def add (s : ExportedState) (p : Path) (e : Entry) : Except ImportError ExportedState := do
  let dirs ← s.missing (Path.ancestors p)
  return (dirs.foldl (fun s d => s.put d (.directory implicitMode)) s).put p e

/-- Adds a directory, or changes the mode of one. -/
def addDirectory (s : ExportedState) (path : String) (mode : Nat) :
    Except ImportError ExportedState := do
  let p ← parsePath path
  if p.isEmpty then return s
  else
    match Table.get? p s.entries with
    | some (.file ..) => throw (.pathConflict (Path.render p))
    | _ => s.add p (.directory mode)

/-- Writes a file. -/
def addFile (s : ExportedState) (path : String) (contents : List UInt8) (mode : Nat) :
    Except ImportError ExportedState := do
  let p ← parsePath path
  if p.isEmpty then throw (.invalidPath "/")
  else
    match Table.get? p s.entries with
    | some (.directory _) => throw (.pathConflict (Path.render p))
    | _ => s.add p (.file mode contents)

def contentsOf (s : ExportedState) (path : String) : Except ImportError (List UInt8) := do
  let p ← parsePath path
  match Table.get? p s.entries with
  | some (.file _ contents) => return contents
  | some (.directory _) => throw (.notAFile (Path.render p))
  | none => throw (.notFound (Path.render p))

/-- The entries directly inside a directory, by name. -/
def children (s : ExportedState) (p : Path) : List (String × Entry) :=
  s.entries.filterMap fun (q, e) => (Path.childName? p q).map ((·, e))

/-- An item of a listing. -/
structure Item where
  name : String
  isDir : Bool
deriving DecidableEq, Repr, Inhabited

/-- Lists a directory. -/
def itemsOf (s : ExportedState) (path : String) : Except ImportError (List Item) := do
  let p ← parsePath path
  let items := (s.children p).map fun (name, e) => (⟨name, e.isDirectory⟩ : Item)
  if p.isEmpty then return items
  else
    match Table.get? p s.entries with
    | some (.directory _) => return items
    | some (.file ..) => throw (.notADirectory (Path.render p))
    | none => throw (.notFound (Path.render p))

/-- The entries below a directory, a directory before what it holds; `depth` bounds how deep. -/
def walk (s : ExportedState) : (depth : Nat) → Path → List (Path × Entry)
  | 0, _ => []
  | depth + 1, p =>
    (s.children p).flatMap fun (name, e) =>
      (p ++ [name], e) :: (if e.isDirectory then s.walk depth (p ++ [name]) else [])

/-- All entries, a directory before what it holds. -/
def listing (s : ExportedState) : List (Path × Entry) := s.walk (s.size + 1) []

end ExportedState

end PlaneRestore
