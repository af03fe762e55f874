import PlaneRestore.Export
import PlaneRestore.Resource
import PlaneRestore.State.Tree
/-!
What an exported state holds: the record about the export, and groups of manifests.

* `readGroup` reads the manifests of a group, one of each file of its directory.
* `summary` counts the files of every group.
-/

namespace PlaneRestore

/-- A manifest, and the file that holds it. -/
structure Manifest where
  file : String
  resource : Resource
deriving Repr, Inhabited

/-- What an exported state holds, in numbers. -/
structure StateSummary where
  record : ExportMeta
  /-- How many manifests each group has. -/
  groups : List (String × Nat)
deriving Repr, Inhabited

/-- The sum of counts. -/
def totalOf (counts : List (String × Nat)) : Nat := counts.foldl (fun n c => n + c.2) 0

def StateSummary.total (s : StateSummary) : Nat := totalOf s.groups

namespace ExportedState

/-- The record about the export. -/
def exportMeta (s : ExportedState) : Except ImportError ExportMeta := do
  match ExportMeta.shape.ofYamlText (← s.contentsOf exportMetaFile) with
  | .ok m => return m
  | .error e => throw (.metadata e)

/-- Reads one file of a group. -/
def readManifest (s : ExportedState) (group : String) (item : Item) :
    Except ImportError Manifest := do
  let file := group ++ "/" ++ item.name
  if item.isDir then throw (.notAFile file)
  else
    match Resource.ofYaml (← s.contentsOf file) with
    | .ok r => return ⟨file, r⟩
    | .error e => throw (.manifest file (.invalidResource e))

/-- The manifests of a group in the order of their files. A group that is not there has none. -/
def readGroup (s : ExportedState) (group : String) : Except ImportError (List Manifest) := do
  if (s.entryAt? group).isNone then return []
  else (← s.itemsOf group).mapM (s.readManifest group)

/-- The record about the export, and how many files each group has. -/
def summary (s : ExportedState) : Except ImportError StateSummary := do
  let record ← s.exportMeta
  let groups := (← s.itemsOf "/").filter (·.isDir)
  let counts ← groups.mapM fun g => do
    let items ← s.itemsOf g.name
    return (g.name, (items.filter fun i => !i.isDir).length)
  return ⟨record, Table.ofList counts⟩

end ExportedState

end PlaneRestore
