import PlaneRestore.Import.Apply
import PlaneRestore.State.Group
/-!
Importing one group of manifests.

* `Work.pausableKinds` finds out which kinds are created paused. What it finds is remembered; a
  failure is not.
* `Work.importGroup` reads all manifests of a group before it applies the first.
-/

namespace PlaneRestore.Work

/-- The kinds of a category. -/
def kindsOf (c : Category) : Work (List GroupKind) :=
  inCategory c do
    return (← orClient (← call (.resolve c))).map KindMapping.groupKind

/-- The kinds whose objects are created paused: those of claims, composite resources and managed
resources. -/
def pausableKinds : Work (List GroupKind) := do
  match (← get).pausable with
  | some kinds => return kinds
  | none =>
    let kinds := (← Category.pausable.mapM kindsOf).flatten
    modify fun m => { m with pausable := some kinds }
    return kinds

/-- The manifest, paused if it has to be. -/
def paused (pause : Bool) (r : Resource) : Work Resource := do
  if pause then
    return if (← pausableKinds).contains r.groupKind then r.pause else r
  else return r

def importManifest (pause : Bool) (m : Manifest) : Work Applied := do
  let r ← paused pause m.resource
  inFile m.file (apply r)

/-- Imports the manifests of a group, and answers how many there are. -/
def importGroup (s : ExportedState) (group : String) (pause : Bool) : Work Nat :=
  inGroup group do
    let manifests ← orThrow (s.readGroup group)
    manifests.forM fun m => discard (importManifest pause m)
    return manifests.length

end PlaneRestore.Work
