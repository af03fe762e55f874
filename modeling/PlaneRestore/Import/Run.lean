import PlaneRestore.Import.Group
import PlaneRestore.Import.Modify
import PlaneRestore.Import.Preflight
import PlaneRestore.Import.Report
import PlaneRestore.Import.Wait
/-!
Imports and preflight checks as a whole.

* `Work.heldState` reads the archive unless it has been read already.
* `Work.preflight` compares the exported state with the control plane.
* `Work.importState` restores the exported state: base groups, then the wait for definitions and
  packages, then the other groups with what reconciles external systems paused, and in the end the
  pause is lifted.
-/

namespace PlaneRestore

namespace Work

/-- The exported state; the archive is read if that was not done yet. -/
def heldState (archive : String) : Work ExportedState := do
  match (← get).state with
  | some s => return s
  | none =>
    let s ← orThrow (← ask (.extract archive))
    modify fun m => { m with state := some s }
    return s

/-! ### Preflight -/

/-- What an error of reading the archive means for a preflight. -/
def unarchiveIssue : ImportError → PreflightIssue
  | .cancelled => .cancelled
  | e => .unarchive e

/-- What keeps the control plane from accepting the exported state. -/
def preflight (o : ImportOptions) : Work (List PreflightIssue) := do
  match ← ask (.guarded .observe none) with
  | .answered (.ok observed) =>
    match ← tryCatch (Except.ok <$> heldState o.inputArchive) fun e => return Except.error e with
    | .ok s =>
      match s.exportMeta with
      | .ok exported => return compatibilityIssues exported observed
      | .error e => return [.metadata e]
    | .error e => return [unarchiveIssue e]
  | .answered (.error e) => return [.engineInfo e]
  | _ => return [.cancelled]

/-! ### The phases of an import -/

/-- Imports groups one after another, and says after each how far it is. -/
def importGroups (s : ExportedState) (groups : List String) (pause : Bool) :
    Work (List (String × Nat)) :=
  (groups.zipIdx 1).mapM fun (group, i) => do
    let count ← importGroup s group pause
    report (.update ("(" ++ toString i ++ " / " ++ toString groups.length ++ ") Importing "
      ++ group ++ "..."))
    return (group, count)

def importedText (counts : List (String × Nat)) : String :=
  toString (totalOf counts) ++ " resources imported!"

def readState (o : ImportOptions) : Work ExportedState :=
  step "Reading state from the archive... " "" (fun _ => "Done!") <|
    inPhase "cannot unarchive export archive" (heldState o.inputArchive)

def importBase (s : ExportedState) : Work (List (String × Nat)) :=
  step "Importing base resources... " ("0 / " ++ toString baseGroups.length) importedText <|
    inPhase "cannot import base resources" (importGroups s baseGroups false)

/-- Waits for one kind; the kind is named if that fails. -/
def waitForHealthy (o : ImportOptions) (group kind shown : String) (conditions : List String) :
    Work Unit :=
  inPhase ("there are unhealthy " ++ shown ++ "s") (waitFor o.wait ⟨group, kind⟩ conditions)

def waitForDefinitions (o : ImportOptions) : Work Unit :=
  step "Waiting for XRDs... " "" (fun _ => "Established!") <|
    waitForHealthy o "apiextensions.example.io" "CompositeResourceDefinition"
      "CompositeResourceDefinition" [established]

/-- Waits for one kind of packages or their revisions. -/
def waitForPackageKind (o : ImportOptions) (conditions : List String) (kind : String) :
    Work Unit :=
  waitForHealthy o "pkg.example.io" kind (Text.quote kind) conditions

def packageKinds : List String := ["Provider", "Function", "Configuration"]

def revisionKinds : List String := packageKinds.map (· ++ "Revision")

def waitForPackages (o : ImportOptions) : Work Unit :=
  step "Waiting for Packages... " "" (fun _ => "Installed and Healthy!") do
    packageKinds.forM (waitForPackageKind o [installed, healthy])
    if o.legacyRevisionWait then
      revisionKinds.forM (waitForPackageKind o [healthy])

/-- The groups that are imported last: all directories of the root but the base groups. Nothing
else may be in the root than those and the record about the export. -/
def remainingGroups (items : List ExportedState.Item) : Except ImportError (List String) := do
  let items := items.filter (·.name ≠ exportMetaFile)
  match items.find? (!·.isDir) with
  | some item => throw (.unexpectedRootFile item.name)
  | none => return (items.map (·.name)).filter (!isBaseGroup ·)

def importRemaining (s : ExportedState) : Work (List (String × Nat)) :=
  step "Importing remaining resources... " "" importedText do
    let items ← inPhase "cannot list group resources" (orThrow (s.itemsOf "/"))
    inPhase "cannot import remaining resources" do
      importGroups s (← orThrow (remainingGroups items)) true

/-- Lifts the pause of all objects of a category. -/
def unpauseAll (c : Category) (shown : String) : Work (String × Nat) := do
  let count ← inPhase ("cannot unpause " ++ shown) (modifyAll c Resource.unpause)
  return (c.name, count)

def unpauseComposites : Work (List (String × Nat)) :=
  step "Finalizing import... " "" (fun _ => "Done!") do
    return [← unpauseAll .composite "composites", ← unpauseAll .claim "claims"]

def unpauseManaged (o : ImportOptions) : Work (List (String × Nat)) := do
  if o.unpauseAfterImport then
    step "Unpausing managed resources ... " "" (fun _ => "Done!") do
      return [← unpauseAll .managed "managed resources"]
  else return []

/-- Restores the exported state in the archive. Between the waits and the remaining groups the
control plane forgets how kinds are served: what was installed has brought new kinds. -/
def importState (o : ImportOptions) : Work ImportReport := do
  let s ← readState o
  -- the kinds may have changed since the last import of the same state
  modify fun m => { m with pausable := none }
  let base ← importBase s
  waitForDefinitions o
  waitForPackages o
  ask (.call .reset)
  let remaining ← importRemaining s
  let unpaused := (← unpauseComposites) ++ (← unpauseManaged o)
  return ⟨Table.ofList base, Table.ofList remaining, Table.ofList unpaused⟩

end Work

end PlaneRestore
