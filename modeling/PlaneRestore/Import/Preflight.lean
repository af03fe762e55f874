import PlaneRestore.Export
import PlaneRestore.ImportError
/-!
What may keep a control plane from accepting an exported state.

`compatibilityIssues` compares the record about the export with what the engine reports.
-/

namespace PlaneRestore

/-- Something that may keep a control plane from accepting an exported state. -/
inductive PreflightIssue where
  | engineInfo (cause : ClientError)
  | unarchive (cause : ImportError)
  | metadata (cause : ImportError)
  | versionMismatch (observed exported : String)
  | cancelled
  | missingFeatureFlag (flag : String)
deriving DecidableEq, Repr

/-- The issue in words. -/
def PreflightIssue.message (w : Wording) : PreflightIssue → String
  | engineInfo cause => "Failed to get control plane information: " ++ cause.message w
  | unarchive cause => "Failed to unarchive exported state: " ++ cause.message w
  | metadata cause => "Failed to read export metadata: " ++ cause.message w
  | versionMismatch observed exported =>
    "Engine version " ++ Text.quote observed ++ " does not match exported version "
      ++ Text.quote exported
  | cancelled => "Preflight checks cancelled"
  | missingFeatureFlag flag =>
    "Feature flag " ++ Text.quote flag
      ++ " was set in the exported control plane but is not set "
      ++ "in the target control plane for import."

/-- The versions have to be equal, and every exported flag has to be set. -/
def compatibilityIssues (exported : ExportMeta) (observed : EngineInfo) : List PreflightIssue :=
  (if observed.version = exported.engineVersion then []
    else [.versionMismatch observed.version exported.engineVersion])
  ++ (exported.featureFlags.filter fun f => !observed.hasFeatureFlag f).map .missingFeatureFlag

end PlaneRestore
