import PlaneRestore.Shape
/-!
Settings of an import.
-/

namespace PlaneRestore

/-- How often readiness is asked for, and for how long, in seconds. -/
structure WaitSettings where
  pollInterval : Nat
  timeout : Nat
deriving DecidableEq, Repr, Inhabited

namespace WaitSettings

def default : WaitSettings := ⟨5, 600⟩

/-- The interval between polls is at least a second. -/
def effectivePollInterval (s : WaitSettings) : Nat := max s.pollInterval 1

def shape : Shape WaitSettings :=
  Fields.record "WaitSettings"
    (.field "pollIntervalSecs" (.count "u64") (.gives default.pollInterval) <|
      .field "timeoutSecs" (.count "u64") (.gives default.timeout) .done)
    fun (interval, timeout, _) => ⟨interval, timeout⟩

def toJson (s : WaitSettings) : Json :=
  .ofEntries [("pollIntervalSecs", .ofNat s.pollInterval), ("timeoutSecs", .ofNat s.timeout)]

end WaitSettings

/-- Settings of an import. -/
structure ImportOptions where
  /-- The path of the archive. -/
  inputArchive : String
  /-- Whether managed resources are unpaused in the end. -/
  unpauseAfterImport : Bool
  /-- Whether revisions of packages are waited for, too. -/
  legacyRevisionWait : Bool
  wait : WaitSettings
deriving DecidableEq, Repr, Inhabited

namespace ImportOptions

def default : ImportOptions := ⟨"xp-state.tar.gz", false, true, .default⟩

def shape : Shape ImportOptions :=
  Fields.record "ImportOptions"
    (.field "inputArchive" .path (.gives default.inputArchive) <|
      .field "unpauseAfterImport" .flag (.gives default.unpauseAfterImport) <|
      .field "legacyRevisionWait" .flag (.gives default.legacyRevisionWait) <|
      .field "wait" WaitSettings.shape (.gives default.wait) .done)
    fun (archive, unpause, legacy, wait, _) => ⟨archive, unpause, legacy, wait⟩

def toJson (o : ImportOptions) : Json :=
  .ofEntries [("inputArchive", .string o.inputArchive),
    ("unpauseAfterImport", .bool o.unpauseAfterImport),
    ("legacyRevisionWait", .bool o.legacyRevisionWait), ("wait", o.wait.toJson)]

end ImportOptions

end PlaneRestore
