import PlaneRestore.Cli.Command
import PlaneRestore.Cluster.Web
import PlaneRestore.Import.Run
/-!
Running the commands of the program.

* `InspectCommand.run` and `ImportCommand.run` run a command; an `Outcome` is what it writes and
  the code that it ends with.
* `runWords` runs a whole command line.
-/

namespace PlaneRestore

/-- What a run writes, and the code that it ends with. -/
structure Outcome where
  code : Nat
  output : List String
  errors : List String
deriving DecidableEq, Repr, Inhabited

namespace Outcome

def success (output : List String) : Outcome := ⟨0, output, []⟩

/-- A run that has failed, with what it wrote before, and the cause of the error if it has one that
is told apart. -/
def failure (before : List String) (message : String) (cause : Option String) : Outcome :=
  ⟨1, [], before ++ ["Error: " ++ message]
    ++ (cause.map fun c => ["", "Caused by:", "    " ++ c]).getD []⟩

end Outcome

/-- The text of an error that was met on the command line. -/
def ImportError.plainMessage (e : ImportError) : String := e.message .plain

/-- A name, filled up to a column, and a count. -/
def countLine (name : String) (count : Nat) : String :=
  "  " ++ name ++ String.ofList (List.replicate (60 - name.length) ' ') ++ " " ++ toString count

/-! ### Inspect -/

namespace InspectCommand

def summaryJson (s : StateSummary) : Json :=
  .ofEntries [("meta", s.record.toJson), ("groups", .ofCounts s.groups), ("total", .ofNat s.total)]

def summaryLines (s : StateSummary) : List String :=
  let flags := s.record.featureFlags
  ["Exported control plane state", "  Engine version: " ++ s.record.engineVersion]
    ++ (s.record.exportedAt.map fun t => "  Exported at:    " ++ t.renderWithOffset).toList
    ++ (s.record.space.map ("  Namespace:      " ++ ·)).toList
    ++ ["  Feature flags:  " ++ (if flags.isEmpty then "none" else Text.joinWith ", " flags), "",
      "Resources (" ++ toString s.total ++ " total)"]
    ++ s.groups.map fun (g, n) => countLine g n

/-- The cause of an error that is told apart from it. -/
def cause? : ImportError → Option String
  | .metadata e => some (e.message .plain)
  | _ => none

/-- Sums the exported state in an archive up. -/
def run (c : InspectCommand) (source : SourceFile) : Outcome :=
  match ExportedState.extract c.input source false with
  | .error e =>
    .failure [] ("Failed to read " ++ Text.quote c.input ++ ": " ++ e.plainMessage) none
  | .ok s =>
    match s.summary with
    | .error e => .failure [] e.plainMessage (cause? e)
    | .ok s => .success (if c.isJson then [(summaryJson s).renderLines] else summaryLines s)

end InspectCommand

/-! ### Import -/

namespace ImportCommand

def reportLines (r : ImportReport) (unpaused : Bool) : List String :=
  ["", "Successfully imported control plane state! (" ++ toString r.total ++ " resources)", ""]
    ++ ((r.base ++ r.remaining).filter (0 < ·.2)).map (fun (g, n) => countLine g n)
    ++ if unpaused then []
      else
        ["", "Managed resources are still paused. Re-run with --unpause-after-import or "
          ++ "remove the pause annotation to activate the control plane."]

def issueLines (issues : List PreflightIssue) : List String :=
  "Preflight checks failed:" :: issues.map (fun i => "  - " ++ i.message .plain)
    ++ ["Use --skip-preflight-checks to import anyway."]

/-- Imports the state unless the preflight checks find something. -/
def work (c : ImportCommand) : Work (Except (List PreflightIssue) ImportReport) := do
  let issues ← if c.skipPreflight then pure [] else Work.preflight c.options
  if issues.isEmpty then return .ok (← Work.importState c.options) else return .error issues

/-- What is written when the work is done. -/
def outcome (c : ImportCommand) :
    Except ImportError (Except (List PreflightIssue) ImportReport) → Outcome
  | .ok (.ok r) =>
    .success
      (if c.isJson then [r.toJson.renderLines] else reportLines r c.options.unpauseAfterImport)
  | .ok (.error issues) =>
    .failure (issueLines issues) (toString issues.length ++ " preflight check(s) failed") none
  | .error e => .failure [] ("Import failed: " ++ e.plainMessage) none

/-- Restores an exported state in a cluster. -/
def run (c : ImportCommand) : Web Outcome := do
  let certificate ←
    match c.config.certificateAuthority with
    | some path => Web.ask (.open path)
    | none => pure SourceFile.absent
  match Cluster.ofConfig (fun _ => certificate) c.config with
  | .error e =>
    return .failure [] ("Failed to create control plane client: " ++ e.message .plain) none
  | .ok cluster =>
    return c.outcome (← cluster.lead (c.work.run.run .empty)).1

end ImportCommand

/-! ### Command lines -/

def aboutLine : String := "Command line entrypoint for importing exported control plane state"

def versionLine : String := "cpstate-cli 0.1.0"

/-- What is written instead of a run. -/
def Stop.outcome : Stop → Outcome
  | usage e => ⟨2, [], ["error: " ++ e.message]⟩
  | nothing => ⟨2, [], [aboutLine]⟩
  | help => .success [aboutLine]
  | version => .success [versionLine]

/-- Runs a command line. -/
def runWords (environment : String → Option String) (words : List String) : Web Outcome := do
  match Command.ofWords environment words with
  | .error s => return s.outcome
  | .ok (.inspect c) => return c.run (← Web.ask (.open c.input))
  | .ok (.importState c) => c.run

end PlaneRestore
