import PlaneRestore.Cli.Argument
import PlaneRestore.Cluster.Config
import PlaneRestore.Import.Options
/-!
The commands of the program.

`Command.ofWords` reads a command from the words of a command line and from the environment.
-/

namespace PlaneRestore

/-- Restores an exported state. -/
structure ImportCommand where
  options : ImportOptions
  /-- Whether the state is imported even if the control plane does not fit. -/
  skipPreflight : Bool
  /-- Whether the report is written as JSON. -/
  isJson : Bool
  config : ClusterConfig
deriving DecidableEq, Repr, Inhabited

/-- Sums an exported state up. -/
structure InspectCommand where
  input : String
  /-- Whether the summary is written as JSON. -/
  isJson : Bool
deriving DecidableEq, Repr, Inhabited

/-- A command of the program. -/
inductive Command where
  | importState (command : ImportCommand)
  | inspect (command : InspectCommand)
deriving DecidableEq, Repr, Inhabited

namespace Command

/-! ### Grammars -/

/-- The arguments that all commands share. -/
def sharedArguments : List Argument :=
  [⟨"log-level", none, .text, some "CPSTATE_LOG_LEVEL"⟩,
    ⟨"log-format", none, .text, some "CPSTATE_LOG_FORMAT"⟩]

def inputArgument : Argument := ⟨"input", some 'i', .path, some "CPSTATE_INPUT"⟩

def jsonArgument : Argument := ⟨"json", none, .flag, none⟩

def importArguments : List Argument :=
  [inputArgument,
    ⟨"unpause-after-import", none, .flag, some "CPSTATE_UNPAUSE_AFTER_IMPORT"⟩,
    ⟨"skip-preflight-checks", none, .flag, some "CPSTATE_SKIP_PREFLIGHT_CHECKS"⟩,
    ⟨"poll-interval", none, .count, some "CPSTATE_POLL_INTERVAL"⟩,
    ⟨"wait-timeout", none, .count, some "CPSTATE_WAIT_TIMEOUT"⟩,
    ⟨"no-legacy-revision-wait", none, .flag, some "CPSTATE_NO_LEGACY_REVISION_WAIT"⟩,
    jsonArgument,
    ⟨"server", none, .text, some "CPSTATE_SERVER"⟩,
    ⟨"token", none, .text, some "CPSTATE_TOKEN"⟩,
    ⟨"certificate-authority", none, .path, some "CPSTATE_CERTIFICATE_AUTHORITY"⟩,
    ⟨"insecure-skip-tls-verify", none, .flag, some "CPSTATE_INSECURE_SKIP_TLS_VERIFY"⟩,
    ⟨"engine-namespace", none, .text, some "CPSTATE_ENGINE_NAMESPACE"⟩,
    ⟨"engine-deployment", none, .text, some "CPSTATE_ENGINE_DEPLOYMENT"⟩]

def inspectArguments : List Argument := [inputArgument, jsonArgument]

def programGrammar : Grammar := ⟨sharedArguments, ["import", "inspect", "help"], true⟩

/-- The variables of the environment in which a value is looked for. -/
def variableNames : List String := (sharedArguments ++ importArguments).filterMap (·.fallback)

/-- The grammar of a subcommand. -/
def grammar (arguments : List Argument) : Grammar := ⟨arguments ++ sharedArguments, [], false⟩

/-! ### Reading -/

/-- Reads the words after the name of a subcommand. -/
def readWords (environment : String → Option String) (arguments : List Argument)
    (words : List String) : Except Stop Given := do
  let g := grammar arguments
  let (r, _) ← g.read .start words
  let r ← r.settle
  (r.given.addVariables environment g.arguments).mapError .usage

def importOfGiven (g : Given) : ImportCommand :=
  let options := ImportOptions.default
  let config := ClusterConfig.default
  { options :=
      { inputArchive := (g.text? "input").getD options.inputArchive
        unpauseAfterImport := g.flag "unpause-after-import"
        legacyRevisionWait := !g.flag "no-legacy-revision-wait"
        wait := ⟨g.count "poll-interval" 5, g.count "wait-timeout" 600⟩ }
    skipPreflight := g.flag "skip-preflight-checks"
    isJson := g.flag "json"
    config :=
      { config with
        server := (g.text? "server").getD config.server
        token := g.text? "token"
        certificateAuthority := g.text? "certificate-authority"
        insecureSkipTlsVerify := g.flag "insecure-skip-tls-verify"
        engineNamespace := (g.text? "engine-namespace").getD config.engineNamespace
        engineDeployment := (g.text? "engine-deployment").getD config.engineDeployment } }

def inspectOfGiven (g : Given) : InspectCommand :=
  ⟨(g.text? "input").getD ImportOptions.default.inputArchive, g.flag "json"⟩

/-- The words after `help` may name a command. -/
def helpOn : List String → Stop
  | word :: _ =>
    if programGrammar.commands.contains word then .help else .usage (.unknownCommand word)
  | [] => .help

/-- Reads a command, whose name and words come after what all commands share. -/
def ofName (environment : String → Option String) (name : String) (words : List String) :
    Except Stop Command :=
  match name with
  | "import" =>
    (.importState ∘ importOfGiven) <$> readWords environment importArguments words
  | "inspect" =>
    (.inspect ∘ inspectOfGiven) <$> readWords environment inspectArguments words
  | _ => throw (helpOn words)

/-- Reads a command from the words of a command line and from the environment. -/
def ofWords (environment : String → Option String) (words : List String) :
    Except Stop Command := do
  match ← programGrammar.read .start words with
  | (r, some (name, words)) =>
    let command ← ofName environment name words
    discard r.settle
    return command
  | (r, none) =>
    let given := (← r.settle).given
    match given.addVariables environment sharedArguments with
    | .ok [] => throw .nothing
    | .ok _ => throw (.usage .missingCommand)
    | .error e => throw (.usage e)

end Command

end PlaneRestore
