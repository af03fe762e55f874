import PlaneRestore.Shape
import PlaneRestore.Text.Quoted
/-!
Settings that say how a cluster is reached.
-/

namespace PlaneRestore

/-- How a cluster is reached. -/
structure ClusterConfig where
  server : String
  token : Option String
  /-- The path of a file with certificates. -/
  certificateAuthority : Option String
  insecureSkipTlsVerify : Bool
  /-- Where the deployment of the engine is found. -/
  engineNamespace : String
  engineDeployment : String
  /-- In seconds. -/
  requestTimeout : Nat
deriving DecidableEq, Repr, Inhabited

namespace ClusterConfig

def default : ClusterConfig :=
  ⟨"https://127.0.0.1:6443", none, none, false, "example-system", "engine", 30⟩

def shape : Shape ClusterConfig :=
  Fields.record "ClusterConfig"
    (.field "server" .text (.gives default.server) <|
      .field "token" (.optional .text) (.gives none) <|
      .field "certificateAuthority" (.optional .path) (.gives none) <|
      .field "insecureSkipTlsVerify" .flag (.gives default.insecureSkipTlsVerify) <|
      .field "engineNamespace" .text (.gives default.engineNamespace) <|
      .field "engineDeployment" .text (.gives default.engineDeployment) <|
      .field "requestTimeoutSecs" (.count "u64") (.gives default.requestTimeout) .done)
    fun (server, token, ca, insecure, engineSpace, engineDeployment, timeout, _) =>
      ⟨server, token, ca, insecure, engineSpace, engineDeployment, timeout⟩

def toJson (c : ClusterConfig) : Json :=
  .ofEntries [("server", .string c.server), ("token", .ofString? c.token),
    ("certificateAuthority", .ofString? c.certificateAuthority),
    ("insecureSkipTlsVerify", .bool c.insecureSkipTlsVerify),
    ("engineNamespace", .string c.engineNamespace),
    ("engineDeployment", .string c.engineDeployment),
    ("requestTimeoutSecs", .ofNat c.requestTimeout)]

end ClusterConfig

end PlaneRestore
