import PlaneRestore.Archive
import PlaneRestore.Cluster.Certificate
import PlaneRestore.Cluster.Client
/-!
From settings to a cluster.

`Cluster.ofConfig` checks the address of the server and the file with certificates.
-/

namespace PlaneRestore

/-- Why a cluster cannot be reached with some settings. -/
inductive ConfigError where
  | readCertificate (path reason : String)
  | invalidCertificate (path : String)
  | invalidServer (server : String)
deriving DecidableEq, Repr, Inhabited

/-- The cause in words. -/
def ConfigError.message (w : Wording) : ConfigError → String
  | readCertificate path reason =>
    "cannot read certificate authority " ++ Text.quote path ++ ": " ++ reason
  | invalidCertificate path =>
    "invalid certificate authority " ++ Text.quote path ++ ": " ++ w.brokenCertificate
  | invalidServer server => "invalid server URL " ++ Text.quote server

namespace ClusterConfig

/-- The address of the server without slashes at its end. -/
def address (c : ClusterConfig) : String :=
  String.ofList (c.server.toList.reverse.dropWhile (· = '/')).reverse

/-- Whether the address names one of the two schemes, in lower case. -/
def hasScheme (c : ClusterConfig) : Bool :=
  c.address.startsWith "http://" || c.address.startsWith "https://"

/-- Checks the file with certificates. -/
def checkCertificate (source : String → SourceFile) (path : String) : Except ConfigError Unit :=
  match source path with
  | .closed reason => throw (.readCertificate path reason)
  | .directory => throw (.readCertificate path "Is a directory (os error 21)")
  | .file bytes =>
    if Certificate.isReadable bytes then return () else throw (.invalidCertificate path)

end ClusterConfig

/-- The cluster of some settings. The address is checked before the certificates. -/
def Cluster.ofConfig (source : String → SourceFile) (c : ClusterConfig) :
    Except ConfigError Cluster := do
  if !c.hasScheme then throw (.invalidServer c.server)
  c.certificateAuthority.forM (ClusterConfig.checkCertificate source)
  return ⟨c.address, c.token.filter (· ≠ ""), c.engineNamespace, c.engineDeployment,
    c.requestTimeout⟩

end PlaneRestore
