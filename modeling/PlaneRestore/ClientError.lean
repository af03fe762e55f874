import PlaneRestore.Yaml.Error
/-!
What can go wrong with a control plane and its objects.

`ClientError.message` words the cause.
-/

namespace PlaneRestore

/-- Why a manifest is no resource, or an object lacks what is looked for. -/
inductive InvalidResource where
  | notObject
  | noTypeMeta
  | noName (kind : String)
  | unreadable (cause : Yaml.Error)
  | noContainers
  | noEngineVersion (image : String)
  | other (message : String)
deriving DecidableEq, Repr

/-- The cause in words. -/
def InvalidResource.message (w : Wording) : InvalidResource → String
  | notObject => "manifest is not an object"
  | noTypeMeta => "manifest has no apiVersion or kind"
  | noName kind => kind ++ " manifest has no metadata.name"
  | unreadable cause => "cannot parse manifest: " ++ cause.message w
  | noContainers => "engine deployment has no containers"
  | noEngineVersion image =>
    "cannot determine engine version from image " ++ Text.quote image
  | other message => message

/-- What can go wrong with a control plane. -/
inductive ClientError where
  | notFound (kind name : String)
  | alreadyExists (kind name : String)
  | conflict (kind name message : String)
  | noMapping (kind : String)
  | discovery (message : String)
  | api (status : Nat) (message : String)
  | transport (message : String)
  | invalidResource (cause : InvalidResource)
  | serialization (message : String)
deriving DecidableEq, Repr

/-- The cause in words. -/
def ClientError.message (w : Wording) : ClientError → String
  | notFound kind name => kind ++ " " ++ Text.quote name ++ " not found"
  | alreadyExists kind name => kind ++ " " ++ Text.quote name ++ " already exists"
  | conflict kind name message =>
    "conflict updating " ++ kind ++ " " ++ Text.quote name ++ ": " ++ message
  | noMapping kind => "no resource mapping for kind " ++ kind
  | discovery message => "Discovery failed: " ++ message
  | api status message => "API error (" ++ toString status ++ "): " ++ message
  | transport message => "Transport error: " ++ message
  | invalidResource cause => "Invalid resource: " ++ cause.message w
  | serialization message => "Serialization error: " ++ message

end PlaneRestore
