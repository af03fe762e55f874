import PlaneRestore.Boundary
import PlaneRestore.Cluster.Address
import PlaneRestore.Cluster.Config
import PlaneRestore.Cluster.Discovery
import PlaneRestore.Cluster.Engine
import PlaneRestore.Http
import PlaneRestore.Json.Skim
/-!
The calls of a control plane over HTTP.

* `Cluster.answer` makes a call of a control plane: it sends the requests that belong to it and
  reads the answers.
* `Cluster.discover` finds out how kinds are served; what was found is kept until it has to be
  forgotten.
* `refusal` says what it means that the server does not answer with success.
-/

namespace PlaneRestore

/-- A cluster that is reached over HTTP. -/
structure Cluster where
  /-- The address of the server, without slashes at its end. -/
  address : String
  /-- What a client shows to be let in. -/
  token : Option String
  engineNamespace : String
  engineDeployment : String
  /-- How long the server may take for an answer, in seconds. -/
  requestTimeout : Nat
deriving DecidableEq, Repr, Inhabited

/-- How kinds are served, as far as it is known. -/
abbrev Discovered : Type := Option (List KindMapping)

/-- Requests to a cluster that may fail, with what is known about the kinds it serves. -/
abbrev Client (α : Type) : Type :=
  ExceptT ClientError (StateT Discovered (Dialogue HttpRequest fun _ => Option HttpResponse)) α

namespace Client

def orThrow (r : Except ClientError α) : Client α :=
  match r with
  | .ok a => return a
  | .error e => throw e

def orInvalid (r : Except InvalidResource α) : Client α :=
  orThrow (r.mapError .invalidResource)

/-- Sends a request. -/
def ask (request : HttpRequest) : Client (Option HttpResponse) :=
  ExceptT.lift (StateT.lift (Dialogue.ask request))

end Client

/-- What a request is for. -/
inductive Purpose where
  | read
  | create
  | update
deriving DecidableEq, Repr, Inhabited

/-- The body of a refusal. -/
structure StatusNote where
  message : String
deriving DecidableEq, Repr, Inhabited

def StatusNote.shape : Shape StatusNote :=
  Fields.record "Status" (.field "message" .text (.gives "") .done) fun (message, _) => ⟨message⟩

/-- What a refusal says: the message in its body, or else the body, or else the status. -/
def refusalMessage (status : Nat) (body : String) : String :=
  let plain := if body = "" then HttpStatus.text status else body
  match (Json.skim? (Text.Utf8.encode body)).map StatusNote.shape.ofJson with
  | some (.ok note) => if note.message = "" then plain else note.message
  | _ => plain

/-- What it means that the server does not answer with success. -/
def refusal (status : Nat) (body : String) (purpose : Purpose) (kind name : String) :
    ClientError :=
  if status = 404 then .notFound kind name
  else if status = 409 then
    match purpose with
    | .create => .alreadyExists kind name
    | _ => .conflict kind name (refusalMessage status body)
  else .api status (refusalMessage status body)

namespace HttpResponse

/-- The body as text, empty if it broke off. -/
def text (r : HttpResponse) : String := (r.body.map Text.Utf8.decodeLossy).getD ""

def unreadable : ClientError := .transport "error decoding response body"

/-- The body as JSON. -/
def json (r : HttpResponse) : Client Json :=
  match (r.body.bind Text.Utf8.decode?).bind Json.parse? with
  | some v => return v
  | none => throw unreadable

/-- The body as a record, which passes over the members that it does not name. -/
def read (s : Shape α) (r : HttpResponse) : Client α :=
  match (r.body.bind Json.skim?).map s.ofJson with
  | some (.ok a) => return a
  | _ => throw unreadable

end HttpResponse

namespace Cluster

/-! ### Requests -/

/-- What is sent along with every request. -/
def headers (c : Cluster) (body : Option Json) : List (String × String) :=
  ("accept", "application/json")
    :: (c.token.map fun t => ("authorization", "Bearer " ++ t)).toList
    ++ (body.map fun _ => ("content-type", "application/json")).toList

/-- Sends a request, and answers what the server answers with success. -/
def send (c : Cluster) (method : HttpMethod) (path : String) (query : List (String × String))
    (body : Option Json) (purpose : Purpose) (kind name : String) : Client HttpResponse := do
  match HttpRequest.build? method (c.address ++ path) query (c.headers body) body
    c.requestTimeout with
  | none => throw (.transport "builder error")
  | some request =>
    match ← Client.ask request with
    | none => throw (.transport ("error sending request for url (" ++ request.url.render ++ ")"))
    | some response =>
      if HttpStatus.isSuccess response.status then return response
      else throw (refusal response.status response.text purpose kind name)

/-- Sends an object, and answers the object that the server answers. -/
def submit (c : Cluster) (method : HttpMethod) (path : String) (purpose : Purpose)
    (m : KindMapping) (r : Resource) : Client Resource := do
  let response ←
    c.send method path [] (some r.object) purpose m.groupKind.display r.key.display
  Client.orInvalid (Resource.ofItem m.apiVersion m.kind (← response.json))

/-! ### Lists -/

/-- How many objects are asked for at once. -/
def pageSize : Nat := 500

/-- A list may have as many pages as 64 bits can count. -/
def pageLimit : Nat := Nat.pow 2 64

/-- The objects on a page. -/
def itemsOf (m : KindMapping) (page : Json) : Except InvalidResource (List Resource) :=
  (((page.member? "items").bind Json.array?).getD []).mapM (Resource.ofItem m.apiVersion m.kind)

/-- The token for the next page, if there is one. -/
def continuation (page : Json) : Option String :=
  match (page.at? ["metadata", "continue"]).bind Json.string? with
  | some "" => none
  | token => token

/-- Reads one page. -/
def page (c : Cluster) (m : KindMapping) (token : Option String) : Client Json := do
  let query := ("limit", toString pageSize) :: (token.map fun t => ("continue", t)).toList
  let response ← c.send .get m.allPath query none .read m.groupKind.display ""
  response.json

/-- Reads one page after another, and at most so many. -/
def pages (c : Cluster) (m : KindMapping) : Nat → Option String → Client (List Resource)
  | 0, _ => throw (.transport "list does not end")
  | limit + 1, token => do
    let page ← c.page m token
    let items ← Client.orInvalid (itemsOf m page)
    match continuation page with
    | none => return items
    | some token => return items ++ (← c.pages m limit (some token))

/-! ### Discovery -/

/-- Reads a document about the kinds of the cluster. -/
def document (c : Cluster) (s : Shape α) (path : String) : Client α := do
  let response ← c.send .get path [] none .read "discovery document" path
  response.read s

/-- An error of a document that discovery cannot do without. -/
def indispensable (work : Client α) : Client α :=
  tryCatch work fun e => throw (.discovery (e.message Wording.plain))

/-- The kinds of a group version; none if the cluster does not tell. -/
def versionMappings (c : Cluster) (groupVersion : String) : Client (List KindMapping) :=
  let path := "/apis/" ++ groupVersion
  tryCatch (ApiResourceList.mappings <$> c.document ApiResourceList.shape path) fun _ => return []

/-- Finds out how kinds are served. Of each group the preferred version comes first. -/
def discover (c : Cluster) : Client (List KindMapping) := do
  let core ← indispensable (c.document ApiResourceList.shape "/api/v1")
  let groups ← indispensable (c.document ApiGroupList.shape "/apis")
  -- a group version that cannot be read only lacks its own kinds
  let versions := groups.groups.flatMap ApiGroup.groupVersions
  return core.mappings ++ (← versions.mapM c.versionMappings).flatten

/-- How kinds are served; it is found out if it is not known. -/
def mappings (c : Cluster) : Client (List KindMapping) := do
  match ← get with
  | some ms => return ms
  | none =>
    let ms ← c.discover
    set (some ms)
    return ms

/-- The first way in which a kind is served. -/
def lookUp (ms : List KindMapping) (k : GroupKind) : Except ClientError KindMapping :=
  match ms.find? (·.groupKind = k) with
  | some m => return m
  | none => throw (.noMapping k.display)

/-- The first way in which a kind is served at a version. -/
def lookUpVersion (ms : List KindMapping) (k : GroupKind) (version : String) :
    Except ClientError KindMapping :=
  match ms.find? fun m => m.groupKind = k && m.version = version with
  | some m => return m
  | none => throw (.noMapping (k.display ++ " in version " ++ version))

/-- The kinds of a category, each as it is first listed in it. -/
def members (ms : List KindMapping) (category : String) : List KindMapping :=
  (ms.filter (·.hasCategory category)).foldl
    (fun kept m => if kept.any (·.groupKind = m.groupKind) then kept else kept ++ [m]) []

/-! ### Calls -/

/-- What the engine is, by its deployment. -/
def observe (c : Cluster) : Client EngineInfo := do
  let path :=
    "/apis/apps/v1/namespaces/" ++ c.engineNamespace ++ "/deployments/" ++ c.engineDeployment
  let response ← c.send .get path [] none .read "Deployment.apps"
    (c.engineNamespace ++ "/" ++ c.engineDeployment)
  Client.orInvalid (EngineInfo.ofDeployment (← response.json))

/-- Makes a call. -/
def answer (c : Cluster) : (call : Call) →
    StateT Discovered (Dialogue HttpRequest fun _ => Option HttpResponse) call.Answer
  | .list m => (c.pages m pageLimit none).run
  | .create m r => (c.submit .post (m.collectionPath r.space?) .create m r).run
  | .update m r => (c.submit .put (m.objectPath r.key) .update m r).run
  | .mappingForKind k =>
    ExceptT.run do Client.orThrow (lookUp (← c.mappings) k)
  | .mappingForVersion k version =>
    ExceptT.run do Client.orThrow (lookUpVersion (← c.mappings) k version)
  | .reset => set (none : Discovered)
  | .resolve category => ExceptT.run do return members (← c.mappings) category.name
  | .observe => c.observe.run

end Cluster

end PlaneRestore
