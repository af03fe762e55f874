import PlaneRestore.ClientError
import PlaneRestore.Condition
import PlaneRestore.Kind
/-!
Resources: manifests and live objects.

* A resource is a JSON object of any form that names its API version, its kind and itself.
  `Resource.ofJson` and `Resource.ofYaml` check this.
* `annotation?`, `annotations` read annotations; `annotate` and `unannotate` change one.
* `conditions` reads the conditions of the status; `setCondition` replaces one, and `satisfies`
  asks for several.
* `withoutServerFields` drops what a server adds to an object.
-/

namespace PlaneRestore

/-- A manifest or a live object. -/
structure Resource where
  object : Json
deriving Repr, Inhabited, BEq

namespace Resource

def apiVersion (r : Resource) : String := r.object.textAt ["apiVersion"]

def kind (r : Resource) : String := r.object.textAt ["kind"]

def name (r : Resource) : String := r.object.textAt ["metadata", "name"]

/-- The namespace; an empty one counts as none. -/
def space? (r : Resource) : Option String :=
  let s := r.object.textAt ["metadata", "namespace"]
  if s = "" then none else some s

def groupKind (r : Resource) : GroupKind := ⟨(splitApiVersion r.apiVersion).1, r.kind⟩

def version (r : Resource) : String := (splitApiVersion r.apiVersion).2

def key (r : Resource) : ObjectKey := ⟨r.space?, r.name⟩

/-- Kind and key. -/
def display (r : Resource) : String := r.groupKind.display ++ " " ++ r.key.display

/-- A value as a resource. -/
def ofJson (v : Json) : Except InvalidResource Resource :=
  let r : Resource := ⟨v⟩
  if !v.isObject then throw .notObject
  else if r.apiVersion = "" ∨ r.kind = "" then throw .noTypeMeta
  else if r.name = "" then throw (.noName r.kind)
  else return r

/-- A manifest in YAML. -/
def ofYaml (bytes : List UInt8) : Except InvalidResource Resource :=
  match Shape.any.ofYamlText bytes with
  | .ok v => ofJson v
  | .error e => throw (.unreadable e)

/-- Writes a member unless there is one. -/
def fillMember (name : String) (value : Json) (v : Json) : Json :=
  if (v.member? name).isSome then v else v.setMember name value

/-- An item of a list, which may lack its API version and kind. -/
def ofItem (apiVersion kind : String) (v : Json) : Except InvalidResource Resource :=
  ofJson (fillMember "kind" (.string kind) (fillMember "apiVersion" (.string apiVersion) v))

/-- The value of the annotations, whatever it is. -/
def annotationsValue? (r : Resource) : Option Json :=
  (r.object.member? "metadata").bind (·.member? "annotations")

/-- The annotations whose values are texts. -/
def annotations (r : Resource) : List (String × String) :=
  (r.annotationsValue?.elim [] Json.members).filterMap fun (k, v) => v.string?.map ((k, ·))

def annotation? (r : Resource) (key : String) : Option String :=
  (r.annotationsValue?.bind (·.member? key)).bind Json.string?

/-- A member that is an object; an empty one in place of anything else. -/
def objectMember (name : String) (v : Json) : Json :=
  match v.member? name with
  | some (.object ms) => .object ms
  | _ => .object []

def annotate (key value : String) (r : Resource) : Resource :=
  ⟨r.object.modifyMember "metadata" fun m =>
    m.setMember "annotations" ((objectMember "annotations" m).setMember key (.string value))⟩

/-- Whether an annotation is present, whatever its value is. -/
def isAnnotated (r : Resource) (key : String) : Bool :=
  (r.annotationsValue?.bind (·.member? key)).isSome

def unannotate (key : String) (r : Resource) : Resource :=
  ⟨r.object.modifyMember "metadata" fun m =>
    m.modifyMember "annotations" fun a => a.removeMember key⟩

/-- The conditions of the status; none if there is no status. -/
def conditions (r : Resource) : Except Mismatch (List Condition) :=
  match r.object.at? ["status", "conditions"] with
  | none => return []
  | some .null => return []
  | some v => (Shape.list Condition.shape).ofJson v

/-- The items of a member that is an array. -/
def arrayMember (name : String) (v : Json) : List Json :=
  ((v.member? name).bind Json.array?).getD []

/-- Whether a value is written as a condition of a type. -/
def isConditionOf (type : String) (v : Json) : Bool :=
  (v.member? "type").bind Json.string? = some type

/-- Puts a condition in place of those of its type, at the end. -/
def setCondition (c : Condition) (r : Resource) : Resource :=
  let status := objectMember "status" r.object
  -- items that are no conditions at all stay where they are
  let others := (arrayMember "conditions" status).filter fun v => !isConditionOf c.type v
  ⟨r.object.setMember "status" (status.setMember "conditions" (.array (others ++ [c.toJson])))⟩

/-- Whether conditions of all the given types hold. -/
def satisfies (required : List String) (r : Resource) : Except Mismatch Bool := do
  let cs ← r.conditions
  return required.all fun type => cs.any fun c => c.type = type && c.isTrue

/-- The fields of the metadata that a server fills in. -/
def serverFields : List String :=
  ["resourceVersion", "uid", "creationTimestamp", "generation", "managedFields", "selfLink"]

def withoutServerFields (r : Resource) : Resource :=
  ⟨r.object.modifyMember "metadata" fun m => serverFields.foldl (fun m f => m.removeMember f) m⟩

/-- Lifts the pause. -/
def unpause (r : Resource) : Resource := r.unannotate pausedKey

def pause (r : Resource) : Resource := r.annotate pausedKey "true"

end Resource

end PlaneRestore
