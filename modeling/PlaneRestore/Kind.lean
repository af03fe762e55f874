import PlaneRestore.Shape
import PlaneRestore.Text.Split
/-!
Names of kinds and objects.

* `splitApiVersion` cuts an API version into group and version; `KindMapping.apiVersion` joins them.
* `GroupResource.parse` reads the text that `GroupResource.display` writes.
* Group kinds and object keys are ordered by their parts.
-/

namespace PlaneRestore

/-- The group and the version of an API version; without a slash the group is empty. -/
def splitApiVersion (apiVersion : String) : String × String :=
  (Text.splitOnce '/' apiVersion).getD ("", apiVersion)

/-- A kind, whatever its version. -/
structure GroupKind where
  group : String
  kind : String
deriving DecidableEq, Repr, Inhabited

namespace GroupKind

/-- The kind, and after a point the group if there is one. -/
def display (k : GroupKind) : String :=
  if k.group = "" then k.kind else k.kind ++ "." ++ k.group

instance : Ord GroupKind := ⟨fun a b => (compare a.group b.group).then (compare a.kind b.kind)⟩

instance : Std.LawfulEqOrd GroupKind where
  eq_of_compare {a b} h := by
    have h : (compare a.group b.group).then (compare a.kind b.kind) = .eq := h
    rw [Ordering.then_eq_eq] at h
    cases a
    cases b
    congr
    · exact Std.LawfulEqOrd.eq_of_compare h.1
    · exact Std.LawfulEqOrd.eq_of_compare h.2
  compare_self {a} := by
    show (compare a.group a.group).then (compare a.kind a.kind) = .eq
    rw [Ordering.then_eq_eq]
    exact ⟨Std.ReflOrd.compare_self, Std.ReflOrd.compare_self⟩

end GroupKind

/-- A resource by its plural name, which also names its group of manifests. -/
structure GroupResource where
  group : String
  resource : String
deriving DecidableEq, Repr, Inhabited

namespace GroupResource

/-- The plural name up to the first point, and the group after it. -/
def parse (descriptor : String) : GroupResource :=
  match Text.splitOnce '.' descriptor with
  | some (resource, group) => ⟨group, resource⟩
  | none => ⟨"", descriptor⟩

/-- The plural name, and after a point the group if there is one. -/
def display (r : GroupResource) : String :=
  if r.group = "" then r.resource else r.resource ++ "." ++ r.group

end GroupResource

/-- How a kind is served. -/
structure KindMapping where
  group : String
  version : String
  kind : String
  /-- The plural name. -/
  resource : String
  namespaced : Bool
  categories : List String
deriving DecidableEq, Repr, Inhabited

namespace KindMapping

def groupKind (m : KindMapping) : GroupKind := ⟨m.group, m.kind⟩

def groupResource (m : KindMapping) : GroupResource := ⟨m.group, m.resource⟩

/-- The group and the version, or the version alone if the group is empty. -/
def apiVersion (m : KindMapping) : String :=
  if m.group = "" then m.version else m.group ++ "/" ++ m.version

def hasCategory (m : KindMapping) (category : String) : Bool := m.categories.contains category

def shape : Shape KindMapping :=
  Fields.record "KindMapping"
    (.field "group" .text .isError <| .field "version" .text .isError <|
      .field "kind" .text .isError <| .field "resource" .text .isError <|
      .field "namespaced" .flag .isError <| .field "categories" (.list .text) (.gives []) .done)
    fun (group, version, kind, resource, namespaced, categories, _) =>
      ⟨group, version, kind, resource, namespaced, categories⟩

def toJson (m : KindMapping) : Json :=
  .ofEntries [("group", .string m.group), ("version", .string m.version),
    ("kind", .string m.kind), ("resource", .string m.resource),
    ("namespaced", .bool m.namespaced), ("categories", .ofStrings m.categories)]

end KindMapping

/-- The namespace and the name of an object. -/
structure ObjectKey where
  space : Option String
  name : String
deriving DecidableEq, Repr, Inhabited

namespace ObjectKey

/-- The name, after the namespace and a slash if there is a namespace. -/
def display (k : ObjectKey) : String :=
  match k.space with
  | some space => space ++ "/" ++ k.name
  | none => k.name

instance : Ord ObjectKey := ⟨fun a b => (compare a.space b.space).then (compare a.name b.name)⟩

instance : Std.LawfulEqOrd ObjectKey where
  eq_of_compare {a b} h := by
    have h : (compare a.space b.space).then (compare a.name b.name) = .eq := h
    rw [Ordering.then_eq_eq] at h
    cases a
    cases b
    congr
    · exact Std.LawfulEqOrd.eq_of_compare h.1
    · exact Std.LawfulEqOrd.eq_of_compare h.2
  compare_self {a} := by
    show (compare a.space a.space).then (compare a.name a.name) = .eq
    rw [Ordering.then_eq_eq]
    exact ⟨Std.ReflOrd.compare_self, Std.ReflOrd.compare_self⟩

end ObjectKey

/-- A label that stands for the kinds which bear it. -/
structure Category where
  name : String
deriving DecidableEq, Repr, Inhabited

namespace Category

/-- Claims for composite resources, inside a namespace. -/
def claim : Category := ⟨"claim"⟩

/-- Composite resources, outside namespaces. -/
def composite : Category := ⟨"composite"⟩

/-- Resources that stand for something in an external system. -/
def managed : Category := ⟨"managed"⟩

/-- The categories whose resources are created paused. -/
def pausable : List Category := [claim, composite, managed]

end Category

/-- The annotation that keeps an object from being reconciled. -/
def pausedKey : String := "example.io/paused"

end PlaneRestore
