import PlaneRestore.Kind
/-!
Documents that tell which kinds a cluster serves.

* `ApiResourceList.mappings` are the kinds of one group version.
* `ApiGroup.groupVersions` are the versions of a group, the preferred one first.
-/

namespace PlaneRestore

/-- A resource of a group version. -/
structure ApiResource where
  /-- The plural name; the name of a part of a resource has a slash. -/
  name : String
  kind : String
  namespaced : Bool
  categories : List String
deriving DecidableEq, Repr, Inhabited

def ApiResource.shape : Shape ApiResource :=
  Fields.record "ApiResource"
    (.field "name" .text .isError <| .field "kind" .text .isError <|
      .field "namespaced" .flag (.gives false) <|
      .field "categories" (.list .text) (.gives []) .done)
    fun (name, kind, namespaced, categories, _) => ⟨name, kind, namespaced, categories⟩

/-- The resources of a group version. -/
structure ApiResourceList where
  groupVersion : String
  resources : List ApiResource
deriving DecidableEq, Repr, Inhabited

namespace ApiResourceList

def shape : Shape ApiResourceList :=
  Fields.record "ApiResourceList"
    (.field "groupVersion" .text .isError <|
      .field "resources" (.list ApiResource.shape) (.gives []) .done)
    fun (groupVersion, resources, _) => ⟨groupVersion, resources⟩

/-- The kinds that are served in their own right, not as a part of another one. -/
def mappings (l : ApiResourceList) : List KindMapping :=
  let (group, version) := splitApiVersion l.groupVersion
  (l.resources.filter fun r => !r.name.toList.contains '/').map fun r =>
    ⟨group, version, r.kind, r.name, r.namespaced, r.categories⟩

end ApiResourceList

/-- A version of a group. -/
structure GroupVersion where
  groupVersion : String
  version : String
deriving DecidableEq, Repr, Inhabited

def GroupVersion.shape : Shape GroupVersion :=
  Fields.record "GroupVersionForDiscovery"
    (.field "groupVersion" .text .isError <| .field "version" .text .isError .done)
    fun (groupVersion, version, _) => ⟨groupVersion, version⟩

/-- A group, with its versions. -/
structure ApiGroup where
  name : String
  versions : List GroupVersion
  preferredVersion : Option GroupVersion
deriving DecidableEq, Repr, Inhabited

namespace ApiGroup

def shape : Shape ApiGroup :=
  Fields.record "ApiGroup"
    (.field "name" .text .isError <| .field "versions" (.list GroupVersion.shape) (.gives []) <|
      .field "preferredVersion" (.optional GroupVersion.shape) (.givesByName none) .done)
    fun (name, versions, preferred, _) => ⟨name, versions, preferred⟩

/-- The preferred version, or else the first one. -/
def preferredGroupVersion (g : ApiGroup) : Option String :=
  (g.preferredVersion.or g.versions.head?).map (·.groupVersion)

/-- Every version once, the preferred one first. -/
def groupVersions (g : ApiGroup) : List String :=
  g.versions.foldl
    (fun vs v => if vs.contains v.groupVersion then vs else vs ++ [v.groupVersion])
    g.preferredGroupVersion.toList

end ApiGroup

/-- The groups that a cluster serves. -/
structure ApiGroupList where
  groups : List ApiGroup
deriving DecidableEq, Repr, Inhabited

def ApiGroupList.shape : Shape ApiGroupList :=
  Fields.record "ApiGroupList" (.field "groups" (.list ApiGroup.shape) (.gives []) .done)
    fun (groups, _) => ⟨groups⟩

end PlaneRestore
