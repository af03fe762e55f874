import PlaneRestore.Kind
/-!
Where the objects of a cluster are found.

The path of a collection names group, version, namespace and kind; `objectPath` adds the name of
an object.
-/

namespace PlaneRestore

/-- The namespace of an object that names none although its kind has namespaces. -/
def defaultNamespace : String := "default"

namespace KindMapping

/-- The path of a group version. -/
def versionPath (m : KindMapping) : String :=
  if m.group = "" then "/api/" ++ m.version else "/apis/" ++ m.group ++ "/" ++ m.version

/-- The path of all objects of a kind, in all namespaces. -/
def allPath (m : KindMapping) : String := m.versionPath ++ "/" ++ m.resource

/-- The path of the objects of a kind, in one namespace if the kind has them. -/
def collectionPath (m : KindMapping) (space : Option String) : String :=
  if m.namespaced then
    m.versionPath ++ "/namespaces/" ++ space.getD defaultNamespace ++ "/" ++ m.resource
  else m.allPath

/-- The path of one object. -/
def objectPath (m : KindMapping) (k : ObjectKey) : String :=
  m.collectionPath k.space ++ "/" ++ k.name

end KindMapping

end PlaneRestore
