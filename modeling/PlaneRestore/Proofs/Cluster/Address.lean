import PlaneRestore.Proofs.Cluster.Relay
import PlaneRestore.Proofs.State.Path
/-!
Objects of a cluster and their addresses.

* `KindMapping.segments_objectPath`: the path of an object, cut at its slashes. Its second part
  tells whether the kind has a group, and from its end it can be told whether it has namespaces.
* `KindMapping.objectPath_eq_iff`: two objects have the same path only if they are the same object.
* `Cluster.led_submit`: what is sent for a call about one object.
* `objects_have_own_paths` puts this together for the calls that create and update objects.
-/

namespace PlaneRestore

/-- No name in the path of a kind contains a slash. The group may be empty. -/
structure KindMapping.IsSlashFree (m : KindMapping) : Prop where
  group : '/' ∉ m.group.toList
  version : '/' ∉ m.version.toList
  resource : '/' ∉ m.resource.toList

/-- No name in the key of an object contains a slash. -/
structure ObjectKey.IsSlashFree (k : ObjectKey) : Prop where
  space : ∀ s, k.space = some s → '/' ∉ s.toList
  name : '/' ∉ k.name.toList

namespace KindMapping

/-- Two kinds and keys stand for the same object, served at the same version. The namespace counts
for kinds that have namespaces, and is the default one if none is named. -/
structure SameObject (m m' : KindMapping) (k k' : ObjectKey) : Prop where
  group : m.group = m'.group
  version : m.version = m'.version
  resource : m.resource = m'.resource
  namespaced : m.namespaced = m'.namespaced
  space : m.namespaced = true → k.space.getD defaultNamespace = k'.space.getD defaultNamespace
  name : k.name = k'.name

variable {m m' : KindMapping} {k k' : ObjectKey}

/-! ### The parts of a path -/

/-- What a path begins with, up to the version. As paths begin with a slash, the first part is
empty. -/
def groupParts (m : KindMapping) : List String :=
  if m.group = "" then ["", "api"] else ["", "apis", m.group]

/-- What stands for the namespace in the path of an object. -/
def spaceParts (m : KindMapping) (k : ObjectKey) : List String :=
  if m.namespaced then ["namespaces", k.space.getD defaultNamespace] else []

/-- The parts of the path of an object. -/
def pathParts (m : KindMapping) (k : ObjectKey) : List String :=
  m.groupParts ++ m.version :: (m.spaceParts k ++ [m.resource, k.name])

theorem objectPath_eq (m : KindMapping) (k : ObjectKey) :
    m.objectPath k = "/".intercalate (m.pathParts k) := by
  apply String.toList_inj.mp
  cases hn : m.namespaced <;> by_cases hg : m.group = "" <;>
    simp [objectPath, collectionPath, allPath, versionPath, pathParts, groupParts, spaceParts, hn,
      hg, String.intercalate_cons_cons]

theorem slash_notMem_groupParts (hm : m.IsSlashFree) :
    ∀ part ∈ m.groupParts, '/' ∉ part.toList := by
  have hgroup := hm.group
  intro part hpart
  rw [groupParts] at hpart
  split at hpart
  · rcases List.mem_pair.mp hpart with rfl | rfl
    · simp
    · decide
  · rcases List.mem_cons.mp hpart with rfl | hpart
    · simp
    · rcases List.mem_pair.mp hpart with rfl | rfl
      · decide
      · exact hgroup

theorem slash_notMem_spaceParts (m : KindMapping) (hk : k.IsSlashFree) :
    ∀ part ∈ m.spaceParts k, '/' ∉ part.toList := by
  have hspace : '/' ∉ (k.space.getD defaultNamespace).toList := by
    cases hs : k.space with
    | none => decide
    | some s => exact hk.space s hs
  intro part hpart
  rw [spaceParts] at hpart
  split at hpart
  · rcases List.mem_pair.mp hpart with rfl | rfl
    · decide
    · exact hspace
  · cases hpart

/-- The parts can be told from the path. -/
theorem segments_objectPath (hm : m.IsSlashFree) (hk : k.IsSlashFree) :
    Path.segments (m.objectPath k) = m.pathParts k := by
  have hne : m.pathParts k ≠ [] := by simp [pathParts]
  have hparts : ∀ part ∈ m.pathParts k, '/' ∉ part.toList := by
    intro part hpart
    simp only [pathParts, List.mem_append, List.mem_cons, List.not_mem_nil, or_false] at hpart
    rcases hpart with hpart | rfl | hpart | rfl | rfl
    · exact slash_notMem_groupParts hm part hpart
    · exact hm.version
    · exact slash_notMem_spaceParts m hk part hpart
    · exact hm.resource
    · exact hk.name
  rw [objectPath_eq, Path.segments_intercalate hne hparts]

/-- The words before the group tell the groups apart, and whether there is one at all. -/
theorem eq_of_groupParts_append {us vs : List String}
    (h : m.groupParts ++ us = m'.groupParts ++ vs) :
    m.group = m'.group ∧ us = vs := by
  by_cases hg : m.group = "" <;> by_cases hg' : m'.group = ""
  · simpa [groupParts, hg, hg'] using h
  · simp [groupParts, hg, hg'] at h
  · simp [groupParts, hg, hg'] at h
  · simpa [groupParts, hg, hg'] using h

theorem eq_of_spaceParts (h : m.spaceParts k = m'.spaceParts k') :
    m.namespaced = m'.namespaced ∧ (m.namespaced = true →
      k.space.getD defaultNamespace = k'.space.getD defaultNamespace) := by
  cases hn : m.namespaced <;> cases hn' : m'.namespaced <;>
    simp_all [spaceParts]

/-- Only the same object has the same parts: they are compared from the front up to the version,
and from the end up to the namespace. -/
theorem sameObject_of_pathParts (h : m.pathParts k = m'.pathParts k') : SameObject m m' k k' := by
  obtain ⟨hgroup, hrest⟩ := eq_of_groupParts_append h
  obtain ⟨hversion, hrest⟩ := List.cons.inj hrest
  obtain ⟨hspace, hlast⟩ := List.append_inj' hrest rfl
  obtain ⟨hresource, hname⟩ := List.cons.inj hlast
  obtain ⟨hnamespaced, hspaces⟩ := eq_of_spaceParts hspace
  exact ⟨hgroup, hversion, hresource, hnamespaced, hspaces, (List.cons.inj hname).1⟩

theorem SameObject.pathParts (h : SameObject m m' k k') : m.pathParts k = m'.pathParts k' := by
  have hgroup : m.groupParts = m'.groupParts := by rw [groupParts, groupParts, h.group]
  have hspace : m.spaceParts k = m'.spaceParts k' := by
    rw [spaceParts, spaceParts, ← h.namespaced]
    split
    · next hn => rw [h.space hn]
    · rfl
  rw [KindMapping.pathParts, KindMapping.pathParts, hgroup, h.version, hspace, h.resource, h.name]

theorem objectPath_eq_iff (hm : m.IsSlashFree) (hm' : m'.IsSlashFree) (hk : k.IsSlashFree)
    (hk' : k'.IsSlashFree) : m.objectPath k = m'.objectPath k' ↔ SameObject m m' k k' := by
  constructor
  · intro h
    have hparts : m.pathParts k = m'.pathParts k' := by
      rw [← segments_objectPath hm hk, h, segments_objectPath hm' hk']
    exact sameObject_of_pathParts hparts
  · intro h
    rw [objectPath_eq, objectPath_eq, h.pathParts]

end KindMapping

/-! ### Where objects are sent -/

namespace Cluster

variable {c : Cluster} {known known' : Discovered} {ts : Requests}

/-- For a call about one object one request is sent, if it can be made. -/
theorem led_submit {method : HttpMethod} {path : String} {purpose : Purpose} {m : KindMapping}
    {resource : Resource} {r : Option (Except ClientError Resource × Discovered)}
    (h : (c.submit method path purpose m resource).Led known ts r) :
    ts = [] ∨ ∃ request answer,
      c.request? method path [] (some resource.object) = some request ∧
        ts = [⟨request, answer⟩] := by
  rw [submit_eq] at h
  rcases led_send_bind h with ⟨rfl, -⟩ | ⟨request, answer, hrequest, rfl, -⟩
  · exact .inl rfl
  · exact .inr ⟨request, answer, hrequest, rfl⟩

end Cluster

/-- What there is to say about the paths under which a cluster finds objects. -/
structure AddressesApart (c : Cluster) (m m' : KindMapping) (k k' : ObjectKey) : Prop where
  /-- Different objects have different paths. -/
  apart : m.objectPath k = m'.objectPath k' ↔ KindMapping.SameObject m m' k k'
  /-- An object is in the collection of its kind and its namespace. -/
  inside : m.objectPath k = m.collectionPath k.space ++ "/" ++ k.name
  /-- An object is created by a request to the collection, and by no other. -/
  created : ∀ (r : Resource) (a : Option (Except ClientError Resource)) (ts : Requests), r.key = k →
    c.Serves ⟨.create m r, a⟩ ts → ∀ t ∈ ts,
      c.request? .post (m.collectionPath k.space) [] (some r.object) = some t.1
  /-- An object is replaced where it is in the collection in which it was created. -/
  updated : ∀ (r : Resource) (a : Option (Except ClientError Resource)) (ts : Requests), r.key = k →
    c.Serves ⟨.update m r, a⟩ ts → ∀ t ∈ ts,
      c.request? .put (m.collectionPath k.space ++ "/" ++ k.name) [] (some r.object) = some t.1

/-- **Different objects have different paths.** If no name contains a slash, the path tells the
group, the version, the kind, the namespace if it counts, and the name; and an update is sent to
the object in the collection to which it was sent when it was created. -/
theorem objects_have_own_paths (c : Cluster) {m m' : KindMapping} {k k' : ObjectKey}
    (hm : m.IsSlashFree) (hm' : m'.IsSlashFree) (hk : k.IsSlashFree) (hk' : k'.IsSlashFree) :
    AddressesApart c m m' k k' where
  apart := KindMapping.objectPath_eq_iff hm hm' hk hk'
  inside := rfl
  created := by
    rintro r a ts rfl ⟨known, known', hled⟩ t ht
    rcases Cluster.led_submit hled with rfl | ⟨request, answer, hrequest, rfl⟩
    · cases ht
    · rw [List.mem_singleton.mp ht]
      exact hrequest
  updated := by
    rintro r a ts rfl ⟨known, known', hled⟩ t ht
    rcases Cluster.led_submit hled with rfl | ⟨request, answer, hrequest, rfl⟩
    · cases ht
    · rw [List.mem_singleton.mp ht]
      exact hrequest

namespace Sample

/-- Namespaces themselves, with a path that looks like the beginning of a longer one. -/
def namespaceMapping : KindMapping := ⟨"", "v1", "Namespace", "namespaces", false, []⟩

def podMapping : KindMapping := ⟨"", "v1", "Pod", "pods", true, []⟩

end Sample

/-- An object without a namespace is the one in the default namespace; the namespace that is called
so is another object. -/
theorem objects_have_own_paths_sample :
    Sample.podMapping.objectPath ⟨none, "pods"⟩
        = Sample.podMapping.objectPath ⟨some "default", "pods"⟩ ∧
      Sample.namespaceMapping.objectPath ⟨none, "default"⟩
        ≠ Sample.podMapping.objectPath ⟨none, "pods"⟩ := by
  have hpods : Sample.podMapping.IsSlashFree := ⟨by decide, by decide, by decide⟩
  have hspaces : Sample.namespaceMapping.IsSlashFree := ⟨by decide, by decide, by decide⟩
  have hplain : (⟨none, "pods"⟩ : ObjectKey).IsSlashFree := ⟨nofun, by decide⟩
  have hspace : (⟨none, "default"⟩ : ObjectKey).IsSlashFree := ⟨nofun, by decide⟩
  have hnamed : (⟨some "default", "pods"⟩ : ObjectKey).IsSlashFree :=
    ⟨fun s hs => by
      obtain rfl := Option.some.inj hs
      decide, by decide⟩
  have hsame := objects_have_own_paths default hpods hpods hplain hnamed
  have hother := objects_have_own_paths default hspaces hpods hspace hplain
  refine ⟨hsame.apart.mpr ⟨rfl, rfl, rfl, rfl, fun _ => rfl, rfl⟩, fun h => ?_⟩
  have hresource := (hother.apart.mp h).resource
  exact absurd hresource (by decide)

end PlaneRestore
