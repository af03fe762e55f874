import PlaneRestore.Proofs.Cluster.Address
import PlaneRestore.Proofs.Cluster.Preference
/-!
API versions, from manifests and documents of discovery to paths.

* `KindMapping.IsAt.cases` says how the API version at which a kind is was cut. By
  `KindMapping.IsAt.apiVersion_eq_iff` the kind names that API version again, unless the text of it
  begins with a slash.
* `versionRoot` is where the objects of an API version are, and `KindMapping.IsAt.collectionPath_eq`
  finds it in the path of a collection.
* `ApiResourceList.exists_lookUpVersion`: a kind that a document lists is found at the API version
  of the document.
* `versions_agree` puts this together: what a manifest is sent to is at the API version that it
  names.
-/

namespace PlaneRestore

open Cluster

variable {s : String}

/-! ### Cutting and joining -/

theorem splitApiVersion_of_not_mem (h : '/' ∉ s.toList) : splitApiVersion s = ("", s) := by
  rw [splitApiVersion, Text.splitOnce_eq_none_iff.mpr h, Option.getD_none]

theorem splitApiVersion_append {group : String} (h : '/' ∉ group.toList) (version : String) :
    splitApiVersion (group ++ "/" ++ version) = (group, version) := by
  have hcut : Text.splitOnce '/' (group ++ "/" ++ version) = some (group, version) :=
    Text.splitOnce_eq_some_iff.mpr ⟨by simp, h⟩
  rw [splitApiVersion, hcut, Option.getD_some]

/-- Only in front of a slash at the beginning there is no group. -/
theorem startsWith_slash_append_iff {group : String} (h : '/' ∉ group.toList) (version : String) :
    (group ++ "/" ++ version).startsWith '/' = true ↔ group = "" := by
  rw [String.startsWith_char_eq_head?, ← String.toList_eq_nil_iff]
  cases hgroup : group.toList with
  | nil => simp [hgroup]
  | cons c cs =>
    have hc : c ≠ '/' := by
      rintro rfl
      exact h (by simp [hgroup])
    simp [hgroup, hc]

theorem not_startsWith_slash_of_not_mem (h : '/' ∉ s.toList) : ¬s.startsWith '/' = true := by
  intro hstart
  obtain ⟨t, rfl⟩ := String.startsWith_char_iff_exists_append.mp hstart
  exact h (by simp)

namespace KindMapping

variable {m : KindMapping}

/-- A kind at an API version has no group, or has the one in front of the first slash. -/
theorem IsAt.cases (h : m.IsAt s) :
    ('/' ∉ s.toList ∧ m.group = "" ∧ m.version = s) ∨
      ('/' ∉ m.group.toList ∧ s = m.group ++ "/" ++ m.version) := by
  rcases Text.not_mem_or_exists_append '/' "/" rfl s with hs | ⟨group, version, hgroup, rfl⟩
  · obtain ⟨hempty, hversion⟩ := Prod.mk.inj (h.trans (splitApiVersion_of_not_mem hs))
    exact .inl ⟨hs, hempty, hversion⟩
  · obtain ⟨rfl, rfl⟩ := Prod.mk.inj (h.trans (splitApiVersion_append hgroup version))
    exact .inr ⟨hgroup, rfl⟩

/-- What was cut apart is joined again, unless there was nothing in front of the first slash. -/
theorem IsAt.apiVersion_eq_iff (h : m.IsAt s) : m.apiVersion = s ↔ ¬s.startsWith '/' := by
  rcases h.cases with ⟨hs, hempty, hversion⟩ | ⟨hgroup, hs⟩
  · rw [apiVersion, if_pos hempty]
    exact iff_of_true hversion (not_startsWith_slash_of_not_mem hs)
  · rw [hs, startsWith_slash_append_iff hgroup, apiVersion]
    by_cases hempty : m.group = ""
    · rw [if_pos hempty]
      refine iff_of_false (fun heq => ?_) (not_not_intro hempty)
      -- the slash is lost
      have hlength := congrArg (fun t : String => t.toList.length) heq
      simp at hlength
      omega
    · rw [if_neg hempty]
      exact iff_of_true rfl hempty

/-- An API version without a slash is one of the core group. -/
theorem IsAt.group_eq_empty_iff (h : m.IsAt s) (hs : ¬s.startsWith '/') :
    m.group = "" ↔ '/' ∉ s.toList := by
  rcases h.cases with ⟨hno, hempty, -⟩ | ⟨hgroup, hjoined⟩
  · exact iff_of_true hempty hno
  · rw [hjoined, startsWith_slash_append_iff hgroup] at hs
    exact iff_of_false hs (by simp [hjoined])

end KindMapping

/-! ### Paths -/

/-- Where the objects of an API version are. -/
def versionRoot (apiVersion : String) : String :=
  if '/' ∈ apiVersion.toList then "/apis/" ++ apiVersion else "/api/" ++ apiVersion

namespace KindMapping

variable {m : KindMapping}

theorem versionPath_eq (m : KindMapping) :
    m.versionPath = (if m.group = "" then "/api/" else "/apis/") ++ m.apiVersion := by
  rw [versionPath, apiVersion]
  split
  · rfl
  · rw [String.append_assoc, String.append_assoc, String.append_assoc]

theorem IsAt.versionPath_eq (h : m.IsAt s) (hs : ¬s.startsWith '/') :
    m.versionPath = versionRoot s := by
  rw [KindMapping.versionPath_eq, h.apiVersion_eq_iff.mpr hs, versionRoot]
  by_cases hslash : '/' ∈ s.toList
  · have hgroup : m.group ≠ "" := fun hempty => (h.group_eq_empty_iff hs).mp hempty hslash
    rw [if_pos hslash, if_neg hgroup]
  · rw [if_neg hslash, if_pos ((h.group_eq_empty_iff hs).mpr hslash)]

/-- The path of a collection goes on from that of its API version. -/
theorem IsAt.collectionPath_eq (h : m.IsAt s) (hs : ¬s.startsWith '/') (space : Option String) :
    ∃ rest, m.collectionPath space = versionRoot s ++ "/" ++ rest := by
  rw [collectionPath]
  split
  · refine ⟨"namespaces/" ++ space.getD defaultNamespace ++ "/" ++ m.resource, ?_⟩
    rw [h.versionPath_eq hs]
    apply String.toList_inj.mp
    simp
  · refine ⟨m.resource, ?_⟩
    rw [allPath, h.versionPath_eq hs]

end KindMapping

/-! ### Look-ups -/

/-- A kind that a document lists is found at the API version of the document, though perhaps as
another document lists it. -/
theorem ApiResourceList.exists_lookUpVersion {l : ApiResourceList} {ms : List KindMapping}
    (hms : l.mappings ⊆ ms) {r : Resource} (hr : r.apiVersion = l.groupVersion)
    (hlists : l.Lists r.groupKind) :
    ∃ m, lookUpVersion ms r.groupKind r.version = .ok m ∧ m.kind = r.kind ∧
      m.IsAt r.apiVersion := by
  -- the entry of this document fits, though one of an earlier document may be found in its place
  have hfound : (ms.find? fun m => m.groupKind = r.groupKind && m.version = r.version).isSome := by
    obtain ⟨m, hm, hkind⟩ := ApiResourceList.lists_iff.mp hlists
    have hversion : m.version = r.version := by
      rw [Resource.version, hr]
      exact congrArg Prod.snd (ApiResourceList.isAt_of_mem hm)
    rw [List.find?_isSome]
    exact ⟨m, hms hm, by simp [hkind, hversion]⟩
  obtain ⟨m, hm⟩ := Option.isSome_iff_exists.mp hfound
  have hfits := List.find?_some hm
  simp only [Bool.and_eq_true, decide_eq_true_eq] at hfits
  obtain ⟨hgroupKind, hversion⟩ := hfits
  obtain ⟨hgroup, hkind⟩ := GroupKind.mk.inj hgroupKind
  refine ⟨m, ?_, hkind, Prod.ext hgroup hversion⟩
  rw [lookUpVersion_eq, foundOr_eq_ok_iff]
  exact hm

/-- What is known is looked up without a request. -/
theorem Cluster.run_mappingForVersion {c : Cluster} {ms : List KindMapping} {k : GroupKind}
    {version : String} {m : KindMapping} (h : lookUpVersion ms k version = .ok m) :
    (c.answer (.mappingForVersion k version)).run (some ms) = .done (.ok m, some ms) := by
  have hrun : (c.answer (.mappingForVersion k version)).run (some ms)
      = (Client.orThrow (lookUpVersion ms k version)).run.run (some ms) := rfl
  rw [hrun, h]
  rfl

/-- A manifest is sent to where the objects of its API version are. -/
structure SendsToVersion (c : Cluster) (ms : List KindMapping) (r : Resource) (m : KindMapping) :
    Prop where
  /-- The kind of the manifest is found among those that are known, -/
  found : (c.answer (.mappingForVersion r.groupKind r.version)).run (some ms)
    = .done (.ok m, some ms)
  kind : m.kind = r.kind
  apiVersion : m.apiVersion = r.apiVersion
  /-- and the manifest is sent to a collection at its API version, and nothing else is sent. -/
  sent : ∃ rest, m.collectionPath r.space? = versionRoot r.apiVersion ++ "/" ++ rest ∧
    ∀ (a : Option (Except ClientError Resource)) (ts : Requests), c.Serves ⟨.create m r, a⟩ ts →
      ∀ t ∈ ts, c.request? .post (versionRoot r.apiVersion ++ "/" ++ rest) [] (some r.object)
        = some t.1

/-- What there is to say about an API version, wherever it is cut apart and joined. -/
structure VersionsAgree (c : Cluster) (s : String) : Prop where
  /-- Joining undoes cutting, unless the text begins with a slash. -/
  joined : ∀ m : KindMapping, m.IsAt s → (m.apiVersion = s ↔ ¬s.startsWith '/')
  /-- The kinds of a document are at its API version. -/
  listed : ¬s.startsWith '/' → ∀ l : ApiResourceList, l.groupVersion = s →
    ∀ m ∈ l.mappings, m.apiVersion = s
  /-- A manifest is sent to its API version if a document that is known lists its kind there. -/
  sent : ¬s.startsWith '/' → ∀ l : ApiResourceList, l.groupVersion = s →
    ∀ ms, l.mappings ⊆ ms → ∀ r : Resource, r.apiVersion = s →
      ∀ t ∈ l.resources, '/' ∉ t.name.toList → r.kind = t.kind → ∃ m, SendsToVersion c ms r m

/-- **API versions survive cutting and joining.** A text that is cut into group and version is
joined to the same text again if, and only if, it does not begin with a slash. So the kinds in a
document are at its API version, and a manifest of such a kind is sent to a path with the API
version that the manifest names. -/
theorem versions_agree (c : Cluster) (s : String) : VersionsAgree c s where
  joined m hm := hm.apiVersion_eq_iff
  listed := by
    rintro hs l rfl m hm
    exact (ApiResourceList.isAt_of_mem hm).apiVersion_eq_iff.mpr hs
  sent := by
    rintro hs l hl ms hms r rfl t ht hname hkind
    have hlists : l.Lists r.groupKind := by
      refine ⟨t, ht, hname, ?_⟩
      rw [Resource.groupKind, hl, hkind]
    obtain ⟨m, hfound, hmkind, hm⟩ := l.exists_lookUpVersion hms hl.symm hlists
    obtain ⟨rest, hrest⟩ := hm.collectionPath_eq hs r.space?
    refine ⟨m, Cluster.run_mappingForVersion hfound, hmkind, hm.apiVersion_eq_iff.mpr hs, rest,
      hrest, ?_⟩
    rintro a ts ⟨known, known', hled⟩ u hu
    -- a creation is one request at most: one that cannot be built is not sent
    rcases Cluster.led_submit hled with rfl | ⟨request, answer, hrequest, rfl⟩
    · cases hu
    · rw [List.mem_singleton.mp hu, ← hrest]
      exact hrequest

namespace Sample

/-- A document about a version with a slash in it, which lists a part of a kind before the kind. -/
def betaList : ApiResourceList :=
  ⟨"example.io/v1/beta", [⟨"widgets/status", "Widget", true, []⟩, ⟨"widgets", "Widget", true, []⟩]⟩

/-- A manifest of that version. -/
def betaWidget : Resource :=
  ⟨.object [("apiVersion", .string "example.io/v1/beta"), ("kind", .string "Widget"),
    ("metadata", .object [("name", .string "w1")])]⟩

end Sample

/-- A version may have slashes of its own, but not an empty group in front of it. -/
theorem versions_agree_sample :
    (∃ m, SendsToVersion Sample.cluster (Sample.podMapping :: Sample.betaList.mappings)
        Sample.betaWidget m) ∧
      Sample.podMapping.IsAt "/v1" ∧ Sample.podMapping.apiVersion ≠ "/v1" := by
  have hbeta : ¬"example.io/v1/beta".startsWith '/' := by simp [String.startsWith_char_eq_head?]
  have hslash : "/v1".startsWith '/' := by simp [String.startsWith_char_eq_head?]
  have hpod : Sample.podMapping.IsAt "/v1" := by
    show (_, _) = splitApiVersion "/v1"
    decide +kernel
  refine ⟨?_, hpod, fun h => ?_⟩
  · exact (versions_agree Sample.cluster "example.io/v1/beta").sent hbeta Sample.betaList rfl _
      (List.subset_cons_self _ _) Sample.betaWidget (by decide +kernel)
      ⟨"widgets", "Widget", true, []⟩ (by decide) (by decide) (by decide +kernel)
  · exact ((versions_agree Sample.cluster "/v1").joined Sample.podMapping hpod).mp h hslash

end PlaneRestore
