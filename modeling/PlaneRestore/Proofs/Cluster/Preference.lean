import PlaneRestore.Proofs.Cluster.Lookup
/-!
How kinds are looked up in what discovery has found.

* `ApiResourceList.Lists l k`: a document lists a kind as one that is served in its own right.
* `Findings.find?_mappings_eq`: a kind is found in the first document that lists it, by the order in
  which the versions of its group are preferred. `Findings.PrefersInOrder` spells this out.
* `discovery_lookups_agree` puts this together with what holds of every list.
-/

namespace PlaneRestore

open Cluster

/-! ### Documents -/

/-- A mapping at a group version. -/
def KindMapping.IsAt (m : KindMapping) (groupVersion : String) : Prop :=
  (m.group, m.version) = splitApiVersion groupVersion

/-- A document lists a kind as one that is served in its own right. -/
def ApiResourceList.Lists (l : ApiResourceList) (k : GroupKind) : Prop :=
  ∃ r ∈ l.resources, '/' ∉ r.name.toList ∧ k = ⟨(splitApiVersion l.groupVersion).1, r.kind⟩

theorem ApiResourceList.mem_mappings_iff {l : ApiResourceList} {m : KindMapping} :
    m ∈ l.mappings ↔ ∃ r ∈ l.resources, '/' ∉ r.name.toList ∧
      m = ⟨(splitApiVersion l.groupVersion).1, (splitApiVersion l.groupVersion).2, r.kind, r.name,
        r.namespaced, r.categories⟩ := by
  rw [mappings]
  simp only [List.mem_map, List.mem_filter, Bool.not_eq_true', List.contains_eq_mem,
    decide_eq_false_iff_not, and_assoc]
  constructor
  · rintro ⟨r, hr, hname, rfl⟩
    exact ⟨r, hr, hname, rfl⟩
  · rintro ⟨r, hr, hname, rfl⟩
    exact ⟨r, hr, hname, rfl⟩

theorem ApiResourceList.isAt_of_mem {l : ApiResourceList} {m : KindMapping} (h : m ∈ l.mappings) :
    m.IsAt l.groupVersion := by
  obtain ⟨r, -, -, rfl⟩ := mem_mappings_iff.mp h
  rfl

theorem ApiResourceList.lists_iff {l : ApiResourceList} {k : GroupKind} :
    l.Lists k ↔ ∃ m ∈ l.mappings, m.groupKind = k := by
  simp only [mem_mappings_iff]
  constructor
  · rintro ⟨r, hr, hname, rfl⟩
    exact ⟨_, ⟨r, hr, hname, rfl⟩, rfl⟩
  · rintro ⟨m, ⟨r, hr, hname, rfl⟩, rfl⟩
    exact ⟨r, hr, hname, rfl⟩

namespace Findings

/-- The groups have names of their own, and every document that was fetched is about the group
version for which it was asked, and that is one of the group. -/
structure IsOrderly (D : Findings) : Prop where
  names : (D.groups.map (·.name)).Nodup
  documents : ∀ g ∈ D.groups, ∀ groupVersion ∈ g.groupVersions, ∀ l,
    (groupVersion, some l) ∈ D.documents →
      l.groupVersion = groupVersion ∧ (splitApiVersion groupVersion).1 = g.name

/-- The document of a group version was fetched, and lists a kind. -/
def Lists (D : Findings) (groupVersion : String) (k : GroupKind) : Prop :=
  ∃ l, (groupVersion, some l) ∈ D.documents ∧ l.Lists k

/-- A kind as it is listed first in a document. -/
def kindIn (k : GroupKind) (document : Option ApiResourceList) : Option KindMapping :=
  (kindsIn document).find? (·.groupKind = k)

/-- A kind as it is listed first at a group version. -/
def kindAt (D : Findings) (k : GroupKind) (groupVersion : String) : Option KindMapping :=
  D.documents.findSome? fun p => if p.1 = groupVersion then kindIn k p.2 else none

variable {D : Findings} {k : GroupKind} {groupVersion : String} {m : KindMapping}

theorem kindIn_eq_some {document : Option ApiResourceList} (h : kindIn k document = some m) :
    ∃ l, document = some l ∧ m ∈ l.mappings ∧ m.groupKind = k := by
  cases document with
  | none => cases h
  | some l => exact ⟨l, rfl, List.mem_of_find?_eq_some h, by simpa using List.find?_some h⟩

theorem kindIn_eq_none_iff {document : Option ApiResourceList} :
    kindIn k document = none ↔ ∀ l, document = some l → ¬l.Lists k := by
  rw [kindIn, List.find?_eq_none]
  cases document with
  | none => exact ⟨fun _ l h => (nomatch h), fun _ m hm => (nomatch hm)⟩
  | some l => simp [ApiResourceList.lists_iff, kindsIn]

theorem kindAt_eq_some (h : D.kindAt k groupVersion = some m) :
    ∃ l, (groupVersion, some l) ∈ D.documents ∧ m ∈ l.mappings ∧ m.groupKind = k := by
  obtain ⟨us, ⟨gv, document⟩, vs, hsplit, hfound, -⟩ := List.findSome?_eq_some_iff.mp h
  split at hfound
  · next hgv =>
    obtain rfl : gv = groupVersion := hgv
    obtain ⟨l, rfl, hm, hk⟩ := kindIn_eq_some hfound
    exact ⟨l, by rw [hsplit]; simp, hm, hk⟩
  · cases hfound

theorem kindAt_eq_none_iff : D.kindAt k groupVersion = none ↔ ¬D.Lists groupVersion k := by
  rw [kindAt, List.findSome?_eq_none_iff]
  constructor
  · rintro h ⟨l, hl, hlists⟩
    have hnone := h _ hl
    rw [if_pos rfl] at hnone
    exact kindIn_eq_none_iff.mp hnone l rfl hlists
  · rintro h ⟨gv, document⟩ hp
    split
    · next hgv =>
      obtain rfl : gv = groupVersion := hgv
      refine kindIn_eq_none_iff.mpr fun l hl hlists => h ⟨l, ?_, hlists⟩
      exact hl ▸ hp
    · rfl

/-- Documents about other groups do not list a kind. -/
theorem IsOrderly.kindIn_eq_none_of_others (h : D.IsOrderly) {others : List ApiGroup}
    {documents : List (String × Option ApiResourceList)}
    (hversions : documents.map (·.1) = others.flatMap ApiGroup.groupVersions)
    (hothers : ∀ g ∈ others, g ∈ D.groups) (hdocuments : ∀ p ∈ documents, p ∈ D.documents)
    (hk : k.group ∉ others.map (·.name)) : ∀ p ∈ documents, kindIn k p.2 = none := by
  rintro ⟨gv, document⟩ hp
  have hmem : gv ∈ others.flatMap ApiGroup.groupVersions := hversions ▸ List.mem_map_of_mem hp
  obtain ⟨g, hg, hversion⟩ := List.mem_flatMap.mp hmem
  refine kindIn_eq_none_iff.mpr ?_
  rintro l rfl ⟨r, -, -, rfl⟩
  obtain ⟨hl, hname⟩ := h.documents g (hothers g hg) gv hversion l (hdocuments _ hp)
  refine hk (List.mem_map.mpr ⟨g, hg, ?_⟩)
  rw [hl, hname]

/-- A document is found by its group version. -/
theorem findSome?_of_nodup {documents : List (String × Option ApiResourceList)}
    (h : (documents.map (·.1)).Nodup) {p : String × Option ApiResourceList} (hp : p ∈ documents) :
    (documents.findSome? fun q => if q.1 = p.1 then kindIn k q.2 else none) = kindIn k p.2 := by
  have hother : ∀ qs : List (String × Option ApiResourceList), p.1 ∉ qs.map (·.1) →
      (qs.findSome? fun q => if q.1 = p.1 then kindIn k q.2 else none) = none := by
    intro qs hqs
    refine List.findSome?_eq_none_iff.mpr fun q hq => if_neg fun heq => ?_
    exact hqs (heq ▸ List.mem_map_of_mem hq)
  obtain ⟨us, vs, rfl⟩ := List.append_of_mem hp
  rw [List.map_append, List.map_cons, List.nodup_middle, List.nodup_cons, List.mem_append,
    not_or] at h
  rw [List.findSome?_append, hother us h.1.1, Option.none_or, List.findSome?_cons, if_pos rfl,
    hother vs h.1.2]
  cases kindIn k p.2 <;> rfl

/-- The documents of a group stand side by side, and those of the others do not list its kinds. -/
theorem IsOrderly.exists_documents (h : D.IsOrderly)
    (hversions : D.documents.map (·.1) = D.groups.flatMap ApiGroup.groupVersions) {g : ApiGroup}
    (hg : g ∈ D.groups) (hk : k.group = g.name) :
    ∃ us vs ws, D.documents = us ++ (vs ++ ws) ∧ vs.map (·.1) = g.groupVersions ∧
      (∀ p ∈ us, kindIn k p.2 = none) ∧ ∀ p ∈ ws, kindIn k p.2 = none := by
  obtain ⟨gs, gs', hgroups⟩ := List.append_of_mem hg
  rw [hgroups, List.flatMap_append, List.flatMap_cons] at hversions
  obtain ⟨us, vws, hdocuments, hus, hvws⟩ := List.map_eq_append_iff.mp hversions
  obtain ⟨vs, ws, rfl, hvs, hws⟩ := List.map_eq_append_iff.mp hvws
  have hnames := h.names
  rw [hgroups, List.map_append, List.map_cons, List.nodup_middle, List.nodup_cons,
    List.mem_append, not_or] at hnames
  refine ⟨us, vs, ws, hdocuments, hvs, ?_, ?_⟩
  · exact h.kindIn_eq_none_of_others hus (fun g' hg' => by simp [hgroups, hg'])
      (fun p hp => by simp [hdocuments, hp]) (hk ▸ hnames.1.1)
  · exact h.kindIn_eq_none_of_others hws (fun g' hg' => by simp [hgroups, hg'])
      (fun p hp => by simp [hdocuments, hp]) (hk ▸ hnames.1.2)

/-- A kind that the document of the core group does not list is found in the first one that does. -/
theorem find?_mappings_of_not_lists (h : ¬D.core.Lists k) :
    D.mappings.find? (·.groupKind = k) = D.documents.findSome? fun p => kindIn k p.2 := by
  have hcore : D.core.mappings.find? (·.groupKind = k) = none := by
    refine List.find?_eq_none.mpr fun m hm hmk => h ?_
    exact ApiResourceList.lists_iff.mpr ⟨m, hm, by simpa using hmk⟩
  rw [mappings, List.find?_append, hcore, Option.none_or, List.find?_flatMap]
  rfl

/-- A kind is found in the first document of its group that lists it. -/
theorem find?_mappings_eq (h : D.IsOrderly)
    (hversions : D.documents.map (·.1) = D.groups.flatMap ApiGroup.groupVersions) {g : ApiGroup}
    (hg : g ∈ D.groups) (hk : k.group = g.name) (hcore : ¬D.core.Lists k) :
    D.mappings.find? (·.groupKind = k) = g.groupVersions.findSome? (D.kindAt k) := by
  obtain ⟨us, vs, ws, hdocuments, hvs, hus, hws⟩ := h.exists_documents hversions hg hk
  -- only the documents of the group matter
  have hgroup : ∀ F : String × Option ApiResourceList → Option KindMapping,
      (∀ p, kindIn k p.2 = none → F p = none) → D.documents.findSome? F = vs.findSome? F := by
    intro F hF
    have hu : us.findSome? F = none := List.findSome?_eq_none_iff.mpr fun p hp => hF p (hus p hp)
    have hw : ws.findSome? F = none := List.findSome?_eq_none_iff.mpr fun p hp => hF p (hws p hp)
    rw [hdocuments, List.findSome?_append, List.findSome?_append, hu, hw, Option.none_or,
      Option.or_none]
  have hnodup : (vs.map (·.1)).Nodup := hvs ▸ g.nodup_groupVersions
  have hat : ∀ p ∈ vs, D.kindAt k p.1 = kindIn k p.2 := by
    intro p hp
    rw [kindAt, hgroup, findSome?_of_nodup hnodup hp]
    intro q hq
    split
    · exact hq
    · rfl
  calc D.mappings.find? (·.groupKind = k)
      = vs.findSome? fun p => kindIn k p.2 := by
        rw [find?_mappings_of_not_lists hcore, hgroup _ fun p hp => hp]
    _ = (vs.map fun p => kindIn k p.2).findSome? id := by rw [List.findSome?_map]; rfl
    _ = (vs.map fun p => D.kindAt k p.1).findSome? id := by
        rw [List.map_congr_left fun p hp => (hat p hp).symm]
    _ = g.groupVersions.findSome? (D.kindAt k) := by
        rw [← hvs, List.findSome?_map, List.findSome?_map]
        rfl

/-- A kind is looked up at the preferred version of its group if that serves it, or else at the
first of the others that does, in the order of the group. -/
structure PrefersInOrder (D : Findings) (g : ApiGroup) (k : GroupKind) : Prop where
  preferred : ∀ groupVersion, g.preferredGroupVersion = some groupVersion →
    D.Lists groupVersion k → ∃ m, lookUp D.mappings k = .ok m ∧ m.IsAt groupVersion
  others : (∀ groupVersion, g.preferredGroupVersion = some groupVersion →
      ¬D.Lists groupVersion k) → ∀ before v after, g.versions = before ++ v :: after →
    (∀ w ∈ before, ¬D.Lists w.groupVersion k) → D.Lists v.groupVersion k →
      ∃ m, lookUp D.mappings k = .ok m ∧ m.IsAt v.groupVersion
  unserved : (∀ groupVersion, g.preferredGroupVersion = some groupVersion →
      ¬D.Lists groupVersion k) → (∀ v ∈ g.versions, ¬D.Lists v.groupVersion k) →
    ∃ e, lookUp D.mappings k = .error e

section Prefers

variable {g : ApiGroup}

/-- A kind is looked for at the preferred version of its group first, and then at the others. -/
theorem IsOrderly.lookUp_eq (h : D.IsOrderly)
    (hversions : D.documents.map (·.1) = D.groups.flatMap ApiGroup.groupVersions)
    (hg : g ∈ D.groups) (hk : k.group = g.name) (hcore : ¬D.core.Lists k) :
    lookUp D.mappings k = foundOr (.noMapping k.display)
      ((g.preferredGroupVersion.toList ++ g.versions.map (·.groupVersion)).findSome?
        (D.kindAt k)) := by
  rw [PlaneRestore.lookUp_eq, find?_mappings_eq h hversions hg hk hcore,
    ApiGroup.findSome?_groupVersions]

/-- The first version that serves a kind is the one that counts. -/
theorem IsOrderly.lookUp_of_first (h : D.IsOrderly)
    (hversions : D.documents.map (·.1) = D.groups.flatMap ApiGroup.groupVersions)
    (hg : g ∈ D.groups) (hk : k.group = g.name) (hcore : ¬D.core.Lists k) {us vs : List String}
    (hsplit : g.preferredGroupVersion.toList ++ g.versions.map (·.groupVersion)
      = us ++ groupVersion :: vs) (hus : ∀ w ∈ us, ¬D.Lists w k) (hlists : D.Lists groupVersion k) :
    ∃ m, lookUp D.mappings k = .ok m ∧ m.IsAt groupVersion := by
  cases hfound : D.kindAt k groupVersion with
  | none => exact absurd hlists (kindAt_eq_none_iff.mp hfound)
  | some m =>
    obtain ⟨l, hl, hm, -⟩ := kindAt_eq_some hfound
    have hmem : groupVersion ∈ g.groupVersions := by
      rw [ApiGroup.mem_groupVersions_iff, hsplit]
      simp
    refine ⟨m, ?_, ?_⟩
    -- the versions before it do not serve the kind
    · rw [h.lookUp_eq hversions hg hk hcore, foundOr_eq_ok_iff]
      exact List.findSome?_eq_some_iff.mpr ⟨us, groupVersion, vs, hsplit, hfound, fun w hw =>
        kindAt_eq_none_iff.mpr (hus w hw)⟩
    · rw [← (h.documents g hg groupVersion hmem l hl).1]
      exact ApiResourceList.isAt_of_mem hm

theorem IsOrderly.prefersInOrder (h : D.IsOrderly)
    (hversions : D.documents.map (·.1) = D.groups.flatMap ApiGroup.groupVersions)
    (hg : g ∈ D.groups) (hk : k.group = g.name) (hcore : ¬D.core.Lists k) :
    D.PrefersInOrder g k := by
  have hpreferred : (∀ gv, g.preferredGroupVersion = some gv → ¬D.Lists gv k) →
      ∀ w ∈ g.preferredGroupVersion.toList, ¬D.Lists w k :=
    fun hno w hw => hno w (Option.mem_toList.mp hw)
  -- the preferred version, one of the others, or none
  refine ⟨fun gv hgv hlists => ?_, fun hno before v after hsplit hbefore hlists => ?_,
    fun hno hnone => ?_⟩
  · have hfirst : g.preferredGroupVersion.toList ++ g.versions.map (·.groupVersion)
        = [] ++ gv :: g.versions.map (·.groupVersion) := by rw [hgv]; rfl
    exact h.lookUp_of_first hversions hg hk hcore hfirst (fun w hw => nomatch hw) hlists
  · have hfirst : g.preferredGroupVersion.toList ++ g.versions.map (·.groupVersion)
        = (g.preferredGroupVersion.toList ++ before.map (·.groupVersion))
          ++ v.groupVersion :: after.map (·.groupVersion) := by simp [hsplit]
    refine h.lookUp_of_first hversions hg hk hcore hfirst (fun w hw => ?_) hlists
    rcases List.mem_append.mp hw with hw | hw
    · exact hpreferred hno w hw
    · obtain ⟨v', hv', rfl⟩ := List.mem_map.mp hw
      exact hbefore v' hv'
  · rw [h.lookUp_eq hversions hg hk hcore, foundOr_eq_error_iff, List.findSome?_eq_none_iff]
    intro w hw
    refine kindAt_eq_none_iff.mpr ?_
    rcases List.mem_append.mp hw with hw | hw
    · exact hpreferred hno w hw
    · obtain ⟨v, hv, rfl⟩ := List.mem_map.mp hw
      exact hnone v hv

end Prefers

/-- Nothing that is listed is a part of something else. -/
theorem topLevel_of_mem (hm : m ∈ D.mappings) : '/' ∉ m.resource.toList := by
  have hlist : ∀ l : ApiResourceList, m ∈ l.mappings → '/' ∉ m.resource.toList := by
    intro l hm
    obtain ⟨r, -, hname, rfl⟩ := ApiResourceList.mem_mappings_iff.mp hm
    exact hname
  rcases List.mem_append.mp hm with hm | hm
  · exact hlist D.core hm
  · obtain ⟨⟨gv, document⟩, -, hm⟩ := List.mem_flatMap.mp hm
    cases document with
    | none => cases hm
    | some l => exact hlist l hm

end Findings

/-- What there is to say about lookups in what was discovered. Nothing keeps the document of the
core group from being about another group, and then the kinds in it come before the preferred
version of that group. -/
structure DiscoveryAgrees (c : Cluster) (D : Findings) : Prop where
  agree : LookupsAgree D.mappings
  /-- The kinds of the core group come before all others. -/
  core : ∀ k m, lookUp D.core.mappings k = .ok m → lookUp D.mappings k = .ok m
  /-- If the groups have names of their own, and each document is about the group version for which
  it was asked, the preferred version of a group comes before the others, for the kinds that the
  document of the core group does not list. -/
  prefers : D.IsOrderly → ∀ g ∈ D.groups, ∀ k : GroupKind, k.group = g.name → ¬D.core.Lists k →
    D.PrefersInOrder g k
  /-- Without a document its kinds are missing, and no others. -/
  skips : ∀ before groupVersion l after,
    D.documents = before ++ (groupVersion, some l) :: after → ∃ us vs,
      D.mappings = us ++ l.mappings ++ vs ∧
        ({ D with documents := before ++ (groupVersion, none) :: after } : Findings).mappings
          = us ++ vs ∧
        ∀ m ∈ l.mappings, m.IsAt l.groupVersion
  /-- Nothing that is a part of something else is ever answered. -/
  topLevel : (∀ k m, lookUp D.mappings k = .ok m → '/' ∉ m.resource.toList) ∧
    (∀ k version m, lookUpVersion D.mappings k version = .ok m → '/' ∉ m.resource.toList) ∧
      ∀ category, ∀ m ∈ members D.mappings category, '/' ∉ m.resource.toList
  /-- The calls of a cluster of which this is known look it up, and ask nothing. -/
  calls : ∀ call look, lookup? call = some look → ∀ ts a known,
    Dialogue.Led ((c.answer call).run (some D.mappings)) ts (some (a, known)) →
      ts = [] ∧ a = look D.mappings ∧ known = some D.mappings

/-- **The lookups of kinds agree with each other.** Whatever the server answers, discovery that
succeeds makes a list of the kinds in the documents that it has fetched, and in this list: what is
found for a kind is found at its own version, too; a category has every kind of which some mapping
has it once, as it is first listed so; the preferred version of a group comes before the others,
unless the document of the core group already lists the kind; a document that cannot be fetched is
the only thing that is missing. -/
theorem discovery_lookups_agree (c : Cluster) {known known' : Discovered} {ts : Requests}
    {ms : List KindMapping} (h : c.discover.Led known ts (some (.ok ms, known'))) :
    ∃ D, c.Discovers ts (some D) ∧ ms = D.mappings ∧ DiscoveryAgrees c D := by
  obtain ⟨-, found, hfound, hms, -⟩ := led_discover h
  cases found with
  | none => cases hms
  | some D =>
    obtain rfl : ms = D.mappings := Option.some.inj hms
    refine ⟨D, hfound, rfl, lookupsAgree _, fun k m hm => ?_, fun hD g hg k hk hcore => ?_,
      fun before groupVersion l after hdocuments => ?_, ⟨fun k m hm => ?_, fun k version m hm => ?_,
        fun category m hm => ?_⟩, fun call look hlook ts' a known' hled => ?_⟩
    · rw [lookUp_eq, foundOr_eq_ok_iff] at hm ⊢
      rw [Findings.mappings, List.find?_append, hm]
      rfl
    -- documents were asked for at the versions of the groups, in their order
    · have hversions : D.documents.map (·.1) = D.groups.flatMap ApiGroup.groupVersions := by
        cases hfound with
        | found _ _ versions => exact versions.map_fst
      exact hD.prefersInOrder hversions hg hk hcore
    -- the kinds of a document stand side by side
    · refine ⟨D.core.mappings ++ before.flatMap fun p => Findings.kindsIn p.2,
        after.flatMap fun p => Findings.kindsIn p.2, ?_, ?_, fun m hm => ?_⟩
      · simp [Findings.mappings, hdocuments, Findings.kindsIn]
      · simp [Findings.mappings, Findings.kindsIn]
      · exact ApiResourceList.isAt_of_mem hm
    · rw [lookUp_eq, foundOr_eq_ok_iff] at hm
      exact D.topLevel_of_mem (List.mem_of_find?_eq_some hm)
    · rw [lookUpVersion_eq, foundOr_eq_ok_iff] at hm
      exact D.topLevel_of_mem (List.mem_of_find?_eq_some hm)
    · exact D.topLevel_of_mem (((lookupsAgree D.mappings).order category).mem hm)
    · exact (led_lookup hlook hled).of_known

namespace Sample

/-- A cluster without a token. -/
def cluster : Cluster := ⟨"http://127.0.0.1:8001", none, "example-system", "engine", 30⟩

/-- An answer of success. -/
def answering (body : String) : Option HttpResponse := some ⟨200, some body.toUTF8.toList⟩

/-- A server with a group that serves a kind, and lists a part of its objects, too. -/
def serve (request : HttpRequest) : Option HttpResponse :=
  match request.url.render with
  | "http://127.0.0.1:8001/api/v1" => answering "\x7b\"groupVersion\":\"v1\"\x7d"
  | "http://127.0.0.1:8001/apis" => answering ("\x7b\"groups\":[\x7b\"name\":\"g\",\"versions\":"
    ++ "[\x7b\"groupVersion\":\"g/1\",\"version\":\"\"\x7d]\x7d]\x7d")
  | "http://127.0.0.1:8001/apis/g/1" => answering
    ("\x7b\"groupVersion\":\"g/1\",\"resources\":[\x7b\"name\":\"a\",\"kind\":\"A\"\x7d,"
      ++ "\x7b\"name\":\"a/b\",\"kind\":\"A\"\x7d]\x7d")
  | _ => none

end Sample

open Sample in
theorem discovery_lookups_agree_sample :
    ∃ ts D, cluster.discover.Led none ts (some (.ok [⟨"g", "1", "A", "a", false, []⟩], none)) ∧
      D.mappings = [⟨"g", "1", "A", "a", false, []⟩] ∧ DiscoveryAgrees cluster D := by
  have hfindings : cluster.findings? serve = some ⟨⟨"v1", []⟩, [⟨"g", [⟨"g/1", ""⟩], none⟩],
      [("g/1", some ⟨"g/1", [⟨"a", "A", false, []⟩, ⟨"a/b", "A", false, []⟩]⟩)]⟩ := by
    decide +kernel
  obtain ⟨ts, hled, -⟩ := Cluster.exists_led_discover none hfindings
  obtain ⟨D, -, hD, hagrees⟩ := discovery_lookups_agree cluster hled
  exact ⟨ts, D, hled, hD.symm, hagrees⟩

namespace Sample

/-- A kind of one group. -/
def widget : GroupKind := ⟨"example.io", "Widget"⟩

/-- The group with its version. -/
def widgetGroup : ApiGroup :=
  ⟨"example.io", [⟨"example.io/v1", "v1"⟩], some ⟨"example.io/v1", "v1"⟩⟩

/-- A document that lists the kind at a group version. -/
def widgetsAt (groupVersion : String) : ApiResourceList :=
  ⟨groupVersion, [⟨"widgets", "Widget", false, []⟩]⟩

/-- How the document is written. -/
def widgetsText (groupVersion : String) : String :=
  "\x7b\"groupVersion\":\"" ++ groupVersion
    ++ "\",\"resources\":[\x7b\"name\":\"widgets\",\"kind\":\"Widget\"\x7d]\x7d"

/-- A server that lists the kind at its group version, and in the document of the core group at
another one. -/
def serveTwice (request : HttpRequest) : Option HttpResponse :=
  match request.url.render with
  | "http://127.0.0.1:8001/api/v1" => answering (widgetsText "example.io/v0")
  | "http://127.0.0.1:8001/apis" => answering ("\x7b\"groups\":[\x7b\"name\":\"example.io\","
    ++ "\"versions\":[\x7b\"groupVersion\":\"example.io/v1\",\"version\":\"v1\"\x7d],"
    ++ "\"preferredVersion\":\x7b\"groupVersion\":\"example.io/v1\","
    ++ "\"version\":\"v1\"\x7d\x7d]\x7d")
  | "http://127.0.0.1:8001/apis/example.io/v1" => answering (widgetsText "example.io/v1")
  | _ => none

/-- What there is to be found at this server. -/
def widgetFindings : Findings :=
  ⟨widgetsAt "example.io/v0", [widgetGroup],
    [("example.io/v1", some (widgetsAt "example.io/v1"))]⟩

theorem isOrderly_widgetFindings : widgetFindings.IsOrderly where
  names := by decide
  documents g hg groupVersion _ l hl := by
    obtain rfl := List.mem_singleton.mp hg
    obtain ⟨rfl, hdocument⟩ := Prod.mk.inj (List.mem_singleton.mp hl)
    obtain rfl := Option.some.inj hdocument
    exact ⟨rfl, by decide⟩

end Sample

open Sample in
/-- A kind is not found at the preferred version of its group, although that lists it, if the
document of the core group lists it at another version of the group. -/
theorem core_document_shadows_preferred : ∃ ts,
    cluster.discover.Led none ts (some (.ok widgetFindings.mappings, none)) ∧
      cluster.Discovers ts (some widgetFindings) ∧ widgetFindings.IsOrderly ∧
      widgetGroup ∈ widgetFindings.groups ∧ widget.group = widgetGroup.name ∧
      widgetGroup.preferredGroupVersion = some "example.io/v1" ∧
      widgetFindings.Lists "example.io/v1" widget ∧
      lookUp widgetFindings.mappings widget
        = .ok ⟨"example.io", "v0", "Widget", "widgets", false, []⟩ ∧
      ¬widgetFindings.PrefersInOrder widgetGroup widget := by
  have hfindings : cluster.findings? serveTwice = some widgetFindings := by decide +kernel
  obtain ⟨ts, hled, hfound⟩ := Cluster.exists_led_discover none hfindings
  have hlists : widgetFindings.Lists "example.io/v1" widget :=
    ⟨widgetsAt "example.io/v1", List.mem_singleton_self _, ⟨"widgets", "Widget", false, []⟩,
      List.mem_singleton_self _, by decide, by decide⟩
  have hlookUp : lookUp widgetFindings.mappings widget
      = .ok ⟨"example.io", "v0", "Widget", "widgets", false, []⟩ := by decide
  refine ⟨ts, hled, hfound, isOrderly_widgetFindings, List.mem_singleton_self _, rfl, rfl, hlists,
    hlookUp, fun hprefers => ?_⟩
  -- what is looked up is at another version
  obtain ⟨m, hm, hat⟩ := hprefers.preferred "example.io/v1" rfl hlists
  rw [hlookUp] at hm
  obtain rfl := Except.ok.inj hm
  rw [KindMapping.IsAt] at hat
  exact absurd hat (by decide)

end PlaneRestore
