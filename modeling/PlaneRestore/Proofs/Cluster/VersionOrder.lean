import PlaneRestore.Proofs.Cluster.Lookup
/-!
In which order the versions of a group are discovered.

* `ApiGroup.VersionOrder g vs`: `vs` are the versions of `g`, each of them once, the preferred one
  first and the others as they are first listed. There is one such list at most, by
  `VersionOrder.eq`.
* `ApiGroup.versions_have_one_order`: it is the list of versions that is discovered.
-/

namespace PlaneRestore

namespace ApiGroup

variable {g : ApiGroup} {vs ws : List String}

/-- The group versions as they are listed, with their repetitions. -/
def listed (g : ApiGroup) : List String := g.versions.map (·.groupVersion)

/-- A version is listed before another one is listed for the first time. -/
def ListedBefore (g : ApiGroup) (v w : String) : Prop := g.listed.idxOf v < g.listed.idxOf w

/-- The versions of a group in their order. -/
structure VersionOrder (g : ApiGroup) (vs : List String) : Prop where
  /-- No version is repeated. -/
  once : vs.Nodup
  /-- These are the version that is named as the preferred one and those that are listed. -/
  all : ∀ v, v ∈ vs ↔ g.preferredVersion.map (·.groupVersion) = some v ∨ v ∈ g.listed
  /-- The preferred version is the first one. -/
  first : vs.head? = g.preferredGroupVersion
  /-- The others come in the order in which they are first listed. -/
  others : vs.tail.Pairwise g.ListedBefore
  /-- The preferred version is the one that is named as such, -/
  named : ∀ v, g.preferredVersion = some v → vs.head? = some v.groupVersion
  /-- and if none is, all versions come in the order in which they are first listed. -/
  unnamed : g.preferredVersion = none → vs.Pairwise g.ListedBefore
  /-- Without a preferred or a listed version there is none, and only then. -/
  empty : vs = [] ↔ g.preferredVersion = none ∧ g.versions = []

theorem ListedBefore.asymm {v w : String} (h : g.ListedBefore v w) : ¬g.ListedBefore w v :=
  Nat.lt_asymm h

/-- There is one such order at most. -/
theorem VersionOrder.eq (h : g.VersionOrder vs) (h' : g.VersionOrder ws) : vs = ws := by
  have hmem : ∀ v, v ∈ vs ↔ v ∈ ws := fun v => (h.all v).trans (h'.all v).symm
  have hperm : vs.Perm ws := (List.perm_ext_iff_of_nodup h.once h'.once).mpr hmem
  have hhead : vs.head? = ws.head? := h.first.trans h'.first.symm
  cases vs with
  | nil => exact (List.nil_perm.mp hperm).symm
  | cons v vs =>
    cases ws with
    | nil => simp at hhead
    | cons w ws =>
      obtain rfl : v = w := by simpa using hhead
      -- the others are the same ones, in the same strict order
      have hothers : vs = ws := hperm.cons_inv.eq_of_pairwise
        (fun a b _ _ hab hba => absurd hba hab.asymm) h.others h'.others
      rw [hothers]

/-! ### The versions that are kept -/

theorem preferredGroupVersion_eq_none_iff :
    g.preferredGroupVersion = none ↔ g.preferredVersion = none ∧ g.versions = [] := by
  simp [preferredGroupVersion]

/-- A version that is preferred is named as such, or it is listed. -/
theorem preferred_or_listed_iff {v : String} :
    v ∈ g.preferredGroupVersion.toList ++ g.listed ↔
      g.preferredVersion.map (·.groupVersion) = some v ∨ v ∈ g.listed := by
  rw [List.mem_append, Option.mem_toList, preferredGroupVersion, listed]
  cases g.preferredVersion with
  | some preferred => rfl
  | none =>
    cases g.versions with
    | nil => simp
    | cons first rest => simp [eq_comm]

/-- What is added to some versions is in the order of the list. -/
theorem exists_foldl_listed (g : ApiGroup) (kept : List String) :
    ∃ added, g.listed.foldl (keepFirst id) kept = kept ++ added ∧
      added.Pairwise g.ListedBefore := by
  obtain ⟨added, heq, -, -, horder⟩ := exists_foldl_keepFirst id g.listed kept
  rw [List.map_id] at horder
  exact ⟨added, heq, horder⟩

/-- The preferred version comes first, and what is added is in the order of the list. -/
theorem exists_groupVersions_eq (g : ApiGroup) :
    ∃ added, g.groupVersions = g.preferredGroupVersion.toList ++ added ∧
      added.Pairwise g.ListedBefore := by
  rw [groupVersions_eq]
  exact g.exists_foldl_listed g.preferredGroupVersion.toList

theorem mem_groupVersions_iff_listed {v : String} : v ∈ g.groupVersions ↔
    g.preferredVersion.map (·.groupVersion) = some v ∨ v ∈ g.listed := by
  rw [mem_groupVersions_iff]
  exact preferred_or_listed_iff

theorem groupVersions_eq_nil_iff :
    g.groupVersions = [] ↔ g.preferredVersion = none ∧ g.versions = [] := by
  constructor
  · intro h
    obtain ⟨added, heq, -⟩ := g.exists_groupVersions_eq
    rw [h, eq_comm, List.append_eq_nil_iff, Option.toList_eq_nil_iff] at heq
    exact preferredGroupVersion_eq_none_iff.mp heq.1
  · rintro ⟨hpreferred, hversions⟩
    refine List.eq_nil_iff_forall_not_mem.mpr fun v hv => ?_
    rw [mem_groupVersions_iff_listed] at hv
    simp [hpreferred, listed, hversions] at hv

/-- Without a version that is named as the preferred one, the first of each version is kept. -/
theorem groupVersions_eq_of_unnamed (h : g.preferredVersion = none) :
    g.groupVersions = g.listed.foldl (keepFirst id) [] := by
  rw [groupVersions_eq, preferredGroupVersion, h, listed]
  cases g.versions with
  | nil => rfl
  | cons first rest => simp [keepFirst]

theorem pairwise_groupVersions_of_unnamed (h : g.preferredVersion = none) :
    g.groupVersions.Pairwise g.ListedBefore := by
  obtain ⟨added, heq, horder⟩ := g.exists_foldl_listed []
  rw [groupVersions_eq_of_unnamed h, heq]
  exact horder

theorem head?_groupVersions (g : ApiGroup) : g.groupVersions.head? = g.preferredGroupVersion := by
  obtain ⟨added, heq, -⟩ := g.exists_groupVersions_eq
  cases hpreferred : g.preferredGroupVersion with
  | none =>
    rw [groupVersions_eq_nil_iff.mpr (preferredGroupVersion_eq_none_iff.mp hpreferred)]
    rfl
  | some v =>
    rw [heq, hpreferred]
    rfl

theorem pairwise_tail_groupVersions (g : ApiGroup) :
    g.groupVersions.tail.Pairwise g.ListedBefore := by
  obtain ⟨added, heq, horder⟩ := g.exists_groupVersions_eq
  rw [heq]
  cases g.preferredGroupVersion with
  | none => exact horder.sublist (List.tail_sublist added)
  | some v => exact horder

theorem versionOrder_groupVersions (g : ApiGroup) : g.VersionOrder g.groupVersions where
  once := g.nodup_groupVersions
  all v := mem_groupVersions_iff_listed
  first := g.head?_groupVersions
  others := g.pairwise_tail_groupVersions
  named v h := by
    rw [head?_groupVersions, preferredGroupVersion, h]
    rfl
  unnamed h := pairwise_groupVersions_of_unnamed h
  empty := groupVersions_eq_nil_iff

/-- **Each version of a group is discovered once, the preferred one first.** For every group,
whether its preferred version is listed or not and whatever is listed more than once, the versions
that are discovered have no repetition, are exactly the preferred one and the listed ones, begin
with the preferred one, and have the others in the order in which they are first listed; there is
none only if the group has none. No other list is such. -/
theorem versions_have_one_order (g : ApiGroup) (vs : List String) :
    g.VersionOrder vs ↔ vs = g.groupVersions := by
  constructor
  · intro h
    exact h.eq g.versionOrder_groupVersions
  · rintro rfl
    exact g.versionOrder_groupVersions

/-- A preferred version need not be listed, and of equal ones the first counts. -/
example : groupVersions ⟨"example.io", [⟨"example.io/v2", "v2"⟩, ⟨"example.io/v1", "v1"⟩,
    ⟨"example.io/v2", "v2"⟩], some ⟨"example.io/v3", "v3"⟩⟩
      = ["example.io/v3", "example.io/v2", "example.io/v1"] := by
  decide

end ApiGroup

end PlaneRestore
