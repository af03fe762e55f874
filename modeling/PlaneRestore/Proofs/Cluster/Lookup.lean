import Mathlib.Data.List.Nodup
import PlaneRestore.Proofs.Cluster.Discover
/-!
How kinds are looked up in a list.

* `keepFirst` keeps the first of the elements with the same key. The versions of a group and the
  kinds of a category are kept so. `exists_foldl_keepFirst`: what is added to those that are kept
  already is new, and comes in the order of the list.
* `LookupsAgree ms`: the three ways to look kinds up in `ms` tell the same, by `lookupsAgree`.
-/

namespace PlaneRestore

open Cluster

/-! ### The first of each key -/

section KeepFirst

variable {α κ : Type} [DecidableEq κ]

/-- Adds an element at the end, unless there is one with its key. -/
def keepFirst (key : α → κ) (kept : List α) (a : α) : List α :=
  if kept.any fun b => key b = key a then kept else kept ++ [a]

variable {key : α → κ}

theorem keepFirst_of_mem {kept : List α} {a : α} (h : key a ∈ kept.map key) :
    keepFirst key kept a = kept := by
  rw [keepFirst, if_pos]
  simpa using h

theorem keepFirst_of_notMem {kept : List α} {a : α} (h : key a ∉ kept.map key) :
    keepFirst key kept a = kept ++ [a] := by
  rw [keepFirst, if_neg]
  simpa using h

/-- Where the keys decide whether something is found, it is found as if all had been kept. -/
theorem findSome?_foldl_keepFirst {β : Type} {f : α → Option β}
    (hf : ∀ a b, key a = key b → f a = none → f b = none) (l kept : List α) :
    (l.foldl (keepFirst key) kept).findSome? f = (kept ++ l).findSome? f := by
  induction l generalizing kept with
  | nil => rw [List.foldl_nil, List.append_nil]
  | cons a l ih =>
    rw [List.foldl_cons, ih]
    by_cases ha : key a ∈ kept.map key
    · obtain ⟨b, hb, hkey⟩ := List.mem_map.mp ha
      rw [keepFirst_of_mem ha, List.findSome?_append, List.findSome?_append]
      cases hfound : kept.findSome? f with
      | some b' => rfl
      | none =>
        -- nothing is found in the element that is left out
        have hnone := hf b a hkey (List.findSome?_eq_none_iff.mp hfound b hb)
        rw [List.findSome?_cons, hnone]
    · rw [keepFirst_of_notMem ha, List.append_assoc, List.singleton_append]

/-- A key that is listed in front does not change the order of the others. -/
theorem pairwise_idxOf_cons {k : κ} {ks : List κ} {l : List α} (hne : ∀ a ∈ l, key a ≠ k)
    (h : l.Pairwise fun a b => ks.idxOf (key a) < ks.idxOf (key b)) :
    l.Pairwise fun a b => (k :: ks).idxOf (key a) < (k :: ks).idxOf (key b) := by
  refine h.imp_of_mem fun {a b} ha hb hlt => ?_
  rw [List.idxOf_cons_ne ks (hne a ha).symm, List.idxOf_cons_ne ks (hne b hb).symm]
  omega

/-- Elements of the list whose keys are new are added, in the order in which the keys are first
listed. -/
theorem exists_foldl_keepFirst (key : α → κ) (l kept : List α) :
    ∃ added, l.foldl (keepFirst key) kept = kept ++ added ∧ added.Sublist l ∧
      (∀ a ∈ added, key a ∉ kept.map key) ∧
        added.Pairwise fun a b => (l.map key).idxOf (key a) < (l.map key).idxOf (key b) := by
  induction l generalizing kept with
  | nil => exact ⟨[], by simp⟩
  | cons a l ih =>
    rw [List.foldl_cons, List.map_cons]
    -- an element is added if its key is new, and then stands in front of all that are added later
    by_cases ha : key a ∈ kept.map key
    · rw [keepFirst_of_mem ha]
      obtain ⟨added, heq, hsub, hnew, horder⟩ := ih kept
      refine ⟨added, heq, hsub.cons a, hnew, pairwise_idxOf_cons ?_ horder⟩
      intro b hb hkey
      exact hnew b hb (hkey ▸ ha)
    · rw [keepFirst_of_notMem ha]
      obtain ⟨added, heq, hsub, hnew, horder⟩ := ih (kept ++ [a])
      have hnew : ∀ b ∈ added, key b ∉ kept.map key ∧ key b ≠ key a := by simpa using hnew
      have hne : ∀ b ∈ added, key b ≠ key a := fun b hb => (hnew b hb).2
      refine ⟨a :: added, by simp [heq], hsub.cons_cons a, ?_,
        List.pairwise_cons.mpr ⟨?_, pairwise_idxOf_cons hne horder⟩⟩
      · intro b hb
        rcases List.mem_cons.mp hb with rfl | hb
        · exact ha
        · exact (hnew b hb).1
      · intro b hb
        rw [List.idxOf_cons_self, List.idxOf_cons_ne _ (hne b hb).symm]
        omega

theorem nodup_foldl_keepFirst {kept : List α} (h : (kept.map key).Nodup) (l : List α) :
    ((l.foldl (keepFirst key) kept).map key).Nodup := by
  obtain ⟨added, heq, -, hnew, horder⟩ := exists_foldl_keepFirst key l kept
  have hadded : (added.map key).Nodup := by
    refine List.pairwise_map.mpr (horder.imp fun {a b} hlt hab => ?_)
    rw [hab] at hlt
    exact Nat.lt_irrefl _ hlt
  rw [heq, List.map_append, List.nodup_append]
  refine ⟨h, hadded, ?_⟩
  rintro x hx _ hy rfl
  obtain ⟨a, ha, rfl⟩ := List.mem_map.mp hy
  exact hnew a ha hx

theorem sublist_foldl_keepFirst (l kept : List α) :
    (l.foldl (keepFirst key) kept).Sublist (kept ++ l) := by
  obtain ⟨added, heq, hsub, -⟩ := exists_foldl_keepFirst key l kept
  rw [heq]
  exact hsub.append_left kept

/-- Without two of the same key, an element is found by its key. -/
theorem mem_iff_find?_of_nodup {l : List α} (h : (l.map key).Nodup) {a : α} :
    a ∈ l ↔ l.find? (fun b => key b = key a) = some a := by
  constructor
  · intro ha
    cases hfound : l.find? (fun b => key b = key a) with
    | none =>
      have hno := List.find?_eq_none.mp hfound a ha
      simp at hno
    | some b =>
      have hkey : key b = key a := by simpa using List.find?_some hfound
      rw [List.inj_on_of_nodup_map h (List.mem_of_find?_eq_some hfound) ha hkey]
  · exact List.mem_of_find?_eq_some

end KeepFirst

/-! ### The versions of a group -/

namespace ApiGroup

theorem groupVersions_eq (g : ApiGroup) : g.groupVersions =
    (g.versions.map (·.groupVersion)).foldl (keepFirst id) g.preferredGroupVersion.toList := by
  rw [groupVersions, List.foldl_map]
  congr 1
  funext vs v
  simp [keepFirst]

/-- The preferred version comes first, and then the others in the order of the group. -/
theorem findSome?_groupVersions {β : Type} (g : ApiGroup) (f : String → Option β) :
    g.groupVersions.findSome? f =
      (g.preferredGroupVersion.toList ++ g.versions.map (·.groupVersion)).findSome? f := by
  rw [groupVersions_eq]
  refine findSome?_foldl_keepFirst (fun a b hab ha => ?_) _ _
  obtain rfl : a = b := hab
  exact ha

theorem mem_groupVersions_iff {g : ApiGroup} {groupVersion : String} :
    groupVersion ∈ g.groupVersions ↔
      groupVersion ∈ g.preferredGroupVersion.toList ++ g.versions.map (·.groupVersion) := by
  have hmem : ∀ l : List String, groupVersion ∉ l ↔
      (l.findSome? fun v => if v = groupVersion then some v else none) = none := by
    intro l
    simp only [List.findSome?_eq_none_iff, ite_eq_right_iff, reduceCtorEq, imp_false]
    exact ⟨fun h v hv heq => h (heq ▸ hv), fun h hv => h _ hv rfl⟩
  rw [← not_iff_not, hmem, hmem, findSome?_groupVersions]

theorem nodup_groupVersions (g : ApiGroup) : g.groupVersions.Nodup := by
  have hfirst : (g.preferredGroupVersion.toList.map id).Nodup := by
    cases g.preferredGroupVersion <;> simp
  have hall := nodup_foldl_keepFirst hfirst (g.versions.map (·.groupVersion))
  rwa [List.map_id, ← groupVersions_eq] at hall

end ApiGroup

/-! ### Lookups in a list -/

/-- How the three ways to look kinds up in a list go together. -/
structure LookupsAgree (ms : List KindMapping) : Prop where
  /-- What is found for a kind is found for the kind at its own version, too. -/
  version : ∀ k m, lookUp ms k = .ok m → lookUpVersion ms k m.version = .ok m
  /-- A kind is not found if, and only if, it is not found at any version. -/
  fails : ∀ k, (∃ e, lookUp ms k = .error e) ↔ ∀ version, ∃ e, lookUpVersion ms k version = .error e
  /-- A category has the kinds of which some mapping has it. -/
  category : ∀ k category, (∃ m ∈ members ms category, m.groupKind = k) ↔
    ∃ m ∈ ms, m.groupKind = k ∧ m.hasCategory category = true
  /-- It has no kind twice. -/
  distinct : ∀ category, ((members ms category).map KindMapping.groupKind).Nodup
  /-- Each kind is there as it is first listed in the category. -/
  first : ∀ category, ∀ m ∈ members ms category,
    ms.find? (fun m' => m'.hasCategory category && m'.groupKind = m.groupKind) = some m
  /-- The kinds are in the order in which they are listed. -/
  order : ∀ category, (members ms category).Sublist ms

/-- The answer to a look-up: what was found, or that there is nothing. -/
def foundOr (nothing : ClientError) : Option KindMapping → Except ClientError KindMapping
  | some m => .ok m
  | none => .error nothing

theorem foundOr_eq_ok_iff {nothing : ClientError} {found : Option KindMapping} {m : KindMapping} :
    foundOr nothing found = .ok m ↔ found = some m := by
  cases found <;> simp [foundOr]

theorem foundOr_eq_error_iff {nothing : ClientError} {found : Option KindMapping} :
    (∃ e, foundOr nothing found = .error e) ↔ found = none := by
  cases found <;> simp [foundOr]

theorem lookUp_eq (ms : List KindMapping) (k : GroupKind) :
    lookUp ms k = foundOr (.noMapping k.display) (ms.find? (·.groupKind = k)) := by
  rw [lookUp]
  cases ms.find? (·.groupKind = k) <;> rfl

theorem lookUpVersion_eq (ms : List KindMapping) (k : GroupKind) (version : String) :
    lookUpVersion ms k version = foundOr (.noMapping (k.display ++ " in version " ++ version))
      (ms.find? fun m => m.groupKind = k && m.version = version) := by
  rw [lookUpVersion]
  cases ms.find? fun m => m.groupKind = k && m.version = version <;> rfl

theorem members_eq (ms : List KindMapping) (category : String) : members ms category =
    (ms.filter (·.hasCategory category)).foldl (keepFirst KindMapping.groupKind) [] := rfl

theorem nodup_members (ms : List KindMapping) (category : String) :
    ((members ms category).map KindMapping.groupKind).Nodup := by
  have hnil : (([] : List KindMapping).map KindMapping.groupKind).Nodup := List.nodup_nil
  exact nodup_foldl_keepFirst hnil _

theorem find?_members (ms : List KindMapping) (category : String) (k : GroupKind) :
    (members ms category).find? (·.groupKind = k) =
      ms.find? fun m => m.hasCategory category && m.groupKind = k := by
  have hkeys : ∀ a b : KindMapping, a.groupKind = b.groupKind →
      Option.guard (fun m : KindMapping => decide (m.groupKind = k)) a = none →
        Option.guard (fun m : KindMapping => decide (m.groupKind = k)) b = none := by
    intro a b hab ha
    simpa [hab] using ha
  rw [members_eq, List.find?_eq_findSome?_guard, findSome?_foldl_keepFirst hkeys, List.nil_append,
    ← List.find?_eq_findSome?_guard, List.find?_filter]
  congr 1
  funext m
  simp

theorem mem_members_iff {ms : List KindMapping} {category : String} {m : KindMapping} :
    m ∈ members ms category ↔
      ms.find? (fun m' => m'.hasCategory category && m'.groupKind = m.groupKind) = some m := by
  rw [mem_iff_find?_of_nodup (nodup_members ms category), find?_members]

theorem lookupsAgree (ms : List KindMapping) : LookupsAgree ms where
  version k m h := by
    rw [lookUp_eq, foundOr_eq_ok_iff] at h
    rw [lookUpVersion_eq, foundOr_eq_ok_iff]
    obtain ⟨hk, us, vs, rfl, hus⟩ := List.find?_eq_some_iff_append.mp h
    refine List.find?_eq_some_iff_append.mpr ⟨by simpa using hk, us, vs, rfl, fun m' hm' => ?_⟩
    -- what comes before is of other kinds
    have hother := hus m' hm'
    simp only [Bool.not_eq_true', decide_eq_false_iff_not] at hother
    simp [hother]
  fails k := by
    simp only [lookUp_eq, lookUpVersion_eq, foundOr_eq_error_iff, List.find?_eq_none]
    constructor
    · intro h version m hm
      have hk : m.groupKind ≠ k := by simpa using h m hm
      simp [hk]
    · intro h m hm hk
      exact h m.version m hm (by simpa using hk)
  category k category := by
    constructor
    · rintro ⟨m, hm, rfl⟩
      have hfound := mem_members_iff.mp hm
      have hcategory := List.find?_some hfound
      simp only [Bool.and_eq_true] at hcategory
      exact ⟨m, List.mem_of_find?_eq_some hfound, rfl, hcategory.1⟩
    · rintro ⟨m, hm, rfl, hcategory⟩
      cases hfound : ms.find? fun m' => m'.hasCategory category && m'.groupKind = m.groupKind with
      | none =>
        have hno := List.find?_eq_none.mp hfound m hm
        simp [hcategory] at hno
      | some first =>
        have hfirst := List.find?_some hfound
        simp only [Bool.and_eq_true, decide_eq_true_eq] at hfirst
        refine ⟨first, mem_members_iff.mpr ?_, hfirst.2⟩
        rw [hfirst.2]
        exact hfound
  distinct := nodup_members ms
  first category m hm := mem_members_iff.mp hm
  order category := by
    rw [members_eq]
    exact (sublist_foldl_keepFirst _ []).trans List.filter_sublist

end PlaneRestore
