import Mathlib.Data.List.Induction
import Mathlib.Data.List.Nodup
import PlaneRestore.Simulation.MemoryPlane
/-!
Tables in the strict order of their keys.

* `Table.Ordered` says that the keys increase strictly; `Table.ordered_put` keeps it.
* `Table.mem_iff_get?`: the entries of an ordered table are what its look-ups find.
* `Table.Ordered.eq_of_mem_iff` and `Table.Ordered.ext`: two ordered tables with the same entries,
  or with the same look-ups, are equal.
* `Table.ordered_ofList` and `Table.ofList_perm`: the table of a list is ordered, and has the
  entries of the list if these have different keys.

Group kinds, object keys and slots are ordered by their parts, one after another, so their orders
are transitive.
-/

namespace PlaneRestore

instance : Std.TransOrd GroupKind :=
  inferInstanceAs (Std.TransCmp (compareLex (compareOn GroupKind.group) (compareOn GroupKind.kind)))

instance : Std.TransOrd ObjectKey :=
  inferInstanceAs (Std.TransCmp (compareLex (compareOn ObjectKey.space) (compareOn ObjectKey.name)))

instance : Std.TransOrd Slot :=
  inferInstanceAs (Std.TransCmp (compareLex (compareOn Slot.kind) (compareOn Slot.key)))

namespace Table

variable {κ α : Type} [Ord κ]

/-- The keys increase strictly. -/
def Ordered (t : List (κ × α)) : Prop := t.Pairwise fun a b => compare a.1 b.1 = .lt

theorem ordered_nil : Ordered ([] : List (κ × α)) := List.Pairwise.nil

theorem keys_put_subset (k : κ) (v : α) (t : List (κ × α)) :
    ∀ e ∈ put k v t, e.1 = k ∨ e.1 ∈ t.map (·.1) := by
  induction t with
  | nil => simp [put]
  | cons entry rest ih =>
    intro e he
    rw [put] at he
    -- the entry is put before the first one, takes its place, or goes on into the rest
    split at he
    · rcases List.mem_cons.mp he with rfl | he
      · exact .inl rfl
      · exact .inr (List.mem_map_of_mem he)
    · rcases List.mem_cons.mp he with rfl | he
      · exact .inl rfl
      · exact .inr (List.mem_map_of_mem (List.mem_cons_of_mem _ he))
    · rcases List.mem_cons.mp he with rfl | he
      · exact .inr (by simp)
      · rcases ih e he with h | h
        · exact .inl h
        · exact .inr (by simp [h])

variable [Std.TransOrd κ]

theorem ordered_put [Std.LawfulEqOrd κ] (k : κ) (v : α) {t : List (κ × α)} (h : Ordered t) :
    Ordered (put k v t) := by
  induction t with
  | nil => simp [put, Ordered]
  | cons entry rest ih =>
    obtain ⟨hfirst, hrest⟩ := List.pairwise_cons.mp h
    rw [put]
    split
    · next hlt =>
      refine List.pairwise_cons.mpr ⟨?_, h⟩
      intro e he
      rcases List.mem_cons.mp he with rfl | he
      · exact hlt
      · exact Std.TransCmp.lt_trans hlt (hfirst e he)
    · next heq =>
      obtain rfl : k = entry.1 := Std.LawfulEqOrd.eq_of_compare heq
      exact List.pairwise_cons.mpr ⟨hfirst, hrest⟩
    · next hgt =>
      refine List.pairwise_cons.mpr ⟨?_, ih hrest⟩
      intro e he
      -- a key further on is the new one, or was there before
      rcases keys_put_subset k v rest e he with hk | hk
      · rw [hk]
        exact Std.OrientedCmp.lt_of_gt hgt
      · obtain ⟨e', he', hk'⟩ := List.mem_map.mp hk
        rw [← hk']
        exact hfirst e' he'

variable [DecidableEq κ]

omit [Std.TransOrd κ] [Ord κ] in
theorem mem_of_get? {k : κ} {v : α} {t : List (κ × α)} (h : get? k t = some v) : (k, v) ∈ t := by
  induction t with
  | nil => simp [get?] at h
  | cons entry rest ih =>
    rw [get?] at h
    split at h
    · next hk =>
      cases h
      rw [← hk]
      exact List.mem_cons_self
    · exact List.mem_cons_of_mem _ (ih h)

/-- The entries of an ordered table are what its look-ups find. -/
theorem Ordered.mem_iff_get? {t : List (κ × α)} (h : Ordered t) {k : κ} {v : α} :
    (k, v) ∈ t ↔ get? k t = some v := by
  refine ⟨fun hm => ?_, mem_of_get?⟩
  induction t with
  | nil => cases hm
  | cons entry rest ih =>
    obtain ⟨hfirst, hrest⟩ := List.pairwise_cons.mp h
    rw [get?]
    rcases List.mem_cons.mp hm with rfl | hm
    · simp
    · have hne : entry.1 ≠ k := by
        rintro rfl
        exact absurd (hfirst _ hm) (by simp [Std.ReflCmp.compare_self])
      rw [if_neg hne]
      exact ih hrest hm

omit [DecidableEq κ] in
/-- No key is repeated in an ordered table. -/
theorem Ordered.nodup_keys {t : List (κ × α)} (h : Ordered t) : (keys t).Nodup := by
  refine List.pairwise_map.mpr (h.imp fun {a b} hlt heq => ?_)
  rw [heq] at hlt
  exact absurd hlt (by simp [Std.ReflCmp.compare_self])

omit [DecidableEq κ] in
/-- Two ordered tables with the same entries are equal. -/
theorem Ordered.eq_of_mem_iff {t t' : List (κ × α)} (h : Ordered t) (h' : Ordered t')
    (hmem : ∀ e, e ∈ t ↔ e ∈ t') : t = t' := by
  have hasymm : ∀ a b : κ × α, compare a.1 b.1 = .lt → ¬compare b.1 a.1 = .lt := by
    intro a b hab hba
    exact absurd (Std.TransCmp.lt_trans hab hba) (by simp [Std.ReflCmp.compare_self])
  -- the same members in the same strict order
  have hperm : t.Perm t' :=
    (List.perm_ext_iff_of_nodup (List.Nodup.of_map _ h.nodup_keys)
      (List.Nodup.of_map _ h'.nodup_keys)).mpr hmem
  exact hperm.eq_of_pairwise (fun a b _ _ hab hba => absurd hba (hasymm a b hab)) h h'

/-- Two ordered tables with the same look-ups are equal. -/
theorem Ordered.ext {t t' : List (κ × α)} (h : Ordered t) (h' : Ordered t')
    (hget : ∀ k, get? k t = get? k t') : t = t' := by
  refine h.eq_of_mem_iff h' ?_
  rintro ⟨k, v⟩
  rw [h.mem_iff_get?, h'.mem_iff_get?, hget]

omit [Std.TransOrd κ] in
theorem Ordered.remove {t : List (κ × α)} (h : Ordered t) (k : κ) : Ordered (Table.remove k t) :=
  List.Pairwise.filter _ h

omit [Std.TransOrd κ] [DecidableEq κ] in
/-- Values may be converted, and some left out. -/
theorem Ordered.filterMap {β : Type} {t : List (κ × α)} (h : Ordered t) (f : α → Option β) :
    Ordered (t.filterMap fun e => (f e.2).map ((e.1, ·))) := by
  refine List.Pairwise.filterMap _ ?_ h
  intro e e' hlt b hb b' hb'
  obtain ⟨y, -, rfl⟩ := Option.map_eq_some_iff.mp hb
  obtain ⟨y', -, rfl⟩ := Option.map_eq_some_iff.mp hb'
  exact hlt

theorem Ordered.get?_filterMap {β : Type} {t : List (κ × α)} (h : Ordered t) (f : α → Option β)
    (k : κ) : get? k (t.filterMap fun e => (f e.2).map ((e.1, ·))) = (get? k t).bind f := by
  apply Option.ext
  intro b
  rw [← (h.filterMap f).mem_iff_get?, List.mem_filterMap, Option.bind_eq_some_iff]
  constructor
  · rintro ⟨⟨k', a⟩, he, hb⟩
    obtain ⟨b', hb', heq⟩ := Option.map_eq_some_iff.mp hb
    cases heq
    exact ⟨a, h.mem_iff_get?.mp he, hb'⟩
  · rintro ⟨a, ha, hb⟩
    exact ⟨(k, a), mem_of_get? ha, Option.map_eq_some_iff.mpr ⟨b, hb, rfl⟩⟩

/-- Two ordered tables with values at the same keys have the same keys. -/
theorem Ordered.keys_eq {t t' : List (κ × α)} (h : Ordered t) (h' : Ordered t')
    (hget : ∀ k, (get? k t).isSome = (get? k t').isSome) : keys t = keys t' := by
  -- without their values, the tables are equal
  have hplain : ∀ (u : List (κ × α)) (k : κ),
      get? k (u.map fun e => (e.1, ())) = (get? k u).map fun _ => () := by
    intro u k
    induction u with
    | nil => rfl
    | cons e u ih =>
      rw [List.map_cons, get?, get?, ih]
      split <;> rfl
  have hordered : ∀ {u : List (κ × α)}, Ordered u → Ordered (u.map fun e => (e.1, ())) :=
    fun hu => List.pairwise_map.mpr hu
  have heq := (hordered h).ext (hordered h') fun k => by
    rw [hplain, hplain]
    have hk := hget k
    revert hk
    cases get? k t <;> cases get? k t' <;> simp
  have := congrArg keys heq
  simpa [keys, Function.comp_def] using this

/-! ### Tables of lists -/

omit [Std.TransOrd κ] [DecidableEq κ] in
theorem put_perm [Std.LawfulEqOrd κ] {k : κ} (v : α) {t : List (κ × α)} (h : k ∉ keys t) :
    (put k v t).Perm ((k, v) :: t) := by
  induction t with
  | nil => exact .refl _
  | cons entry rest ih =>
    obtain ⟨hne, hrest⟩ := List.ne_and_not_mem_of_not_mem_cons h
    rw [put]
    split
    · exact .refl _
    · next heq => exact absurd (Std.LawfulEqOrd.eq_of_compare heq) hne
    · exact ((ih hrest).cons _).trans (.swap _ _ _)

omit [Std.TransOrd κ] [DecidableEq κ] in
theorem ofList_concat (entries : List (κ × α)) (k : κ) (v : α) :
    ofList (entries ++ [(k, v)]) = put k v (ofList entries) := by
  rw [ofList, List.foldl_append]
  rfl

omit [DecidableEq κ] in
theorem ordered_ofList [Std.LawfulEqOrd κ] (entries : List (κ × α)) : Ordered (ofList entries) := by
  induction entries using List.reverseRecOn with
  | nil => exact ordered_nil
  | append_singleton entries entry ih =>
    rw [ofList_concat]
    exact ordered_put _ _ ih

omit [Std.TransOrd κ] [DecidableEq κ] in
/-- What holds of an entry, and of all in a table, holds when it is written there. -/
theorem forall_mem_put [Std.LawfulEqOrd κ] {P : κ × α → Prop} {k : κ} {v : α} {t : List (κ × α)}
    (ht : ∀ e ∈ t, P e) (hv : P (k, v)) : ∀ e ∈ put k v t, P e := by
  induction t with
  | nil =>
    intro e he
    rw [put, List.mem_singleton] at he
    rwa [he]
  | cons entry rest ih =>
    obtain ⟨hfirst, hrest⟩ := List.forall_mem_cons.mp ht
    rw [put]
    split
    · exact List.forall_mem_cons.mpr ⟨hv, ht⟩
    · exact List.forall_mem_cons.mpr ⟨hv, hrest⟩
    · exact List.forall_mem_cons.mpr ⟨hfirst, ih hrest⟩

omit [Std.TransOrd κ] [DecidableEq κ] in
theorem forall_mem_ofList [Std.LawfulEqOrd κ] {P : κ × α → Prop} {entries : List (κ × α)}
    (h : ∀ e ∈ entries, P e) : ∀ e ∈ ofList entries, P e := by
  induction entries using List.reverseRecOn with
  | nil => exact fun e he => nomatch he
  | append_singleton entries entry ih =>
    rw [ofList_concat]
    exact forall_mem_put (ih fun e he => h e (List.mem_append_left _ he))
      (h entry (List.mem_append_right _ (List.mem_singleton_self entry)))

omit [Std.TransOrd κ] [DecidableEq κ] in
/-- The table of a list in which no key is repeated has the entries of the list. -/
theorem ofList_perm [Std.LawfulEqOrd κ] {entries : List (κ × α)} (h : (keys entries).Nodup) :
    (ofList entries).Perm entries := by
  induction entries using List.reverseRecOn with
  | nil => exact .refl _
  | append_singleton entries entry ih =>
    have hkeys : keys (entries ++ [entry]) = keys entries ++ [entry.1] := List.map_append
    rw [hkeys] at h
    obtain ⟨hfirst, -, hlast⟩ := List.nodup_append.mp h
    have hperm := ih hfirst
    have hnew : entry.1 ∉ keys (ofList entries) := by
      rw [keys, (hperm.map _).mem_iff]
      exact fun hmem => hlast _ hmem _ (List.mem_singleton_self _) rfl
    rw [ofList_concat]
    exact (put_perm entry.2 hnew).trans
      ((hperm.cons entry).trans (List.perm_append_singleton entry entries).symm)

theorem get?_ofList_eq_some_iff [Std.LawfulEqOrd κ] {entries : List (κ × α)}
    (h : (keys entries).Nodup) {k : κ} {v : α} :
    get? k (ofList entries) = some v ↔ (k, v) ∈ entries := by
  rw [← (ordered_ofList entries).mem_iff_get?, (ofList_perm h).mem_iff]

end Table

end PlaneRestore
