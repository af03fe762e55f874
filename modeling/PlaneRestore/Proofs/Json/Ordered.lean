import PlaneRestore.Json.Reader
import PlaneRestore.Proofs.Json
import PlaneRestore.Proofs.Table
/-!
Values in which the keys of all objects are in order.

* `Json.isOrdered_object_iff` says what this is for an object. Writing and removing members keeps
  it, and `Json.isOrdered_of_parse?` finds it in all that is read.
* `Json.eq_of_member?`: two such objects with the same members are equal. From this the laws of
  writing and removing members are read off.
-/

namespace PlaneRestore

namespace Json

variable {v v' x y : Json} {k l : String} {ms : List (String × Json)}

/-! ### What it is to be ordered -/

theorem allOrdered_iff {vs : List Json} : allOrdered vs = true ↔ ∀ v ∈ vs, v.isOrdered = true := by
  induction vs with
  | nil => simp [allOrdered]
  | cons v vs ih => simp [allOrdered, ih]

theorem membersOrdered_iff :
    membersOrdered ms = true ↔ Table.Ordered ms ∧ ∀ e ∈ ms, e.2.isOrdered = true := by
  induction ms with
  | nil => simp [membersOrdered, Table.ordered_nil]
  | cons e ms ih =>
    obtain ⟨k, v⟩ := e
    cases ms with
    | nil => simp [membersOrdered, Table.Ordered]
    | cons e' ms =>
      obtain ⟨k', v'⟩ := e'
      -- the first key need only be compared with the next one
      have hlt : k < k' ↔ compare k k' = .lt := compareOfLessAndEq_eq_lt.symm
      rw [membersOrdered, Bool.and_eq_true, Bool.and_eq_true, ih, decide_eq_true_iff, hlt]
      simp only [Table.Ordered, List.pairwise_cons, List.mem_cons, forall_eq_or_imp]
      constructor
      · rintro ⟨⟨hv, hk⟩, ⟨hk', hms⟩, hv', hvs⟩
        exact ⟨⟨⟨hk, fun e he => Std.TransCmp.lt_trans hk (hk' e he)⟩, hk', hms⟩, hv, hv', hvs⟩
      · rintro ⟨⟨⟨hk, -⟩, hk', hms⟩, hv, hv', hvs⟩
        exact ⟨⟨hv, hk⟩, ⟨hk', hms⟩, hv', hvs⟩

/-- The keys of an ordered object increase strictly, and its members are ordered. -/
theorem isOrdered_object_iff :
    (object ms).isOrdered = true ↔ Table.Ordered ms ∧ ∀ e ∈ ms, e.2.isOrdered = true := by
  rw [isOrdered, membersOrdered_iff]

theorem isOrdered_array_iff {vs : List Json} :
    (array vs).isOrdered = true ↔ ∀ v ∈ vs, v.isOrdered = true := by
  rw [isOrdered, allOrdered_iff]

theorem isOrdered_of_member? (hv : v.isOrdered = true) (hx : v.member? k = some x) :
    x.isOrdered = true := by
  cases v with
  | object ms => exact (isOrdered_object_iff.mp hv).2 (k, x) (Table.mem_of_get? hx)
  | _ => cases hx

theorem isOrdered_setMember (hv : v.isOrdered = true) (hx : x.isOrdered = true) (k : String) :
    (v.setMember k x).isOrdered = true := by
  cases v with
  | object ms =>
    obtain ⟨hms, hvs⟩ := isOrdered_object_iff.mp hv
    refine isOrdered_object_iff.mpr ⟨Table.ordered_put k x hms, ?_⟩
    rintro ⟨j, y⟩ he
    have hget := (Table.ordered_put k x hms).mem_iff_get?.mp he
    by_cases hj : j = k
    · rw [hj, Table.get?_put_self] at hget
      rwa [← Option.some.inj hget]
    · rw [Table.get?_put_of_ne hj] at hget
      exact hvs (j, y) (Table.mem_of_get? hget)
  | _ => exact hv

theorem isOrdered_removeMember (hv : v.isOrdered = true) (k : String) :
    (v.removeMember k).isOrdered = true := by
  cases v with
  | object ms =>
    obtain ⟨hms, hvs⟩ := isOrdered_object_iff.mp hv
    exact isOrdered_object_iff.mpr ⟨hms.remove k, fun e he => hvs e (List.mem_of_mem_filter he)⟩
  | _ => exact hv

theorem isOrdered_modifyMember (hv : v.isOrdered = true) {f : Json → Json}
    (hf : ∀ x, x.isOrdered = true → (f x).isOrdered = true) (k : String) :
    (v.modifyMember k f).isOrdered = true := by
  cases v with
  | object ms =>
    obtain ⟨hms, hvs⟩ := isOrdered_object_iff.mp hv
    refine isOrdered_object_iff.mpr ⟨List.pairwise_map.mpr hms, fun e he => ?_⟩
    obtain ⟨e, hmem, rfl⟩ := List.mem_map.mp he
    have hordered := hvs e hmem
    dsimp only
    split
    · exact hf e.2 hordered
    · exact hordered
  | _ => exact hv

/-! ### Objects with the same members -/

@[simp]
theorem isObject_setMember : (v.setMember k x).isObject = v.isObject := by
  cases v <;> rfl

@[simp]
theorem isObject_removeMember : (v.removeMember k).isObject = v.isObject := by
  cases v <;> rfl

@[simp]
theorem isObject_modifyMember {f : Json → Json} : (v.modifyMember k f).isObject = v.isObject := by
  cases v <;> rfl

theorem member?_setMember (hv : v.isObject = true) (j : String) :
    (v.setMember k x).member? j = if j = k then some x else v.member? j := by
  by_cases hj : j = k
  · cases v with
    | object ms =>
      rw [hj, if_pos rfl]
      exact Table.get?_put_self k x ms
    | _ => cases hv
  · rw [if_neg hj, member?_setMember_of_ne hj]

theorem member?_removeMember (v : Json) (j : String) :
    (v.removeMember k).member? j = if j = k then none else v.member? j := by
  by_cases hj : j = k
  · rw [hj, if_pos rfl, member?_removeMember_self]
  · rw [if_neg hj, member?_removeMember_of_ne hj]

/-- Ordered objects with the same members are equal. -/
theorem eq_of_member? (hv : v.isObject = true) (ho : v.isOrdered = true) (hv' : v'.isObject = true)
    (ho' : v'.isOrdered = true) (h : ∀ j, v.member? j = v'.member? j) : v = v' := by
  cases v with
  | object ms =>
    cases v' with
    | object ms' =>
      have hms : ms = ms' :=
        (isOrdered_object_iff.mp ho).1.ext (isOrdered_object_iff.mp ho').1 h
      rw [hms]
    | _ => cases hv'
  | _ => cases hv

section Laws

variable (hv : v.isObject = true) (ho : v.isOrdered = true)

include hv ho

/-- What is written last stays. -/
theorem setMember_setMember (hx : x.isOrdered = true) (hy : y.isOrdered = true) :
    (v.setMember k x).setMember k y = v.setMember k y := by
  have hvx := isOrdered_setMember ho hx k
  refine eq_of_member? (by simp [hv]) (isOrdered_setMember hvx hy k) (by simp [hv])
    (isOrdered_setMember ho hy k) fun j => ?_
  have hobject : (v.setMember k x).isObject = true := by simp [hv]
  rw [member?_setMember hobject, member?_setMember hv, member?_setMember hv]
  split <;> rfl

theorem setMember_comm (hkl : k ≠ l) (hx : x.isOrdered = true) (hy : y.isOrdered = true) :
    (v.setMember k x).setMember l y = (v.setMember l y).setMember k x := by
  have hvx := isOrdered_setMember ho hx k
  have hvy := isOrdered_setMember ho hy l
  refine eq_of_member? (by simp [hv]) (isOrdered_setMember hvx hy l) (by simp [hv])
    (isOrdered_setMember hvy hx k) fun j => ?_
  have hobject : ∀ j z, (v.setMember j z).isObject = true := by simp [hv]
  rw [member?_setMember (hobject _ _), member?_setMember (hobject _ _), member?_setMember hv,
    member?_setMember hv]
  by_cases hj : j = k
  · simp [hj, hkl]
  · simp [hj]

theorem removeMember_setMember_of_ne (hkl : k ≠ l) (hx : x.isOrdered = true) :
    (v.setMember k x).removeMember l = (v.removeMember l).setMember k x := by
  have hvx := isOrdered_setMember ho hx k
  refine eq_of_member? (by simp [hv]) (isOrdered_removeMember hvx l) (by simp [hv])
    (isOrdered_setMember (isOrdered_removeMember ho l) hx k) fun j => ?_
  have hobject : (v.removeMember l).isObject = true := by simp [hv]
  rw [member?_removeMember, member?_setMember hv, member?_setMember hobject, member?_removeMember]
  by_cases hj : j = k
  · simp [hj, hkl]
  · simp [hj]

/-- A member that is removed again leaves an object as it was without it. -/
theorem removeMember_setMember_self (hx : x.isOrdered = true) (hk : v.member? k = none) :
    (v.setMember k x).removeMember k = v := by
  have hvx := isOrdered_setMember ho hx k
  refine eq_of_member? (by simp [hv]) (isOrdered_removeMember hvx k) hv ho fun j => ?_
  rw [member?_removeMember, member?_setMember hv]
  by_cases hj : j = k
  · simp [hj, hk]
  · simp [hj]

/-- What is written and then changed is written as it is in the end. -/
theorem modifyMember_setMember (hx : x.isOrdered = true) {f : Json → Json}
    (hf : ∀ z, z.isOrdered = true → (f z).isOrdered = true) :
    (v.setMember k x).modifyMember k f = v.setMember k (f x) := by
  have hvx := isOrdered_setMember ho hx k
  refine eq_of_member? (by simp [hv]) (isOrdered_modifyMember hvx hf k) (by simp [hv])
    (isOrdered_setMember ho (hf x hx) k) fun j => ?_
  rw [member?_modifyMember, member?_setMember hv, member?_setMember hv]
  by_cases hj : j = k
  · simp [hj]
  · simp [hj]

/-- A change to a member that is written anew is in vain. -/
theorem setMember_modifyMember (hx : x.isOrdered = true) {f : Json → Json}
    (hf : ∀ z, z.isOrdered = true → (f z).isOrdered = true) :
    (v.modifyMember k f).setMember k x = v.setMember k x := by
  have hvf := isOrdered_modifyMember ho hf k
  refine eq_of_member? (by simp [hv]) (isOrdered_setMember hvf hx k) (by simp [hv])
    (isOrdered_setMember ho hx k) fun j => ?_
  have hobject : (v.modifyMember k f).isObject = true := by simp [hv]
  rw [member?_setMember hobject, member?_setMember hv, member?_modifyMember]
  by_cases hj : j = k
  · simp [hj]
  · simp [hj]

/-- To write a member as it is changes nothing. -/
theorem setMember_of_member? (hk : v.member? k = some x) : v.setMember k x = v := by
  have hx := isOrdered_of_member? ho hk
  refine eq_of_member? (by simp [hv]) (isOrdered_setMember ho hx k) hv ho fun j => ?_
  rw [member?_setMember hv]
  by_cases hj : j = k
  · simp [hj, hk]
  · simp [hj]

end Laws

theorem removeMember_comm (v : Json) (k l : String) :
    (v.removeMember k).removeMember l = (v.removeMember l).removeMember k := by
  cases v with
  | object ms => simp [removeMember, Table.remove, List.filter_filter, Bool.and_comm]
  | _ => rfl

/-! ### What is read -/

theorem isOrdered_ofEntries (h : ∀ e ∈ ms, e.2.isOrdered = true) :
    (ofEntries ms).isOrdered = true :=
  isOrdered_object_iff.mpr
    ⟨Table.ordered_ofList ms, Table.forall_mem_ofList h⟩

theorem isOrdered_of_map {α : Type} {o : Option α} {f : α → Json × List Char} {rest : List Char}
    (hf : ∀ a, (f a).1.isOrdered = true) (h : o.map f = some (v, rest)) : v.isOrdered = true := by
  obtain ⟨a, -, ha⟩ := Option.map_eq_some_iff.mp h
  have hordered := hf a
  rwa [ha] at hordered

/-- Values, items and members are read by calling each other, with less and less fuel. -/
theorem isOrdered_of_read (fuel : Nat) :
    (∀ depth cs v rest, value? fuel depth cs = some (v, rest) → v.isOrdered = true) ∧
    (∀ depth cs vs rest, items? fuel depth cs = some (vs, rest) →
      ∀ v ∈ vs, v.isOrdered = true) ∧
    ∀ depth cs ms rest, members? fuel depth cs = some (ms, rest) →
      ∀ e ∈ ms, e.2.isOrdered = true := by
  induction fuel with
  | zero => simp [value?, items?, members?]
  | succ fuel ih =>
    obtain ⟨ihvalue, ihitems, ihmembers⟩ := ih
    refine ⟨fun depth cs v rest h => ?_, fun depth cs vs rest h => ?_, fun depth cs ms rest h => ?_⟩
    -- only arrays and objects have values inside
    · rw [value?] at h
      split at h
      · exact isOrdered_of_map (fun _ => rfl) h
      · exact isOrdered_of_map (fun _ => rfl) h
      · exact isOrdered_of_map (fun _ => rfl) h
      · exact isOrdered_of_map (fun _ => rfl) h
      · split at h
        · cases h
        · split at h
          · cases h
            rfl
          · obtain ⟨⟨vs, r⟩, hvs, hr⟩ := Option.map_eq_some_iff.mp h
            cases hr
            exact isOrdered_array_iff.mpr (ihitems _ _ _ _ hvs)
      · split at h
        · cases h
        · split at h
          · cases h
            rfl
          · obtain ⟨⟨ms, r⟩, hms, hr⟩ := Option.map_eq_some_iff.mp h
            cases hr
            -- an object is built as a table, so its keys increase however they are written
            exact isOrdered_ofEntries (ihmembers _ _ _ _ hms)
      · exact isOrdered_of_map (fun _ => rfl) h
      · exact isOrdered_of_map (fun _ => rfl) h
    · rw [items?] at h
      obtain ⟨⟨v, rest₁⟩, hv, h⟩ := Option.bind_eq_some_iff.mp h
      have hfirst := ihvalue _ _ _ _ hv
      dsimp only at h
      split at h
      · obtain ⟨⟨vs', rest₂⟩, hvs, h⟩ := Option.bind_eq_some_iff.mp h
        cases h
        exact List.forall_mem_cons.mpr ⟨hfirst, ihitems _ _ _ _ hvs⟩
      · cases h
        simpa using hfirst
      · cases h
    · rw [members?] at h
      split at h
      · obtain ⟨⟨key, rest₁⟩, -, h⟩ := Option.bind_eq_some_iff.mp h
        dsimp only at h
        split at h
        · obtain ⟨⟨v, rest₂⟩, hv, h⟩ := Option.bind_eq_some_iff.mp h
          have hfirst := ihvalue _ _ _ _ hv
          dsimp only at h
          split at h
          · obtain ⟨⟨ms', rest₃⟩, hms, h⟩ := Option.bind_eq_some_iff.mp h
            cases h
            exact List.forall_mem_cons.mpr ⟨hfirst, ihmembers _ _ _ _ hms⟩
          · cases h
            simpa using hfirst
          · cases h
        · cases h
      · cases h

/-- Every value that is read from a text is ordered. -/
theorem isOrdered_of_parse? {text : String} (h : parse? text = some v) : v.isOrdered = true := by
  rw [parse?, parseWithin?] at h
  split at h
  · next v' rest hread =>
    split at h
    · cases h
      exact (isOrdered_of_read _).1 _ _ _ _ hread
    · cases h
  · cases h

end Json

end PlaneRestore
