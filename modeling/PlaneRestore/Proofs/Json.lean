import Mathlib.Logic.Basic
import PlaneRestore.Json.Basic
/-!
Members of values, and what changing one of them leaves as it is.

* `Json.memberAt?` follows a path of members. Unlike `Json.at?` it does not go into arrays.
* `Json.SameBut path v v'`: the values have the same members but for what is on the way to the end
  of the path, and beyond it.
-/

namespace PlaneRestore

/-! ### Members -/

theorem Table.get?_map {κ α : Type} [DecidableEq κ] (t : List (κ × α)) (j key : κ) (f : α → α) :
    Table.get? j (t.map fun (k, v) => (k, if k = key then f v else v))
      = (Table.get? j t).map fun v => if j = key then f v else v := by
  induction t with
  | nil => rfl
  | cons entry rest ih =>
    rw [List.map_cons, Table.get?, Table.get?, ih]
    split
    · next h => simp [h]
    · rfl

namespace Json

variable {j key : String}

theorem step?_setMember_of_ne (h : j ≠ key) (v value : Json) :
    step? j (v.setMember key value) = step? j v := by
  cases v with
  | object ms => exact Table.get?_put_of_ne h _ _
  | _ => rfl

theorem step?_removeMember_of_ne (h : j ≠ key) (v : Json) :
    step? j (v.removeMember key) = step? j v := by
  cases v with
  | object ms => exact Table.get?_remove_of_ne h _
  | _ => rfl

theorem step?_modifyMember_of_ne (h : j ≠ key) (v : Json) (f : Json → Json) :
    step? j (v.modifyMember key f) = step? j v := by
  cases v with
  | object ms =>
    show Table.get? j (ms.map _) = Table.get? j ms
    rw [Table.get?_map]
    simp [h]
  | _ => rfl

theorem member?_setMember_of_ne (h : j ≠ key) (v value : Json) :
    (v.setMember key value).member? j = v.member? j := by
  cases v with
  | object ms => exact Table.get?_put_of_ne h _ _
  | _ => rfl

theorem member?_removeMember_of_ne (h : j ≠ key) (v : Json) :
    (v.removeMember key).member? j = v.member? j := by
  cases v with
  | object ms => exact Table.get?_remove_of_ne h _
  | _ => rfl

theorem member?_removeMember_self (v : Json) : (v.removeMember key).member? key = none := by
  cases v with
  | object ms => exact Table.get?_remove_self _ _
  | _ => rfl

theorem member?_modifyMember (v : Json) (f : Json → Json) :
    (v.modifyMember key f).member? j = (v.member? j).map fun m => if j = key then f m else m := by
  cases v with
  | object ms => exact Table.get?_map ms j key f
  | _ => rfl

theorem step?_removeMembers {fields : List String} (h : j ∉ fields) (v : Json) :
    step? j (fields.foldl (fun m f => m.removeMember f) v) = step? j v := by
  induction fields generalizing v with
  | nil => rfl
  | cons f fields ih =>
    obtain ⟨hf, hfields⟩ := not_or.mp (List.mem_cons.not.mp h)
    rw [List.foldl_cons, ih hfields, step?_removeMember_of_ne hf]

theorem member?_removeMembers {fields : List String} (h : j ∉ fields) (v : Json) :
    (fields.foldl (fun m f => m.removeMember f) v).member? j = v.member? j := by
  induction fields generalizing v with
  | nil => rfl
  | cons f fields ih =>
    obtain ⟨hf, hfields⟩ := not_or.mp (List.mem_cons.not.mp h)
    rw [List.foldl_cons, ih hfields, member?_removeMember_of_ne hf]

theorem member?_removeMembers_of_mem {fields : List String} (h : j ∈ fields) (v : Json) :
    (fields.foldl (fun m f => m.removeMember f) v).member? j = none := by
  induction fields generalizing v with
  | nil => cases h
  | cons f fields ih =>
    rw [List.foldl_cons]
    by_cases hj : j ∈ fields
    · exact ih hj _
    · obtain rfl := (List.mem_cons.mp h).resolve_right hj
      rw [member?_removeMembers hj, member?_removeMember_self]

/-- A text two steps down stays if the second step leads to the same value. -/
theorem textAt_modifyMember (v : Json) {f : Json → Json} {n : String}
    (h : ∀ m, step? n (f m) = step? n m) :
    textAt [key, n] (v.modifyMember key f) = textAt [key, n] v := by
  cases v with
  | object ms =>
    have hstep : step? key ((object ms).modifyMember key f) = (step? key (object ms)).map f := by
      show Table.get? key (ms.map _) = (Table.get? key ms).map f
      rw [Table.get?_map]
      simp
    cases hm : step? key (object ms) with
    | none => simp [textAt, at?, hstep, hm]
    | some m => simp [textAt, at?, hstep, hm, h]
  | _ => rfl

theorem modifyMember_modifyMember (v : Json) (f g : Json → Json) :
    (v.modifyMember key f).modifyMember key g = v.modifyMember key (g ∘ f) := by
  cases v with
  | object ms =>
    simp only [modifyMember, List.map_map, object.injEq]
    refine List.map_congr_left fun e _ => ?_
    by_cases he : e.1 = key <;> simp [he]
  | _ => rfl

theorem removeMember_removeMember (v : Json) :
    (v.removeMember key).removeMember key = v.removeMember key := by
  cases v with
  | object ms => simp [removeMember, Table.remove]
  | _ => rfl

/-! ### Paths of members -/

/-- The member at the end of a path of members. -/
def memberAt? : List String → Json → Option Json
  | [], v => some v
  | key :: path, v => (v.member? key).bind (memberAt? path)

/-- Neither of two paths leads to the end of the other. -/
def IsApart (p path : List String) : Prop := ¬path <+: p ∧ ¬p <+: path

/-- Two values have the same members, at any depth, but those on the path and beyond its end. -/
def SameBut (path : List String) (v v' : Json) : Prop :=
  ∀ p, IsApart p path → memberAt? p v' = memberAt? p v

variable {p path : List String} {v : Json}

theorem not_isApart_nil : ¬IsApart [] path := fun h => h.2 List.nil_prefix

@[simp]
theorem isApart_cons_iff : IsApart (j :: p) (key :: path) ↔ j ≠ key ∨ IsApart p path := by
  rw [IsApart, IsApart, List.cons_prefix_cons, List.cons_prefix_cons]
  by_cases h : j = key
  · subst h
    simp
  · simp [h, Ne.symm h]

/-- A key that is no index does not lead into an array. -/
theorem at?_eq_memberAt? (h : ∀ k ∈ path, index? k = none) (v : Json) :
    v.at? path = memberAt? path v := by
  induction path generalizing v with
  | nil => rfl
  | cons k path ih =>
    obtain ⟨hk, hpath⟩ := List.forall_mem_cons.mp h
    have hstep : step? k v = v.member? k := by
      cases v with
      | array items => simp [step?, member?, hk]
      | _ => rfl
    have hat : v.at? (k :: path) = (step? k v).bind (at? path) := rfl
    rw [hat, hstep, memberAt?]
    exact congrArg _ (funext fun m => ih hpath m)

/-- To change something inside a member is to change the value there. -/
theorem sameBut_modifyMember {f : Json → Json} (h : ∀ m, SameBut path m (f m)) (v : Json) :
    SameBut (key :: path) v (v.modifyMember key f) := by
  intro p hp
  cases p with
  | nil => exact absurd hp not_isApart_nil
  | cons j p =>
    rw [memberAt?, memberAt?, member?_modifyMember]
    by_cases hj : j = key
    · have hp' : IsApart p path := (isApart_cons_iff.mp hp).resolve_left (not_not_intro hj)
      cases v.member? j with
      | none => rfl
      | some m => simpa [hj] using h m p hp'
    · simp [hj]

/-- A member may be written that has the same members as the one before. -/
theorem sameBut_setMember {value : Json}
    (h : ∀ p, IsApart p path → memberAt? p value = (v.member? key).bind (memberAt? p)) :
    SameBut (key :: path) v (v.setMember key value) := by
  intro p hp
  cases p with
  | nil => exact absurd hp not_isApart_nil
  | cons j p =>
    rw [memberAt?, memberAt?]
    by_cases hj : j = key
    · subst hj
      have hp' : IsApart p path := (isApart_cons_iff.mp hp).resolve_left (not_not_intro rfl)
      cases v with
      | object ms => simpa [setMember, member?, Table.get?_put_self] using h p hp'
      | _ => rfl
    · rw [member?_setMember_of_ne hj]

theorem sameBut_setMember_self (v value : Json) : SameBut [key] v (v.setMember key value) :=
  sameBut_setMember fun _ hp => absurd List.nil_prefix hp.1

theorem sameBut_removeMember (v : Json) : SameBut [key] v (v.removeMember key) := by
  intro p hp
  cases p with
  | nil => exact absurd hp not_isApart_nil
  | cons j p =>
    have hj : j ≠ key := (isApart_cons_iff.mp hp).resolve_right fun h => h.1 List.nil_prefix
    rw [memberAt?, memberAt?, member?_removeMember_of_ne hj]

theorem memberAt?_removeMembers {fields : List String} (h : ∀ f ∈ fields, IsApart p [f])
    (v : Json) :
    memberAt? p (fields.foldl (fun m f => m.removeMember f) v) = memberAt? p v := by
  induction fields generalizing v with
  | nil => rfl
  | cons f fields ih =>
    rw [List.foldl_cons, ih fun g hg => h g (List.mem_cons_of_mem _ hg)]
    exact sameBut_removeMember v p (h f List.mem_cons_self)

end Json

end PlaneRestore
