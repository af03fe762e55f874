import PlaneRestore.Proofs.Outcome
import PlaneRestore.Shape
/-!
Records that are read from JSON objects.

`Fields.get?_of_ofJson_object`: a record that has been read from an object has found its first field
there, if that must not be left out.
-/

namespace PlaneRestore

/-- A text is read from a string only. -/
theorem Shape.text_ofJson_eq_ok_iff {v : Json} {s : String} :
    Shape.text.ofJson v = .ok s ↔ v = .string s := by
  cases v with
  | string t => simp [Shape.text, Shape.parsed]
  | _ =>
    constructor
    · rintro ⟨⟩
    · rintro ⟨⟩

namespace Fields

variable {α β γ σ : Type} {name : String} {s : Shape α} {rest : Fields σ β}

/-- The members of an object are taken in one after another. A field that is there already is not
found again, and one that has been found is where a look-up finds it. -/
theorem foldlM_put_first {absent : Absent α} {ms : List (String × Json)} {st st' : Option α × σ}
    (h : ms.foldlM (fun st (e : String × Json) =>
        if (field name s absent rest).holds e.1 st then throw (.duplicateField e.1)
        else (field name s absent rest).putJson e.1 e.2 st) st = (.ok st' : Except Mismatch _)) :
    (∀ v, st.1 = some v → st'.1 = some v) ∧
      (st.1 = none → st'.1 = none ∨
        ∃ j v, Table.get? name ms = some j ∧ s.ofJson j = .ok v ∧ st'.1 = some v) := by
  induction ms generalizing st with
  | nil =>
    cases h
    exact ⟨fun _ hv => hv, fun hnone => .inl hnone⟩
  | cons e ms ih =>
    obtain ⟨key, j⟩ := e
    rw [List.foldlM_cons] at h
    obtain ⟨st₁, hput, hrest⟩ := bind_eq_ok_iff.mp h
    obtain ⟨hkept, hfound⟩ := ih hrest
    -- a member of this name is taken if it is the first; any other leaves the field as it was
    by_cases hkey : key = name
    · subst hkey
      obtain ⟨found, others⟩ := st
      cases found with
      | some v => simp [field] at hput
      | none =>
        simp only [field, if_true, Option.isSome_none, Bool.false_eq_true, if_false] at hput
        obtain ⟨v, hv, hput⟩ := bind_eq_ok_iff.mp hput
        cases hput
        refine ⟨nofun, fun _ => .inr ⟨j, v, ?_, hv, hkept v rfl⟩⟩
        rw [Table.get?, if_pos rfl]
    · have hfirst : st₁.1 = st.1 := by
        simp only [field, if_neg hkey] at hput
        split at hput
        · cases hput
        · obtain ⟨others, -, hput⟩ := bind_eq_ok_iff.mp hput
          cases hput
          rfl
      rw [hfirst] at hkept hfound
      rwa [Table.get?, if_neg hkey, and_iff_right hkept]

/-- The first field of a record that has been read from an object is a member of the object. -/
theorem get?_of_ofJson_object {record : String} {build : α × β → γ} {ms : List (String × Json)}
    {c : γ}
    (h : (Fields.record record (field name s .isError rest) build).ofJson (.object ms) = .ok c) :
    ∃ j v vs, Table.get? name ms = some j ∧ s.ofJson j = .ok v ∧ c = build (v, vs) := by
  obtain ⟨st, hst, h⟩ := bind_eq_ok_iff.mp h
  obtain ⟨⟨v, vs⟩, hall, h⟩ := bind_eq_ok_iff.mp h
  cases h
  obtain ⟨found, others⟩ := st
  rcases (foldlM_put_first hst).2 rfl with hnone | ⟨j, w, hget, hw, hfirst⟩
  · cases hnone
    cases hall
  · cases hfirst
    change (do return (w, ← rest.complete others)) = .ok (v, vs) at hall
    obtain ⟨vs', -, hall⟩ := bind_eq_ok_iff.mp hall
    cases hall
    exact ⟨j, v, vs, hget, hw, rfl⟩

end Fields

end PlaneRestore
