/-!
Tables: association lists that are kept in the order of their keys.

* `Table.get?_put_self`, `Table.get?_put_of_ne`: what a table holds after writing one key.
* `Table.get?_remove_self`, `Table.get?_remove_of_ne`: what it holds after removing one.

The order matters for listings only; a look-up compares keys for equality.
-/

namespace PlaneRestore.Table

variable {κ α : Type}

/-- The value at a key. -/
def get? [DecidableEq κ] (k : κ) : List (κ × α) → Option α
  | [] => none
  | (k', v) :: rest => if k' = k then some v else get? k rest

/-- Writes the value at a key, in front of the first greater key if the key is new. -/
def put [Ord κ] (k : κ) (v : α) : List (κ × α) → List (κ × α)
  | [] => [(k, v)]
  | (k', v') :: rest =>
    match compare k k' with
    | .lt => (k, v) :: (k', v') :: rest
    | .eq => (k, v) :: rest
    | .gt => (k', v') :: put k v rest

/-- Removes a key. -/
def remove [DecidableEq κ] (k : κ) (t : List (κ × α)) : List (κ × α) :=
  t.filter fun entry => entry.1 ≠ k

/-- The keys, in order. -/
def keys (t : List (κ × α)) : List κ := t.map (·.1)

/-- Whether a key is present. -/
def has [DecidableEq κ] (k : κ) (t : List (κ × α)) : Bool := (get? k t).isSome

/-- The table of a list of entries; of equal keys the last one counts. -/
def ofList [Ord κ] (entries : List (κ × α)) : List (κ × α) :=
  entries.foldl (fun t (k, v) => put k v t) []

section

variable [DecidableEq κ] [Ord κ] [Std.LawfulEqOrd κ]

@[simp]
theorem get?_put_self (k : κ) (v : α) (t : List (κ × α)) : get? k (put k v t) = some v := by
  induction t with
  | nil => simp [put, get?]
  | cons entry rest ih =>
    rw [put]
    split
    · simp [get?]
    · simp [get?]
    · next h =>
      have hne : entry.1 ≠ k := by
        rintro rfl
        simp at h
      simp [get?, hne, ih]

theorem get?_put_of_ne {j k : κ} (h : j ≠ k) (v : α) (t : List (κ × α)) :
    get? j (put k v t) = get? j t := by
  induction t with
  | nil => simp [put, get?, Ne.symm h]
  | cons entry rest ih =>
    rw [put]
    split
    · simp [get?, Ne.symm h]
    · next hc =>
      have : k = entry.1 := Std.LawfulEqOrd.eq_of_compare hc
      simp [get?, ← this, Ne.symm h]
    · simp [get?, ih]

end

variable [DecidableEq κ]

@[simp]
theorem get?_remove_self (k : κ) (t : List (κ × α)) : get? k (remove k t) = none := by
  induction t with
  | nil => rfl
  | cons entry rest ih =>
    by_cases h : entry.1 = k <;> simp_all [remove, get?]

theorem get?_remove_of_ne {j k : κ} (h : j ≠ k) (t : List (κ × α)) :
    get? j (remove k t) = get? j t := by
  induction t with
  | nil => rfl
  | cons entry rest ih =>
    by_cases hk : entry.1 = k
    · simp_all [remove, get?, Ne.symm h]
    · by_cases hj : entry.1 = j <;> simp_all [remove, get?]

end PlaneRestore.Table
