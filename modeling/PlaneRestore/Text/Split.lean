/-!
Cutting text at a separator character.

* `splitFirst sep cs` cuts at the first `sep`; `splitFirst_eq_some_iff` says what the two parts are.
* `splitAll sep cs` cuts at every `sep`.
-/

namespace PlaneRestore.Text

/-- Cuts at the first separator, which is dropped; `none` if there is none. -/
def splitFirst (sep : Char) : List Char → Option (List Char × List Char)
  | [] => none
  | c :: cs =>
    if c = sep then some ([], cs)
    else (splitFirst sep cs).map fun (l, r) => (c :: l, r)

/-- The parts come from the first separator exactly when the left one is free of it. -/
theorem splitFirst_eq_some_iff {sep : Char} {cs l r : List Char} :
    splitFirst sep cs = some (l, r) ↔ cs = l ++ sep :: r ∧ sep ∉ l := by
  induction cs generalizing l with
  | nil => simp [splitFirst]
  | cons c cs ih =>
    rw [splitFirst]
    split
    · next h =>
      subst h
      constructor
      · intro h
        cases h
        simp
      · rintro ⟨h, hl⟩
        cases l with
        | nil => simp_all
        | cons d l => simp_all
    · next h =>
      cases l with
      | nil => simp [h]
      | cons d l =>
        simp only [Option.map_eq_some_iff, Prod.mk.injEq, List.cons.injEq, Prod.exists]
        constructor
        · rintro ⟨l', r', hs, ⟨rfl, rfl⟩, rfl⟩
          have := ih.1 hs
          simp_all [eq_comm]
        · rintro ⟨⟨⟩, hl⟩
          exact ⟨l, r, ih.2 ⟨rfl, fun hm => hl (List.mem_cons_of_mem _ hm)⟩, ⟨rfl, rfl⟩, rfl⟩

/-- There is no cut exactly when there is no separator. -/
theorem splitFirst_eq_none_iff {sep : Char} {cs : List Char} :
    splitFirst sep cs = none ↔ sep ∉ cs := by
  induction cs with
  | nil => simp [splitFirst]
  | cons c cs ih =>
    by_cases h : c = sep
    · simp [splitFirst, h]
    · simp [splitFirst, h, ih, Ne.symm h]

/-- `splitFirst` on strings. -/
def splitOnce (sep : Char) (s : String) : Option (String × String) :=
  (splitFirst sep s.toList).map fun (l, r) => (String.ofList l, String.ofList r)

/-- Cuts at every separator: one part more than there are separators. -/
def splitAll (sep : Char) : List Char → List (List Char)
  | [] => [[]]
  | c :: cs =>
    if c = sep then [] :: splitAll sep cs
    else
      match splitAll sep cs with
      | [] => [[c]]
      | part :: parts => (c :: part) :: parts

theorem splitAll_ne_nil (sep : Char) (cs : List Char) : splitAll sep cs ≠ [] := by
  cases cs with
  | nil => simp [splitAll]
  | cons c cs =>
    rw [splitAll]
    split
    · simp
    · split <;> simp

/-- The text after the last separator, or all of it. -/
def afterLast (sep : Char) (cs : List Char) : List Char :=
  (cs.reverse.takeWhile (· ≠ sep)).reverse

/-- Joins strings with a separator. -/
def joinWith (sep : String) (parts : List String) : String :=
  sep.intercalate parts

end PlaneRestore.Text
