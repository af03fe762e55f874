import PlaneRestore.Text.Split
/-!
What is left of a text that is cut at a separator.

* `Text.splitOnce_eq_some_iff` and `Text.splitOnce_eq_none_iff` say when a text is cut in two, and
  where; by `Text.not_mem_or_exists_append` there is no other case.
* `Text.splitAll_append`: what is before a separator and what is after it are split on their own.
* `Text.takeWhile_ne_append` and `Text.afterLast_append`: what is up to the first separator, and
  what is after the last one.
-/

namespace PlaneRestore.Text

variable {sep : Char}

/-! ### At the first separator -/

/-- The parts of a text come from its first separator. -/
theorem splitOnce_eq_some_iff {s l r : String} : splitOnce sep s = some (l, r) ↔
    s.toList = l.toList ++ sep :: r.toList ∧ sep ∉ l.toList := by
  rw [splitOnce, Option.map_eq_some_iff]
  constructor
  · rintro ⟨⟨cs, ds⟩, hcut, hparts⟩
    obtain ⟨rfl, rfl⟩ := Prod.mk.inj hparts
    rw [String.toList_ofList, String.toList_ofList]
    exact splitFirst_eq_some_iff.mp hcut
  · intro h
    refine ⟨(l.toList, r.toList), splitFirst_eq_some_iff.mpr h, ?_⟩
    simp only [String.ofList_toList]

theorem splitOnce_eq_none_iff {s : String} : splitOnce sep s = none ↔ sep ∉ s.toList := by
  rw [splitOnce, Option.map_eq_none_iff, splitFirst_eq_none_iff]

/-- A text has no separator, or there is one in it for a first time; `mark` is the separator as a
text. -/
theorem not_mem_or_exists_append (sep : Char) (mark : String) (hmark : mark.toList = [sep])
    (s : String) : sep ∉ s.toList ∨ ∃ l r, sep ∉ l.toList ∧ s = l ++ mark ++ r := by
  cases hcut : splitOnce sep s with
  | none => exact .inl (splitOnce_eq_none_iff.mp hcut)
  | some parts =>
    obtain ⟨l, r⟩ := parts
    obtain ⟨hs, hl⟩ := splitOnce_eq_some_iff.mp hcut
    refine .inr ⟨l, r, hl, String.toList_inj.mp ?_⟩
    simp [hs, hmark]

/-! ### At every separator -/

theorem not_mem_of_mem_splitAll {cs part : List Char} (h : part ∈ splitAll sep cs) :
    sep ∉ part := by
  induction cs generalizing part with
  | nil =>
    rw [splitAll, List.mem_singleton] at h
    simp [h]
  | cons c cs ih =>
    rw [splitAll] at h
    split at h
    · rcases List.mem_cons.mp h with rfl | h
      · simp
      · exact ih h
    · next hc =>
      split at h
      · rw [List.mem_singleton] at h
        simp [h, Ne.symm hc]
      · next first rest hs =>
        -- the character goes to the first part, and the others stay
        rw [hs] at ih
        rcases List.mem_cons.mp h with rfl | h
        · simp [Ne.symm hc, ih List.mem_cons_self]
        · exact ih (List.mem_cons_of_mem _ h)

/-- A text without separators is its only part. -/
theorem splitAll_of_not_mem {cs : List Char} (h : sep ∉ cs) : splitAll sep cs = [cs] := by
  induction cs with
  | nil => rfl
  | cons c cs ih =>
    simp only [List.mem_cons, not_or] at h
    rw [splitAll, if_neg (Ne.symm h.1), ih h.2]

/-- What is before a separator and what is after it are split on their own. -/
theorem splitAll_append (sep : Char) (l r : List Char) :
    splitAll sep (l ++ sep :: r) = splitAll sep l ++ splitAll sep r := by
  induction l with
  | nil => simp [splitAll]
  | cons c l ih =>
    rw [List.cons_append, splitAll, splitAll, ih]
    by_cases hc : c = sep
    · rw [if_pos hc, if_pos hc, List.cons_append]
    · rw [if_neg hc, if_neg hc]
      cases hl : splitAll sep l with
      | nil => exact absurd hl (splitAll_ne_nil sep l)
      | cons first rest => rfl

/-! ### Up to the first separator, and from the last one on -/

theorem takeWhile_ne_of_not_mem {cs : List Char} (h : sep ∉ cs) :
    cs.takeWhile (· ≠ sep) = cs := by
  induction cs with
  | nil => rfl
  | cons c cs ih =>
    simp only [List.mem_cons, not_or] at h
    rw [List.takeWhile_cons, if_pos (by simpa using Ne.symm h.1), ih h.2]

theorem takeWhile_ne_append {l : List Char} (h : sep ∉ l) (r : List Char) :
    (l ++ sep :: r).takeWhile (· ≠ sep) = l := by
  have hl : ∀ c ∈ l, decide (c ≠ sep) = true := by
    intro c hc
    rw [decide_eq_true_eq]
    rintro rfl
    exact h hc
  rw [List.takeWhile_append_of_pos hl, List.takeWhile_cons, if_neg (by simp), List.append_nil]

/-- A text without separators is its last part. -/
theorem afterLast_of_not_mem {cs : List Char} (h : sep ∉ cs) : afterLast sep cs = cs := by
  have hreverse : sep ∉ cs.reverse := fun hmem => h (List.mem_reverse.mp hmem)
  rw [afterLast, takeWhile_ne_of_not_mem hreverse, List.reverse_reverse]

/-- In front of the last separator there may be anything, further separators too. -/
theorem afterLast_append (l : List Char) {r : List Char} (h : sep ∉ r) :
    afterLast sep (l ++ sep :: r) = r := by
  have hreverse : sep ∉ r.reverse := fun hmem => h (List.mem_reverse.mp hmem)
  rw [afterLast, List.reverse_append, List.reverse_cons, List.append_assoc, List.singleton_append,
    takeWhile_ne_append hreverse, List.reverse_reverse]

end PlaneRestore.Text
