import PlaneRestore.Import.Report
import PlaneRestore.Kind
import PlaneRestore.Proofs.Text.Split
/-!
Group resources and their texts.

* `GroupResource.parse_append` and `GroupResource.parse_of_not_mem` say how a text is read: up to
  its first point it is the plural name.
* `GroupResource.parse_display_iff` and `GroupResource.display_parse_iff` say what reads back as it
  was written, and what is written as it was read.
* `GroupResource.descriptors_read_back` puts this together; of the group resources whose plural
  names have no points, no two have the same text.
-/

namespace PlaneRestore.GroupResource

variable {r r' : GroupResource} {s : String}

/-! ### Reading -/

theorem parse_of_not_mem (h : '.' ∉ s.toList) : parse s = ⟨"", s⟩ := by
  rw [parse, Text.splitOnce_eq_none_iff.mpr h]

theorem parse_append {plural : String} (h : '.' ∉ plural.toList) (group : String) :
    parse (plural ++ "." ++ group) = ⟨group, plural⟩ := by
  have hcut : Text.splitOnce '.' (plural ++ "." ++ group) = some (plural, group) :=
    Text.splitOnce_eq_some_iff.mpr ⟨by simp, h⟩
  rw [parse, hcut]

/-- There is no point in a plural name that was read. -/
theorem not_mem_resource_parse (s : String) : '.' ∉ (parse s).resource.toList := by
  rcases Text.not_mem_or_exists_append '.' "." rfl s with h | ⟨plural, group, hplural, rfl⟩
  · rw [parse_of_not_mem h]
    exact h
  · rw [parse_append hplural]
    exact hplural

/-! ### Reading what was written, and writing what was read -/

theorem parse_display_iff : parse r.display = r ↔ '.' ∉ r.resource.toList := by
  constructor
  · intro h
    rw [← h]
    exact not_mem_resource_parse r.display
  · intro hplural
    obtain ⟨group, plural⟩ := r
    rw [display]
    split
    · next hgroup =>
      obtain rfl : group = "" := hgroup
      exact parse_of_not_mem hplural
    · exact parse_append hplural group

/-- A point at the end is lost, as there is no group after it. -/
theorem display_parse_iff :
    (parse s).display = s ↔ ¬∃ plural : String, '.' ∉ plural.toList ∧ s = plural ++ "." := by
  rcases Text.not_mem_or_exists_append '.' "." rfl s with h | ⟨plural, group, hplural, rfl⟩
  · rw [parse_of_not_mem h]
    refine iff_of_true (if_pos rfl) ?_
    rintro ⟨plural, -, rfl⟩
    simp at h
  · rw [parse_append hplural]
    by_cases hgroup : group = ""
    · subst hgroup
      have hwritten : display ⟨"", plural⟩ = plural := if_pos rfl
      refine iff_of_false (fun h => ?_) (not_not_intro ⟨plural, hplural, String.append_empty⟩)
      rw [hwritten] at h
      exact hplural (by rw [h]; simp)
    · refine iff_of_true (if_neg hgroup) ?_
      rintro ⟨plural', hplural', hs⟩
      -- both cut the text at its first point
      have hread := parse_append hplural' ""
      rw [String.append_empty, ← hs, parse_append hplural] at hread
      exact hgroup (GroupResource.mk.inj hread).1

theorem eq_of_display_eq (hr : '.' ∉ r.resource.toList) (hr' : '.' ∉ r'.resource.toList)
    (h : r.display = r'.display) : r = r' := by
  rw [← parse_display_iff.mpr hr, h, parse_display_iff.mpr hr']

/-- What there is to say about the texts of group resources. -/
structure DescriptorsReadBack : Prop where
  /-- What is written reads back, unless there is a point in the plural name. -/
  parsed : ∀ r : GroupResource, parse r.display = r ↔ '.' ∉ r.resource.toList
  /-- What is read is written as it was, unless its only point is at its end. -/
  displayed : ∀ s : String,
    (parse s).display = s ↔ ¬∃ plural : String, '.' ∉ plural.toList ∧ s = plural ++ "."
  distinct : ∀ r r' : GroupResource, '.' ∉ r.resource.toList → '.' ∉ r'.resource.toList →
    r.display = r'.display → r = r'
  baseGroups : ∀ g ∈ baseGroups, (parse g).display = g ∧ parse (parse g).display = parse g

/-- **Group resources read back from their texts.** Exactly the texts of those without points in the
plural name read back, so that no two of these have the same text; and exactly the texts that do not
end with their only point are written as they were, the names of all base groups among them. -/
theorem descriptors_read_back : DescriptorsReadBack where
  parsed r := parse_display_iff
  displayed s := display_parse_iff
  distinct r r' := eq_of_display_eq
  baseGroups := by
    intro g hg
    have hends : ∀ g ∈ PlaneRestore.baseGroups, g.toList.getLast? ≠ some '.' := by decide +kernel
    refine ⟨display_parse_iff.mpr ?_, parse_display_iff.mpr (not_mem_resource_parse g)⟩
    rintro ⟨plural, -, rfl⟩
    exact hends _ hg (by simp)

end PlaneRestore.GroupResource
