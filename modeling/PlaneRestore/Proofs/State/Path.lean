import PlaneRestore.Proofs.Table
import PlaneRestore.Proofs.Text.Split
import PlaneRestore.State.Path
/-!
Paths and the names in them.

* `Path.names` are the segments that count. A slash separates the names before it from those after
  it, by `Path.names_append`, and `Path.parse?_eq` reads a path by its names.
* `Path.IsEntryName` says which texts name an entry; `Path.isEntryName_of_parse?` finds only such
  names in a path that was read.
* `Path.parse?_render`: the text of a path of such names reads back as the path.
* `Path.inside` is what texts of paths inside a directory begin with; `Path.eq_concat_of_render`:
  those that go on with a name are directly inside.
* `Path.childName?_eq_some_iff` and `Path.ancestors_concat` describe the neighbours of an entry;
  `Path.IsAbove` says that one path leads through another, and `Path.mem_ancestors_iff` that these
  are the ancestors.
-/

namespace PlaneRestore

namespace Path

/-! ### The names in a text -/

/-- The segments of a text that name something. -/
def names (text : String) : List String := (segments text).filter isName

theorem mem_names_iff {text n : String} :
    n ∈ names text ↔ n ∈ segments text ∧ n ≠ "" ∧ n ≠ "." := by
  simp [names, isName]

/-- A path is the names in its text, and none of these may lead upwards. -/
theorem parse?_eq (text : String) :
    parse? text = if ".." ∈ names text then none else some (names text) := by
  by_cases hup : ".." ∈ names text
  · rw [if_pos hup]
    exact if_pos (List.contains_iff_mem.mpr hup)
  · rw [if_neg hup]
    exact if_neg fun h => hup (List.contains_iff_mem.mp h)

/-- A segment that leads upwards is not left out. -/
theorem above_mem_names_iff {text : String} : ".." ∈ names text ↔ ".." ∈ segments text := by
  rw [mem_names_iff]
  exact and_iff_left ⟨by decide, by decide⟩

theorem segments_append (p q : String) : segments (p ++ "/" ++ q) = segments p ++ segments q := by
  have hcut : (p ++ "/" ++ q).toList = p.toList ++ '/' :: q.toList := by simp
  rw [segments, hcut, Text.splitAll_append, List.map_append]
  rfl

/-- A slash separates the names before it from those after it. -/
theorem names_append (p q : String) : names (p ++ "/" ++ q) = names p ++ names q := by
  rw [names, segments_append, List.filter_append]
  rfl

theorem segments_of_not_mem {n : String} (h : '/' ∉ n.toList) : segments n = [n] := by
  rw [segments, Text.splitAll_of_not_mem h, List.map_singleton, String.ofList_toList]

theorem not_mem_of_mem_segments {text n : String} (h : n ∈ segments text) : '/' ∉ n.toList := by
  obtain ⟨part, hpart, rfl⟩ := List.mem_map.mp h
  rw [String.toList_ofList]
  exact Text.not_mem_of_mem_splitAll hpart

/-! ### Names of entries -/

/-- Whether a text can stand for an entry in its directory. -/
structure IsEntryName (n : String) : Prop where
  ne_empty : n ≠ ""
  ne_here : n ≠ "."
  ne_above : n ≠ ".."
  no_slash : '/' ∉ n.toList

theorem IsEntryName.names {n : String} (h : IsEntryName n) : names n = [n] := by
  rw [Path.names, segments_of_not_mem h.no_slash]
  simp [isName, h.ne_empty, h.ne_here]

theorem isEntryName_of_mem_names {text n : String} (h : n ∈ names text) (hup : ".." ∉ names text) :
    IsEntryName n := by
  obtain ⟨hsegment, hne, hhere⟩ := mem_names_iff.mp h
  refine ⟨hne, hhere, ?_, not_mem_of_mem_segments hsegment⟩
  rintro rfl
  exact hup h

theorem isEntryName_of_parse? {text : String} {p : Path} (h : parse? text = some p) :
    ∀ n ∈ p, IsEntryName n := by
  intro n hn
  rw [parse?_eq] at h
  split at h
  · cases h
  · next hup =>
    cases h
    exact isEntryName_of_mem_names hn hup

/-! ### Reading and writing -/

/-- Texts without slashes are the parts between the slashes that join them. -/
theorem segments_intercalate {parts : List String} (hne : parts ≠ [])
    (h : ∀ n ∈ parts, '/' ∉ n.toList) : segments ("/".intercalate parts) = parts := by
  induction parts with
  | nil => exact absurd rfl hne
  | cons n rest ih =>
    have hn : segments n = [n] := segments_of_not_mem (h n List.mem_cons_self)
    cases rest with
    | nil => rw [String.intercalate_singleton, hn]
    | cons n' rest =>
      have hrest := ih (by simp) fun m hm => h m (List.mem_cons_of_mem _ hm)
      rw [String.intercalate_cons_cons, segments_append, hn, hrest, List.singleton_append]

/-- The parts between slashes of the names that slashes join. -/
theorem segments_render {p : Path} (hne : p ≠ []) (h : ∀ n ∈ p, IsEntryName n) :
    segments (render p) = p :=
  segments_intercalate hne fun n hn => (h n hn).no_slash

/-- The names that slashes join. The root is the empty text, in which there are none. -/
theorem names_render {p : Path} (h : ∀ n ∈ p, IsEntryName n) : names (render p) = p := by
  by_cases hne : p = []
  · subst hne
    decide +kernel
  · rw [names, segments_render hne h]
    exact List.filter_eq_self.mpr fun n hn => by simp [isName, (h n hn).ne_empty, (h n hn).ne_here]

/-- The text of a path reads back as the path. -/
theorem parse?_render {p : Path} (h : ∀ n ∈ p, IsEntryName n) : parse? (render p) = some p := by
  rw [parse?_eq, names_render h]
  exact if_neg fun hup => (h _ hup).ne_above rfl

theorem parse?_name {n : String} (h : IsEntryName n) : parse? n = some [n] := by
  rw [parse?_eq, h.names]
  exact if_neg fun hup => h.ne_above (List.mem_singleton.mp hup).symm

theorem parse?_child {d n : String} (hd : IsEntryName d) (hn : IsEntryName n) :
    parse? (d ++ "/" ++ n) = some [d, n] := by
  have hnames : names (d ++ "/" ++ n) = [d, n] := by
    rw [names_append, hd.names, hn.names, List.singleton_append]
  rw [parse?_eq, hnames]
  refine if_neg fun hup => ?_
  rcases List.mem_pair.mp hup with hup | hup
  · exact hd.ne_above hup.symm
  · exact hn.ne_above hup.symm

/-- The path of a name in a directory, however the path of the directory is written. -/
theorem parse?_append_name (text : String) {n : String} (hn : IsEntryName n) :
    parse? (text ++ "/" ++ n) = (parse? text).map (· ++ [n]) := by
  have hup : ".." ∈ names text ++ [n] ↔ ".." ∈ names text := by
    rw [List.mem_append, List.mem_singleton]
    exact or_iff_left hn.ne_above.symm
  rw [parse?_eq, parse?_eq, names_append, hn.names, if_congr hup rfl rfl]
  split <;> rfl

theorem parse?_root : parse? "/" = some [] := by decide +kernel

/-- A path can be read unless one of its segments leads upwards. -/
theorem parse?_isSome_iff {text : String} : (parse? text).isSome ↔ ".." ∉ segments text := by
  rw [parse?_eq, ← above_mem_names_iff]
  split
  · next h => simp [h]
  · next h => simp [h]

/-- What the texts of the paths inside a directory begin with. -/
def inside (p : Path) : String := if p = [] then "" else render p ++ "/"

theorem render_concat (p : Path) (n : String) : render (p ++ [n]) = inside p ++ n := by
  by_cases hp : p = []
  · simp [hp, render, inside]
  · rw [inside, if_neg hp, render, String.intercalate_append_of_ne_nil hp (by simp)]
    simp [render]

/-- Only the text of a path directly inside a directory goes on with a name. -/
theorem eq_concat_of_render {p q : Path} {n : String} (hp : ∀ m ∈ p, IsEntryName m) (hne : q ≠ [])
    (hq : ∀ m ∈ q, IsEntryName m) (hn : '/' ∉ n.toList) (h : render q = inside p ++ n) :
    q = p ++ [n] := by
  have hsegments : segments (inside p ++ n) = p ++ segments n := by
    by_cases hroot : p = []
    · simp [inside, hroot]
    · rw [inside, if_neg hroot, segments_append, segments_render hroot hp]
  rw [← segments_render hne hq, h, hsegments, segments_of_not_mem hn]

/-! ### Neighbours of an entry -/

theorem childName?_eq_some_iff {d p : Path} {n : String} :
    childName? d p = some n ↔ p = d ++ [n] := by
  induction d generalizing p with
  | nil =>
    match p with
    | [] => simp [childName?]
    | [x] => simp [childName?]
    | x :: y :: rest => simp [childName?]
  | cons x d ih =>
    cases p with
    | nil => simp [childName?]
    | cons y p =>
      by_cases h : x = y
      · simp [childName?, h, ih]
      · simp [childName?, h, Ne.symm h]

/-- Above an entry in a directory are the directory and what is above that. -/
theorem ancestors_concat {p : Path} (hne : p ≠ []) (n : String) :
    ancestors (p ++ [n]) = p :: ancestors p := by
  obtain ⟨k, hk⟩ : ∃ k, p.length = k + 1 := ⟨p.length - 1, by
    have := List.length_pos_iff.mpr hne
    omega⟩
  have htake : ∀ i ∈ List.range' 1 k, (p ++ [n]).take i = p.take i := by
    intro i hi
    rw [List.mem_range'_1] at hi
    exact List.take_append_of_le_length (by omega)
  unfold ancestors
  rw [List.length_append, List.length_singleton, Nat.add_sub_cancel, hk, Nat.add_sub_cancel,
    List.range'_concat, List.map_append, List.reverse_append, List.map_congr_left htake]
  simp [Nat.add_comm 1 k, ← hk]

/-- Whether a path leads to a directory that another one goes through. The root is none. -/
def IsAbove (p q : Path) : Prop := p ≠ [] ∧ ∃ r, r ≠ [] ∧ q = p ++ r

theorem isAbove_concat_iff {p q : Path} {n : String} :
    p.IsAbove (q ++ [n]) ↔ p ≠ [] ∧ (p = q ∨ p.IsAbove q) := by
  constructor
  · rintro ⟨hne, r, hr, h⟩
    refine ⟨hne, ?_⟩
    induction r using List.reverseRecOn with
    | nil => exact absurd rfl hr
    | append_singleton r m _ =>
      rw [← List.append_assoc] at h
      obtain ⟨rfl, -⟩ := List.append_inj' h rfl
      by_cases hnil : r = []
      · exact .inl (by rw [hnil, List.append_nil])
      · exact .inr ⟨hne, r, hnil, rfl⟩
  · rintro ⟨hne, rfl | ⟨-, r, hr, rfl⟩⟩
    · exact ⟨hne, [n], by simp, rfl⟩
    · exact ⟨hne, r ++ [n], by simp, by simp⟩

theorem not_isAbove_nil {p : Path} : ¬p.IsAbove [] := by
  rintro ⟨hne, r, -, h⟩
  exact hne (List.append_eq_nil_iff.mp h.symm).1

theorem mem_ancestors_iff {p q : Path} : p ∈ ancestors q ↔ p.IsAbove q := by
  induction q using List.reverseRecOn with
  | nil => simp [ancestors, not_isAbove_nil]
  | append_singleton q n ih =>
    rw [isAbove_concat_iff]
    by_cases hq : q = []
    · subst hq
      simp [ancestors, not_isAbove_nil]
    · rw [ancestors_concat hq, List.mem_cons, ih]
      constructor
      · rintro (rfl | h)
        · exact ⟨hq, .inl rfl⟩
        · exact ⟨h.1, .inr h⟩
      · exact fun h => h.2

instance (p q : Path) : Decidable (p.IsAbove q) :=
  decidable_of_iff (p ∈ ancestors q) mem_ancestors_iff

theorem IsAbove.ne {p q : Path} (h : p.IsAbove q) : p ≠ q := by
  rintro rfl
  obtain ⟨-, r, hr, h⟩ := h
  exact hr (List.self_eq_append_right.mp h)

theorem IsAbove.trans {p q r : Path} (h : p.IsAbove q) (h' : q.IsAbove r) : p.IsAbove r := by
  obtain ⟨hne, a, ha, rfl⟩ := h
  obtain ⟨-, b, hb, rfl⟩ := h'
  exact ⟨hne, a ++ b, by simp [ha], by simp⟩

/-! ### The order of paths -/

theorem compare_append (d p q : Path) : compare (d ++ p) (d ++ q) = compare p q := by
  induction d with
  | nil => rfl
  | cons x d ih => simp [List.compare_cons_cons, Std.ReflCmp.compare_self, ih]

/-- Inside one directory, paths are ordered as names are. -/
theorem compare_concat (d : Path) (m n : String) :
    compare (d ++ [m]) (d ++ [n]) = compare m n := by
  rw [compare_append]
  simp [List.compare_cons_cons]

/-- What is inside a directory comes after it. -/
theorem compare_lt_append (d : Path) {r : Path} (h : r ≠ []) : compare d (d ++ r) = .lt := by
  have hcompare := compare_append d [] r
  rw [List.append_nil] at hcompare
  rw [hcompare]
  cases r with
  | nil => exact absurd rfl h
  | cons n r => rfl

/-- What is inside two entries of a directory is in the order of their names. -/
theorem compare_append_lt (d : Path) {m n : String} (h : m < n) (p q : Path) :
    compare (d ++ m :: p) (d ++ n :: q) = .lt := by
  have hmn : compare m n = .lt := compareOfLessAndEq_eq_lt.mpr h
  rw [compare_append, List.compare_cons_cons, hmn]
  rfl

end Path

end PlaneRestore
