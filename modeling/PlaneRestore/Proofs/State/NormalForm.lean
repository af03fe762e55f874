import PlaneRestore.Proofs.State.Path
import PlaneRestore.State.Tree
/-!
Normal forms of the texts of paths.

* `Path.normalForm` is the text of the path that a text denotes, and `Path.normalForm_eq` says that
  it joins the names in the text.
* `Path.names_of_normalForm`: it has the same names, so that it is its own normal form, and by
  `Path.segments_of_normalForm` there is nothing but these names between its slashes.
* `Path.paths_have_normal_forms` puts this together, with what a slash between two texts does.
-/

namespace PlaneRestore.Path

variable {p q r s : String}

/-- The text of the path that a text denotes. -/
def normalForm (text : String) : Except ImportError String :=
  (ExportedState.parsePath text).map render

/-- The names in a text are joined, unless one of its segments leads upwards. -/
theorem normalForm_eq (p : String) : normalForm p =
    if ".." ∈ segments p then .error (.invalidPath p) else .ok (render (names p)) := by
  rw [normalForm, ExportedState.parsePath, parse?_eq]
  by_cases hup : ".." ∈ segments p
  · rw [if_pos hup, if_pos (above_mem_names_iff.mpr hup)]
    rfl
  · rw [if_neg hup, if_neg fun h => hup (above_mem_names_iff.mp h)]
    rfl

theorem normalForm_eq_error_iff {e : ImportError} :
    normalForm p = .error e ↔ ".." ∈ segments p ∧ e = .invalidPath p := by
  rw [normalForm_eq]
  split
  · next hup =>
    rw [Except.error.injEq, eq_comm]
    exact (and_iff_right hup).symm
  · next hup => exact iff_of_false (by rintro ⟨⟩) fun h => hup h.1

theorem normalForm_eq_ok_iff :
    normalForm p = .ok r ↔ ".." ∉ segments p ∧ r = render (names p) := by
  rw [normalForm_eq]
  split
  · next hup => exact iff_of_false (by rintro ⟨⟩) fun h => h.1 hup
  · next hup =>
    rw [Except.ok.injEq, eq_comm]
    exact (and_iff_right hup).symm

/-! ### One normal form -/

theorem isEntryName_of_normalForm (h : normalForm p = .ok r) : ∀ n ∈ names p, IsEntryName n := by
  have hup : ".." ∉ names p :=
    fun hmem => (normalForm_eq_ok_iff.mp h).1 (above_mem_names_iff.mp hmem)
  exact fun n hn => isEntryName_of_mem_names hn hup

/-- The names in a text are those in its normal form. -/
theorem names_of_normalForm (h : normalForm p = .ok r) : names r = names p := by
  rw [(normalForm_eq_ok_iff.mp h).2]
  exact names_render (isEntryName_of_normalForm h)

/-- The root, in which there are no names, is the only path with the empty text. -/
theorem eq_empty_iff_of_normalForm (h : normalForm p = .ok r) : r = "" ↔ names p = [] := by
  constructor
  · rintro rfl
    rw [← names_of_normalForm h]
    decide +kernel
  · intro hnone
    rw [(normalForm_eq_ok_iff.mp h).2, hnone]
    rfl

/-- Between the slashes there are the names, and nothing else. -/
theorem segments_of_normalForm (h : normalForm p = .ok r) (hne : r ≠ "") :
    segments r = names p := by
  have hnames : names p ≠ [] := fun hnone => hne ((eq_empty_iff_of_normalForm h).mpr hnone)
  rw [(normalForm_eq_ok_iff.mp h).2]
  exact segments_render hnames (isEntryName_of_normalForm h)

theorem normalForm_self (h : normalForm p = .ok r) : normalForm r = .ok r := by
  have hnames : names r = names p := names_of_normalForm h
  obtain ⟨hup, hr⟩ := normalForm_eq_ok_iff.mp h
  refine normalForm_eq_ok_iff.mpr ⟨?_, ?_⟩
  · rwa [← above_mem_names_iff, hnames, above_mem_names_iff]
  · rw [hnames, hr]

/-- There is a name on each side of a slash. -/
theorem ne_append_of_normalForm (h : normalForm p = .ok r) {t u : String} (hr : r = t ++ "/" ++ u) :
    "" ∉ segments t ∧ "" ∉ segments u := by
  have hne : r ≠ "" := by
    rintro rfl
    have hempty := congrArg String.toList hr
    simp at hempty
  have hno : "" ∉ segments t ++ segments u := by
    rw [← segments_append, ← hr, segments_of_normalForm h hne]
    exact fun hmem => (isEntryName_of_normalForm h _ hmem).ne_empty rfl
  rwa [List.mem_append, not_or] at hno

/-- What the normal form of a text is like. -/
structure IsNormalFormOf (r p : String) : Prop where
  /-- The names are joined by slashes, -/
  joined : r = "/".intercalate (names p)
  /-- and no segment is a point or leads upwards. None is empty either: the text of the root, which
  counts as one segment, is empty as a whole. -/
  plain : ∀ n ∈ segments r, n ≠ "." ∧ n ≠ ".." ∧ (n = "" → r = "")
  root : r = "" ↔ names p = []
  noneBefore : ¬r.startsWith '/'
  noneAfter : ¬r.endsWith '/'
  /-- Nothing is left to do. -/
  normal : normalForm r = .ok r

theorem isNormalFormOf (h : normalForm p = .ok r) : IsNormalFormOf r p where
  joined := (normalForm_eq_ok_iff.mp h).2
  plain := by
    intro n hn
    by_cases hr : r = ""
    · subst hr
      -- the only segment of the empty text is that text
      obtain rfl : n = "" := by simpa [segments_of_not_mem] using hn
      exact ⟨by decide, by decide, fun _ => rfl⟩
    · rw [segments_of_normalForm h hr] at hn
      have hname := isEntryName_of_normalForm h n hn
      exact ⟨hname.ne_here, hname.ne_above, fun hempty => absurd hempty hname.ne_empty⟩
  root := eq_empty_iff_of_normalForm h
  noneBefore := by
    intro hstart
    obtain ⟨t, ht⟩ := String.startsWith_char_iff_exists_append.mp hstart
    have hr : r = "" ++ "/" ++ t := by rw [ht, String.empty_append]; rfl
    exact (ne_append_of_normalForm h hr).1 (by decide +kernel)
  noneAfter := by
    intro hend
    obtain ⟨t, ht⟩ := String.endsWith_char_iff_exists_append.mp hend
    have hr : r = t ++ "/" ++ "" := by rw [ht, String.append_empty]; rfl
    exact (ne_append_of_normalForm h hr).2 (by decide +kernel)
  normal := normalForm_self h

/-! ### Two normal forms -/

theorem normalForm_eq_iff (hp : normalForm p = .ok r) (hq : normalForm q = .ok s) :
    r = s ↔ names p = names q := by
  constructor
  · rintro rfl
    rw [← names_of_normalForm hp, names_of_normalForm hq]
  · intro hnames
    rw [(normalForm_eq_ok_iff.mp hp).2, (normalForm_eq_ok_iff.mp hq).2, hnames]

/-- A slash between two texts stands between their normal forms, unless one of these is the root. -/
theorem normalForm_append (hp : normalForm p = .ok r) (hq : normalForm q = .ok s) (hr : r ≠ "")
    (hs : s ≠ "") : normalForm (p ++ "/" ++ q) = .ok (r ++ "/" ++ s) := by
  have hpnames : names p ≠ [] := fun hnone => hr ((eq_empty_iff_of_normalForm hp).mpr hnone)
  have hqnames : names q ≠ [] := fun hnone => hs ((eq_empty_iff_of_normalForm hq).mpr hnone)
  obtain ⟨hpup, rfl⟩ := normalForm_eq_ok_iff.mp hp
  obtain ⟨hqup, rfl⟩ := normalForm_eq_ok_iff.mp hq
  refine normalForm_eq_ok_iff.mpr ⟨?_, ?_⟩
  · rw [segments_append, List.mem_append, not_or]
    exact ⟨hpup, hqup⟩
  · rw [names_append]
    exact (String.intercalate_append_of_ne_nil hpnames hqnames).symm

/-- What there is to say about the normal forms of two texts. -/
structure NormalForms (p q : String) : Prop where
  /-- Only a text of which a segment leads upwards has none, and then the error names the text. -/
  fails : (∃ e, normalForm p = .error e) ↔ ".." ∈ segments p
  error : ∀ e, normalForm p = .error e → e = .invalidPath p
  form : ∀ r, normalForm p = .ok r → IsNormalFormOf r p
  /-- Texts have the same normal form if there are the same names in them. -/
  same : ∀ r s, normalForm p = .ok r → normalForm q = .ok s → (r = s ↔ names p = names q)
  /-- The path of a text inside that of another one. -/
  inside : ∀ r s, normalForm p = .ok r → normalForm q = .ok s → r ≠ "" → s ≠ "" →
    normalForm (p ++ "/" ++ q) = .ok (r ++ "/" ++ s)

/-- **Paths have normal forms.** A text has one unless a segment of it leads upwards; it consists of
the names in the text, with single slashes between them, and is its own normal form; two texts have
the same one if, and only if, there are the same names in them. -/
theorem paths_have_normal_forms (p q : String) : NormalForms p q where
  fails := by
    constructor
    · rintro ⟨e, he⟩
      exact (normalForm_eq_error_iff.mp he).1
    · intro hup
      exact ⟨.invalidPath p, normalForm_eq_error_iff.mpr ⟨hup, rfl⟩⟩
  error e he := (normalForm_eq_error_iff.mp he).2
  form r hr := isNormalFormOf hr
  same r s hr hs := normalForm_eq_iff hr hs
  inside r s hr hs hrne hsne := normalForm_append hr hs hrne hsne

/-- Superfluous slashes and points are left out, on both sides of a slash. -/
theorem paths_have_normal_forms_sample :
    normalForm "./a//b/" = .ok "a/b" ∧ normalForm "../c" = .error (.invalidPath "../c") ∧
      normalForm ("./a//b/" ++ "/" ++ "c/.") = .ok "a/b/c" := by
  have hp : normalForm "./a//b/" = .ok "a/b" := by decide +kernel
  have hq : normalForm "c/." = .ok "c" := by decide +kernel
  obtain ⟨e, he⟩ := (paths_have_normal_forms "../c" "c/.").fails.mpr (by decide +kernel)
  have herror := (paths_have_normal_forms "../c" "c/.").error e he
  refine ⟨hp, by rw [he, herror], ?_⟩
  exact (paths_have_normal_forms _ _).inside _ _ hp hq (by decide) (by decide)

end PlaneRestore.Path
