import Mathlib.Data.List.Sort
import PlaneRestore.Proofs.State.Listing
/-!
Directories, listed by looking through the texts of paths.

A state can as well be kept by the texts of its paths, in the order of the texts: `byText`. What is
inside a directory then is next to each other, since these texts begin alike, even though names with
characters before the slash come between a directory and what is inside. `ExportedState.scan` lists
a directory in this way, and `WellFormed.scan_eq_items` finds that it is the same list.
-/

namespace PlaneRestore

/-! ### Texts with the same beginning -/

theorem ofList_cons_lt_iff {c d : Char} {cs ds : List Char} :
    String.ofList (c :: cs) < String.ofList (d :: ds) ↔
      c < d ∨ c = d ∧ String.ofList cs < String.ofList ds := by
  simp only [String.lt_iff, String.toList_ofList, List.cons_lt_cons_iff]

/-- In the order of texts, those that begin alike are next to each other. -/
theorem isPrefix_of_not_lt {start a b : List Char} (ha : ¬String.ofList a < String.ofList start)
    (hab : ¬String.ofList b < String.ofList a) (hb : start <+: b) : start <+: a := by
  induction start generalizing a b with
  | nil => exact List.nil_prefix
  | cons c start ih =>
    obtain ⟨r, rfl⟩ := hb
    cases a with
    | nil =>
      rw [String.lt_iff, String.toList_ofList, String.toList_ofList] at ha
      exact absurd (List.nil_lt_cons c start) ha
    | cons x a =>
      rw [List.cons_append] at hab
      rw [ofList_cons_lt_iff, not_or] at ha hab
      -- the first letter is neither less nor greater
      obtain rfl : x = c := Char.le_antisymm (Char.not_lt.mp hab.1) (Char.not_lt.mp ha.1)
      have ha' : ¬String.ofList a < String.ofList start := fun h => ha.2 ⟨rfl, h⟩
      have hab' : ¬String.ofList (start ++ r) < String.ofList a := fun h => hab.2 ⟨rfl, h⟩
      exact List.cons_prefix_cons.mpr ⟨rfl, ih ha' hab' (List.prefix_append _ _)⟩

section

variable {α : Type} {q : α → Bool} {l : List α}

theorem takeWhile_eq_filter (h : l.Pairwise fun a b => q b = true → q a = true) :
    l.takeWhile q = l.filter q := by
  induction l with
  | nil => rfl
  | cons a l ih =>
    obtain ⟨hfirst, hrest⟩ := List.pairwise_cons.mp h
    by_cases ha : q a = true
    · rw [List.takeWhile_cons_of_pos ha, List.filter_cons_of_pos ha, ih hrest]
    · have hnone : ∀ b ∈ l, ¬q b = true := fun b hb hq => ha (hfirst b hb hq)
      rw [List.takeWhile_cons_of_neg ha, List.filter_cons_of_neg ha,
        List.filter_eq_nil_iff.mpr hnone]

theorem dropWhile_eq_filter (h : l.Pairwise fun a b => q b = true → q a = true) :
    l.dropWhile q = l.filter (!q ·) := by
  induction l with
  | nil => rfl
  | cons a l ih =>
    obtain ⟨hfirst, hrest⟩ := List.pairwise_cons.mp h
    by_cases ha : q a = true
    · rw [List.dropWhile_cons_of_pos ha, List.filter_cons_of_neg (by simp [ha]), ih hrest]
    · have hall : ∀ b ∈ a :: l, (!q b) = true := by
        intro b hb
        rcases List.mem_cons.mp hb with rfl | hb
        · simp [ha]
        · simpa using fun hq => ha (hfirst b hb hq)
      rw [List.dropWhile_cons_of_neg ha, List.filter_eq_self.mpr hall]

/-- From a text on, as long as texts begin with it, there are all those that begin with it. -/
theorem takeWhile_dropWhile_eq_filter {t : List (String × α)} (ht : Table.Ordered t)
    (start : String) :
    (t.dropWhile fun e => e.1 < start).takeWhile (fun e => start.toList.isPrefixOf e.1.toList)
      = t.filter fun e => start.toList.isPrefixOf e.1.toList := by
  have hlt : t.Pairwise fun a b => a.1 < b.1 := ht.imp fun h => compareOfLessAndEq_eq_lt.mp h
  have hdrop : t.dropWhile (fun e => e.1 < start) = t.filter fun e => !decide (e.1 < start) := by
    refine dropWhile_eq_filter (hlt.imp fun hab hb => ?_)
    rw [decide_eq_true_eq] at hb ⊢
    exact String.lt_trans hab hb
  have htake : (t.filter fun e => !decide (e.1 < start)).Pairwise fun a b =>
      start.toList.isPrefixOf b.1.toList = true → start.toList.isPrefixOf a.1.toList = true := by
    refine (hlt.filter _).imp_of_mem fun {a b} ha _ hab hb => ?_
    have hstart : ¬a.1 < start := by simpa using (List.mem_filter.mp ha).2
    have hafter : ¬b.1 < a.1 := fun hba => String.lt_irrefl _ (String.lt_trans hab hba)
    rw [List.isPrefixOf_iff_prefix] at hb ⊢
    rw [← String.ofList_toList (s := a.1), ← String.ofList_toList (s := start)] at hstart
    rw [← String.ofList_toList (s := a.1), ← String.ofList_toList (s := b.1)] at hafter
    exact isPrefix_of_not_lt hstart hafter hb
  rw [hdrop, takeWhile_eq_filter htake, List.filter_filter]
  refine List.filter_congr fun e _ => ?_
  -- a text that begins with another one does not come before it
  cases hprefix : start.toList.isPrefixOf e.1.toList with
  | false => rfl
  | true =>
    have hle := (List.isPrefixOf_iff_prefix.mp hprefix).le
    have hnot : ¬e.1 < start := by
      rw [String.lt_iff]
      exact List.not_lt.mpr hle
    simp [hnot]

end

namespace ExportedState

variable {s : ExportedState} {p : Path}

/-- The entries by the texts of their paths, in the order of the texts. -/
def byText (s : ExportedState) : List (String × Entry) :=
  Table.ofList (s.entries.map fun e => (Path.render e.1, e.2))

/-- The item of a directory that an entry is, by what the text of its path goes on with. -/
def itemAfter? (start : String) (e : String × Entry) : Option Item :=
  let rest := e.1.toList.drop start.toList.length
  if '/' ∈ rest then none else some ⟨String.ofList rest, e.2.isDirectory⟩

/-- Lists a directory by looking through the texts of paths: from the first one that can begin like
those inside the directory, for as long as they do, and past those that go on to another
directory. -/
def scan (s : ExportedState) (p : Path) : List Item :=
  ((s.byText.dropWhile fun e => e.1 < p.inside).takeWhile fun e =>
    p.inside.toList.isPrefixOf e.1.toList).filterMap (itemAfter? p.inside)

theorem WellFormed.render_inj (hs : s.WellFormed) {a b : Path × Entry} (ha : a ∈ s.entries)
    (hb : b ∈ s.entries) (h : Path.render a.1 = Path.render b.1) : a = b := by
  have hget : ∀ {e}, e ∈ s.entries → Table.get? e.1 s.entries = some e.2 :=
    fun he => hs.ordered.mem_iff_get?.mp he
  have hpath : a.1 = b.1 := by
    have hparse := hs.parse?_render (Option.isSome_of_eq_some (hget ha))
    rw [h, hs.parse?_render (Option.isSome_of_eq_some (hget hb))] at hparse
    exact (Option.some.inj hparse).symm
  have hentry := hget ha
  rw [hpath, hget hb] at hentry
  exact Prod.ext hpath (Option.some.inj hentry).symm

/-- The entries by the texts of their paths are the entries. -/
theorem WellFormed.mem_byText_iff (hs : s.WellFormed) {text : String} {e : Entry} :
    (text, e) ∈ s.byText ↔ ∃ q, Table.get? q s.entries = some e ∧ Path.render q = text := by
  have hnodup : (Table.keys (s.entries.map fun e => (Path.render e.1, e.2))).Nodup := by
    rw [Table.keys, List.map_map]
    exact (List.Nodup.of_map _ hs.ordered.nodup_keys).map_on
      fun a ha b hb h => hs.render_inj ha hb h
  rw [byText, (Table.ofList_perm hnodup).mem_iff, List.mem_map]
  constructor
  · rintro ⟨⟨q, e'⟩, hmem, heq⟩
    obtain ⟨rfl, rfl⟩ := Prod.mk.inj heq
    exact ⟨q, hs.ordered.mem_iff_get?.mp hmem, rfl⟩
  · rintro ⟨q, hget, rfl⟩
    exact ⟨(q, e), hs.ordered.mem_iff_get?.mpr hget, rfl⟩

theorem scan_eq (s : ExportedState) (p : Path) : s.scan p = s.byText.filterMap fun e =>
    if p.inside.toList.isPrefixOf e.1.toList then itemAfter? p.inside e else none := by
  have hordered : Table.Ordered s.byText := Table.ordered_ofList _
  rw [scan, takeWhile_dropWhile_eq_filter hordered, List.filterMap_filter]

theorem itemAfter?_eq_some_iff {start : String} {e : String × Entry} {item : Item} :
    (if start.toList.isPrefixOf e.1.toList then itemAfter? start e else none) = some item ↔
      e.1 = start ++ item.name ∧ '/' ∉ item.name.toList ∧ item.isDir = e.2.isDirectory := by
  obtain ⟨name, isDir⟩ := item
  obtain ⟨text, e⟩ := e
  constructor
  · intro h
    split at h
    · next hprefix =>
      -- the text is the start and a rest, and the rest is the name
      obtain ⟨rest, hrest⟩ := List.isPrefixOf_iff_prefix.mp hprefix
      simp only [itemAfter?, ← hrest, List.drop_left] at h
      split at h
      · cases h
      · next hslash =>
        cases h
        refine ⟨?_, by simpa using hslash, rfl⟩
        rw [← String.toList_inj, ← hrest, String.toList_append, String.toList_ofList]
    · cases h
  · rintro ⟨htext, hslash, rfl⟩
    obtain rfl : text = start ++ name := htext
    simp [itemAfter?, hslash]

theorem WellFormed.mem_scan_iff (hs : s.WellFormed) (hp : s.HasDirectory p) {item : Item} :
    item ∈ s.scan p ↔ ∃ e, Table.get? (p ++ [item.name]) s.entries = some e ∧
      item.isDir = e.isDirectory := by
  have hnames : ∀ m ∈ p, Path.IsEntryName m := by
    rcases hp with rfl | ⟨mode, hmode⟩
    · simp
    · exact hs.named p (Option.isSome_of_eq_some hmode)
  simp only [scan_eq, List.mem_filterMap, itemAfter?_eq_some_iff, Prod.exists, hs.mem_byText_iff]
  constructor
  · rintro ⟨_, e, ⟨q, hget, rfl⟩, htext, hslash, hdir⟩
    have hq : (Table.get? q s.entries).isSome := Option.isSome_of_eq_some hget
    have hconcat := Path.eq_concat_of_render hnames (hs.ne_root q hq) (hs.named q hq) hslash htext
    exact ⟨e, hconcat ▸ hget, hdir⟩
  · rintro ⟨e, hget, hdir⟩
    have hslash := (hs.named _ (Option.isSome_of_eq_some hget) item.name (by simp)).no_slash
    exact ⟨_, e, ⟨_, hget, rfl⟩, Path.render_concat p item.name, hslash, hdir⟩

/-- The names in a directory are in their order also if one looks through texts. -/
theorem scan_ordered (s : ExportedState) (p : Path) :
    (s.scan p).Pairwise fun a b => a.name < b.name := by
  rw [scan_eq]
  refine List.Pairwise.filterMap _ ?_ (Table.ordered_ofList _)
  intro a b hab item hitem item' hitem'
  obtain ⟨ha, -, -⟩ := itemAfter?_eq_some_iff.mp hitem
  obtain ⟨hb, -, -⟩ := itemAfter?_eq_some_iff.mp hitem'
  have hlt : a.1 < b.1 := compareOfLessAndEq_eq_lt.mp hab
  rw [ha, hb, String.lt_iff, String.toList_append, String.toList_append] at hlt
  by_contra hnot
  rw [String.lt_iff] at hnot
  exact List.not_lt.mpr (List.append_left_le (List.not_lt.mp hnot)) hlt

/-- Looking through the texts of paths lists a directory. -/
theorem WellFormed.scan_eq_items (hs : s.WellFormed) (hp : s.HasDirectory p) :
    s.scan p = s.items p := by
  have : Std.Irrefl fun a b : Item => a.name < b.name := ⟨fun a => String.lt_irrefl a.name⟩
  have : Std.Antisymm fun a b : Item => a.name < b.name :=
    ⟨fun a b hab hba => absurd (String.lt_trans hab hba) (String.lt_irrefl a.name)⟩
  refine (scan_ordered s p).eq_of_mem_iff (hs.items_ordered p) fun item => ?_
  rw [hs.mem_scan_iff hp, hs.mem_items_iff]

/-- A name with a character before the slash comes between a directory and what is inside. -/
example : (⟨[(["a"], .directory 0), (["a", "x"], .file 0 []), (["a-b"], .directory 0)]⟩ :
    ExportedState).byText.map (·.1) = ["a", "a-b", "a/x"] := by decide +kernel

end ExportedState

end PlaneRestore
