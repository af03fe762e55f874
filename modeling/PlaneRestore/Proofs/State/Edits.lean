import PlaneRestore.Proofs.State.Scan
/-!
States after any attempts to add files and directories.

* `ExportedState.afterEdits` is the state after some attempts, whether they succeed or fail.
* `ExportedState.IsTree` says that entries have paths and directories to be in, and that listings
  and walks come to all of them; `ExportedState.is_tree_after_edits` finds this after any attempts.
-/

namespace PlaneRestore.ExportedState

/-- An attempt to add an entry. -/
inductive Edit where
  | directory (path : String) (mode : Nat)
  | file (path : String) (contents : List UInt8) (mode : Nat)
deriving DecidableEq, Repr

def Edit.apply (s : ExportedState) : Edit → Except ImportError ExportedState
  | .directory path mode => s.addDirectory path mode
  | .file path contents mode => s.addFile path contents mode

/-- The state after an attempt. If it fails, nothing has changed. -/
def edited (s : ExportedState) (e : Edit) : ExportedState :=
  match e.apply s with
  | .ok s' => s'
  | .error _ => s

/-- The state after attempts to add entries to nothing. -/
def afterEdits (edits : List Edit) : ExportedState := edits.foldl edited empty

theorem Reachable.edited {s : ExportedState} (hs : s.Reachable) (e : Edit) :
    (s.edited e).Reachable := by
  rw [ExportedState.edited]
  split
  · next s' h =>
    cases e with
    | directory path mode => exact hs.addDirectory h
    | file path contents mode => exact hs.addFile h
  · exact hs

theorem reachable_afterEdits (edits : List Edit) : (afterEdits edits).Reachable := by
  induction edits using List.reverseRecOn with
  | nil => exact .empty
  | append_singleton edits e ih =>
    rw [afterEdits, List.foldl_append]
    exact ih.edited e

/-- A tree that its listings describe. -/
structure IsTree (s : ExportedState) : Prop where
  /-- Entries are not the root, and the texts of their paths are as plain as can be. -/
  plain : ∀ p ∈ Table.keys s.entries, p ≠ [] ∧ Path.parse? (Path.render p) = some p
  above : ∀ p ∈ Table.keys s.entries, ∀ q, q.IsAbove p →
    ∃ mode, Table.get? q s.entries = some (.directory mode)
  /-- Directories can be listed. What is directly inside is listed once, by name. -/
  listed : ∀ path p, Path.parse? path = some p → s.HasDirectory p →
    ∃ items : List Item, s.itemsOf path = .ok items ∧ items = s.scan p ∧
      items.Pairwise (fun a b => a.name < b.name) ∧
        ∀ item, item ∈ items ↔ ∃ e, Table.get? (p ++ [item.name]) s.entries = some e ∧
          item.isDir = e.isDirectory
  /-- A walk by listings comes to its end, and has visited all entries then. -/
  walked : ∃ items, s.itemsOf "/" = .ok items ∧
    ∀ visits, s.Walks [] items visits ↔ visits = Table.keys s.entries
  once : (Table.keys s.entries).Nodup
  /-- A directory is visited before what is inside. -/
  before : (Table.keys s.entries).Pairwise fun p q => ¬q.IsAbove p
  listing : s.listing = s.entries

/-- What is inside a directory does not come before it. -/
theorem WellFormed.keys_pairwise {s : ExportedState} (hs : s.WellFormed) :
    (Table.keys s.entries).Pairwise fun p q => ¬q.IsAbove p := by
  refine List.pairwise_map.mpr (hs.ordered.imp fun {a b} hlt habove => ?_)
  obtain ⟨-, r, hr, heq⟩ := habove
  have hgt : compare b.1 a.1 = .lt := heq ▸ Path.compare_lt_append b.1 hr
  exact absurd (Std.TransCmp.lt_trans hlt hgt) (by simp [Std.ReflCmp.compare_self])

theorem WellFormed.isTree {s : ExportedState} (hs : s.WellFormed) : s.IsTree where
  plain p hp :=
    have hsome := hs.mem_keys_iff.mp hp
    ⟨hs.ne_root p hsome, hs.parse?_render hsome⟩
  above p hp q hq := hs.isDirectory_of_isAbove hq (hs.mem_keys_iff.mp hp)
  listed path p hpath hp := by
    have hok : s.itemsOf path = .ok (s.items p) := (itemsOf_eq_ok_iff hpath).mpr ⟨hp, rfl⟩
    exact ⟨s.items p, hok, (hs.scan_eq_items hp).symm, hs.items_ordered p,
      fun item => hs.mem_items_iff⟩
  walked := by
    -- the walk over the root visits all that is below it
    have hwalk := hs.walks hs.within_size
    rw [hs.below_nil] at hwalk
    refine ⟨s.items [], (itemsOf_eq_ok_iff Path.parse?_root).mpr ⟨.inl rfl, rfl⟩, fun visits => ?_⟩
    constructor
    · intro h
      exact h.unique hwalk
    · rintro rfl
      exact hwalk
  once := hs.ordered.nodup_keys
  before := hs.keys_pairwise
  listing := hs.listing_eq

/-- Whatever is attempted, the state is a tree that its listings describe. -/
theorem is_tree_after_edits (edits : List Edit) : (afterEdits edits).IsTree :=
  (reachable_afterEdits edits).wellFormed.isTree

end PlaneRestore.ExportedState
