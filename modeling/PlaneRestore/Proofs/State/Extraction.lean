import PlaneRestore.Proofs.State.Addition
/-!
What is extracted from an archive.

* `Tar.Member.addition?` is what a member adds to an exported state. Members are taken in by making
  their additions: `ExportedState.ofMembers_eq_ok_iff`.
* `ExportedState.Fits` says which members can be taken in together, and
  `ExportedState.ExtractsFaithfully` what becomes of them; `ExportedState.extraction_is_faithful`
  finds this for the members of every archive that is read without a fault.
-/

namespace PlaneRestore

namespace Tar.Member

/-- A member that is read without a fault. -/
structure IsWhole (m : Member) : Prop where
  mode : m.mode?.isSome
  data : m.kind = .file → m.isReadable = true

/-- What a member adds to an exported state. The root is there anyway. -/
def addition? (m : Member) : Option (Path × Entry) := do
  let mode ← m.mode?
  let p ← Path.parse? m.name
  match m.kind with
  | .directory => if p = [] then none else some (p, .directory mode)
  | .file => some (p, .file mode m.data)
  | _ => none

/-- The member that adds an entry. -/
def ofEntry (p : Path) : Entry → Member
  | .directory mode => ⟨Path.render p, .directory, some mode, 0, [], true⟩
  | .file mode contents => ⟨Path.render p, .file, some mode, contents.length, contents, true⟩

theorem isWhole_ofEntry (p : Path) (e : Entry) : (ofEntry p e).IsWhole := by
  cases e with
  | directory mode => exact ⟨rfl, by simp [ofEntry]⟩
  | file mode contents => exact ⟨rfl, fun _ => rfl⟩

theorem addition?_ofEntry {p : Path} (hne : p ≠ []) (hp : Path.parse? (Path.render p) = some p)
    (e : Entry) : (ofEntry p e).addition? = some (p, e) := by
  cases e with
  | directory mode => simp [addition?, ofEntry, hp, hne]
  | file mode contents => simp [addition?, ofEntry, hp]

end Tar.Member

namespace ExportedState

variable {s s' : ExportedState} {path : String} {members : List Tar.Member} {m : Tar.Member}

def additions (members : List Tar.Member) : List (Path × Entry) := members.filterMap (·.addition?)

/-- A member that can be taken in unless others are in its way. -/
structure IsSuitable (m : Tar.Member) : Prop where
  known : m.kind = .directory ∨ m.kind = .file ∨ m.kind = .globalExtension
  inside : m.kind = .directory ∨ m.kind = .file → ".." ∉ Path.segments m.name
  below : m.kind = .file → Path.parse? m.name ≠ some []

theorem isSuitable_ofEntry {p : Path} (hne : p ≠ []) (hp : Path.parse? (Path.render p) = some p)
    (e : Entry) : IsSuitable (.ofEntry p e) := by
  have hinside : ".." ∉ Path.segments (Path.render p) :=
    Path.parse?_isSome_iff.mp (Option.isSome_of_eq_some hp)
  cases e with
  | directory mode => exact ⟨.inl rfl, fun _ => hinside, by simp [Tar.Member.ofEntry]⟩
  | file mode contents =>
    refine ⟨.inr (.inl rfl), fun _ => hinside, fun _ hroot => ?_⟩
    exact hne (Option.some.inj (hp.symm.trans hroot))

/-- A suitable member is taken in by placing what it adds. -/
theorem addMember_eq_ok_iff (h : m.IsWhole) :
    addMember path s m = .ok s' ↔ IsSuitable m ∧
      (m.addition?.elim (s = s') fun a => s.place a.1 a.2 = .ok s') := by
  obtain ⟨mode, hmode⟩ := Option.isSome_iff_exists.mp h.mode
  have hinside : ∀ {p}, Path.parse? m.name = some p → ".." ∉ Path.segments m.name :=
    fun hp => Path.parse?_isSome_iff.mp (Option.isSome_of_eq_some hp)
  rw [addMember, hmode]
  cases hk : m.kind with
  | directory =>
    -- the root is there already, and so adds nothing
    have hadd : ∀ p, Path.parse? m.name = some p →
        ((m.addition?.elim (s = s') fun a => s.place a.1 a.2 = .ok s') ↔
          if p = [] then s = s' else s.place p (.directory mode) = .ok s') := by
      intro p hp
      by_cases hne : p = [] <;> simp [Tar.Member.addition?, hmode, hp, hk, hne]
    refine addDirectory_eq_ok_iff.trans ⟨?_, ?_⟩
    · rintro ⟨p, hp, hplace⟩
      exact ⟨⟨.inl hk, fun _ => hinside hp, fun hf => by simp [hk] at hf⟩, (hadd p hp).mpr hplace⟩
    · rintro ⟨hsuit, hplace⟩
      obtain ⟨p, hp⟩ :=
        Option.isSome_iff_exists.mp (Path.parse?_isSome_iff.mpr (hsuit.inside (.inl hk)))
      exact ⟨p, hp, (hadd p hp).mp hplace⟩
  | file =>
    have hadd : ∀ p, Path.parse? m.name = some p → m.addition? = some (p, .file mode m.data) := by
      intro p hp
      simp [Tar.Member.addition?, hmode, hp, hk]
    dsimp only
    rw [if_pos (h.data hk), addFile_eq_ok_iff]
    constructor
    · rintro ⟨p, hp, hne, hplace⟩
      refine ⟨⟨.inr (.inl hk), fun _ => hinside hp, fun _ => by simpa [hp] using hne⟩, ?_⟩
      rwa [hadd p hp]
    · rintro ⟨hsuit, hplace⟩
      obtain ⟨p, hp⟩ :=
        Option.isSome_iff_exists.mp (Path.parse?_isSome_iff.mpr (hsuit.inside (.inr hk)))
      refine ⟨p, hp, fun hne => hsuit.below hk (by rw [hp, hne]), ?_⟩
      rwa [hadd p hp] at hplace
  | globalExtension =>
    have hadd : m.addition? = none := by
      cases hp : Path.parse? m.name <;> simp [Tar.Member.addition?, hmode, hk, hp]
    rw [hadd]
    constructor
    · rintro ⟨⟩
      exact ⟨⟨.inr (.inr hk), fun hor => by simp [hk] at hor, fun hf => by simp [hk] at hf⟩, rfl⟩
    · rintro ⟨-, rfl⟩
      rfl
  -- of every other kind neither side can be
  | _ =>
    constructor
    · intro hok
      cases hok
    · intro hok
      exact absurd hok.1.known (by simp [hk])

/-- Members are taken in by placing what they add, if all of them are suitable. -/
theorem ofMembers_eq_ok_iff (h : ∀ m ∈ members, m.IsWhole) :
    ofMembers path members = .ok s ↔
      (∀ m ∈ members, IsSuitable m) ∧ placeAll (additions members) = .ok s := by
  induction members using List.reverseRecOn generalizing s with
  | nil => exact ⟨fun hok => ⟨fun m hm => absurd hm List.not_mem_nil, hok⟩, fun hok => hok.2⟩
  | append_singleton members m ih =>
    have hfold : ofMembers path (members ++ [m]) = .ok s ↔
        ∃ s₁, ofMembers path members = .ok s₁ ∧ addMember path s₁ m = .ok s := by
      rw [ofMembers, List.foldlM_append, bind_eq_ok_iff]
      simp only [List.foldlM_cons, List.foldlM_nil, bind_pure]
      rfl
    have hbefore : ∀ m ∈ members, m.IsWhole := fun m hm => h m (List.mem_append_left _ hm)
    -- a member adds one thing at most
    have hlast : (additions (members ++ [m])) = additions members ++ m.addition?.toList := by
      rw [additions, List.filterMap_append]
      cases ha : m.addition? <;> simp [additions, ha]
    rw [hfold, hlast]
    simp only [ih hbefore, addMember_eq_ok_iff (h m (by simp)), List.mem_append,
      List.mem_singleton]
    -- what adds nothing leaves the state as it is
    cases m.addition? with
    | none =>
      simp only [Option.elim_none, Option.toList_none, List.append_nil]
      constructor
      · rintro ⟨s₁, ⟨hsuit, hplaced⟩, hm, rfl⟩
        exact ⟨fun m' hm' => hm'.elim (hsuit m') fun heq => heq ▸ hm, hplaced⟩
      · rintro ⟨hsuit, hplaced⟩
        exact ⟨s, ⟨fun m' hm' => hsuit m' (.inl hm'), hplaced⟩, hsuit m (.inr rfl), rfl⟩
    | some a =>
      simp only [Option.elim_some, Option.toList_some, placeAll_concat_eq_ok]
      constructor
      · rintro ⟨s₁, ⟨hsuit, hplaced⟩, hm, hplace⟩
        exact ⟨fun m' hm' => hm'.elim (hsuit m') fun heq => heq ▸ hm, s₁, hplaced, hplace⟩
      · rintro ⟨hsuit, s₁, hplaced, hplace⟩
        exact ⟨s₁, ⟨fun m' hm' => hsuit m' (.inl hm'), hplaced⟩, hsuit m (.inr rfl), hplace⟩

theorem allNamed_additions (hsuit : ∀ m ∈ members, IsSuitable m) :
    AllNamed (additions members) := by
  rintro ⟨p, e⟩ ha
  obtain ⟨m, hm, hadd⟩ := List.mem_filterMap.mp ha
  simp only [Tar.Member.addition?, Option.bind_eq_bind, Option.bind_eq_some_iff] at hadd
  obtain ⟨mode, -, p', hp, hadd⟩ := hadd
  -- a directory that is the root adds nothing, and a suitable file is not the root
  have hp' : p = p' ∧ p' ≠ [] := by
    split at hadd
    · split at hadd
      · cases hadd
      · next hne =>
        cases hadd
        exact ⟨rfl, hne⟩
    · next hk =>
      cases hadd
      exact ⟨rfl, fun hne => (hsuit m hm).below hk (by rw [hp, hne])⟩
    · cases hadd
  obtain ⟨rfl, hne⟩ := hp'
  exact ⟨hne, Path.isEntryName_of_parse? hp⟩

/-- Members that can be taken in together. -/
structure Fits (members : List Tar.Member) : Prop where
  suitable : ∀ m ∈ members, IsSuitable m
  apart : IsClashFree (additions members)

theorem exists_ofMembers_iff (path : String) (h : ∀ m ∈ members, m.IsWhole) :
    (∃ s, ofMembers path members = .ok s) ↔ Fits members := by
  simp only [ofMembers_eq_ok_iff h]
  constructor
  · rintro ⟨s, hsuit, hplaced⟩
    exact ⟨hsuit, (exists_placeAll_iff (allNamed_additions hsuit)).mp ⟨s, hplaced⟩⟩
  · rintro ⟨hsuit, hapart⟩
    obtain ⟨s, hplaced⟩ := (exists_placeAll_iff (allNamed_additions hsuit)).mpr hapart
    exact ⟨s, hsuit, hplaced⟩

theorem Fits.perm {members' : List Tar.Member} (h : Fits members) (hperm : members.Perm members') :
    Fits members' :=
  ⟨fun m hm => h.suitable m (hperm.mem_iff.mpr hm), h.apart.perm (hperm.filterMap _)⟩

/-- What was taken in is a tree with what the members add. -/
theorem extracted {path : String} (h : ∀ m ∈ members, m.IsWhole)
    (hok : ofMembers path members = .ok s) :
    s.WellFormed ∧ ∀ p, Table.get? p s.entries = added (additions members) p := by
  obtain ⟨hsuit, hplaced⟩ := (ofMembers_eq_ok_iff h).mp hok
  exact placed (allNamed_additions hsuit) hplaced

/-- Taking in the entries of a tree, in any order, gives the tree. -/
theorem ofMembers_entries (path : String) (hs : s.WellFormed) {entries : List (Path × Entry)}
    (hperm : entries.Perm s.entries) :
    ofMembers path (entries.map fun e => .ofEntry e.1 e.2) = .ok s := by
  have hnamed : ∀ e ∈ entries, e.1 ≠ [] ∧ Path.parse? (Path.render e.1) = some e.1 := by
    intro e he
    have hsome : (Table.get? e.1 s.entries).isSome :=
      Option.isSome_of_eq_some (hs.ordered.mem_iff_get?.mp (hperm.mem_iff.mp he))
    exact ⟨hs.ne_root e.1 hsome, hs.parse?_render hsome⟩
  -- each of these members adds the entry that it was made from
  have hadds : additions (entries.map fun e => .ofEntry e.1 e.2) = entries := by
    rw [additions, List.filterMap_map]
    refine (List.filterMap_congr fun e he => ?_).trans List.filterMap_some
    exact Tar.Member.addition?_ofEntry (hnamed e he).1 (hnamed e he).2 e.2
  have hwhole : ∀ m ∈ entries.map (fun e => Tar.Member.ofEntry e.1 e.2), m.IsWhole := by
    intro m hm
    obtain ⟨e, -, rfl⟩ := List.mem_map.mp hm
    exact Tar.Member.isWhole_ofEntry e.1 e.2
  have hsuit : ∀ m ∈ entries.map (fun e => Tar.Member.ofEntry e.1 e.2), IsSuitable m := by
    intro m hm
    obtain ⟨e, he, rfl⟩ := List.mem_map.mp hm
    exact isSuitable_ofEntry (hnamed e he).1 (hnamed e he).2 e.2
  have hclash : IsClashFree (additions (entries.map fun e => .ofEntry e.1 e.2)) := by
    rw [hadds]
    exact isClashFree_entries hs hperm
  obtain ⟨s', hs'⟩ := (exists_ofMembers_iff path hwhole).mpr ⟨hsuit, hclash⟩
  obtain ⟨hwf, hget⟩ := extracted hwhole hs'
  have heq : s' = s := by
    refine hwf.ext hs fun p => ?_
    rw [hget, hadds, added_entries hs hperm]
  rw [hs', heq]

/-- What becomes of the members of an archive that are read without a fault. -/
structure ExtractsFaithfully (path : String) (members : List Tar.Member) : Prop where
  /-- An archive with these members is extracted by taking them in. -/
  read : ∀ bytes, Gzip.magic.isPrefixOf bytes = true →
    Tar.members (Gzip.Stream.ofGzip bytes) = (members, false) →
      extract path (.file bytes) false = ofMembers path members
  succeeds : (∃ s, ofMembers path members = .ok s) ↔ Fits members
  holds : ∀ s, ofMembers path members = .ok s →
    ∀ p, Table.get? p s.entries = added (additions members) p
  /-- The order of the members does not matter to whether they are taken in, and not to what comes
  of it either unless two of them are for one path. -/
  reordered : ∀ members' : List Tar.Member, members.Perm members' →
    ((∃ s, ofMembers path members' = .ok s) ↔ ∃ s, ofMembers path members = .ok s) ∧
      ((Table.keys (additions members)).Nodup →
        ∀ s, ofMembers path members = .ok s → ofMembers path members' = .ok s)
  /-- The entries of the state, taken in again in any order, give the same state. -/
  replayed : ∀ s, ofMembers path members = .ok s → ∀ entries : List (Path × Entry),
    entries.Perm s.entries → ofMembers path (entries.map fun e => .ofEntry e.1 e.2) = .ok s

theorem extraction_is_faithful (path : String) {members : List Tar.Member}
    (hwhole : ∀ m ∈ members, m.IsWhole) : ExtractsFaithfully path members where
  read bytes hmagic hmembers := by
    rw [extract, hmagic, hmembers]
    exact bind_pure (ofMembers path members)
  succeeds := exists_ofMembers_iff path hwhole
  holds s h := (extracted hwhole h).2
  reordered members' hperm := by
    have hwhole' : ∀ m ∈ members', m.IsWhole := fun m hm => hwhole m (hperm.mem_iff.mpr hm)
    have hiff : (∃ s, ofMembers path members' = .ok s) ↔ ∃ s, ofMembers path members = .ok s := by
      rw [exists_ofMembers_iff path hwhole, exists_ofMembers_iff path hwhole']
      exact ⟨fun h => h.perm hperm.symm, fun h => h.perm hperm⟩
    refine ⟨hiff, fun hnodup s hs => ?_⟩
    obtain ⟨s', hs'⟩ := hiff.mpr ⟨s, hs⟩
    obtain ⟨hwf, hget⟩ := extracted hwhole hs
    obtain ⟨hwf', hget'⟩ := extracted hwhole' hs'
    have hadded : ∀ p, added (additions members) p = added (additions members') p :=
      added_perm (hperm.filterMap _) hnodup
    have heq : s' = s := by
      -- well-formed states with the same entries are the same
      refine hwf'.ext hwf fun p => ?_
      rw [hget, hget', hadded]
    rw [hs', heq]
  replayed s hs entries hperm := ofMembers_entries path (extracted hwhole hs).1 hperm

namespace Sample

/-- Members of an archive: a file before its directory, and paths in several spellings. -/
def archived : List Tar.Member :=
  [⟨"./", .directory, some 0o755, 0, [], true⟩,
    ⟨"pax", .globalExtension, some 0o644, 0, [], true⟩,
    ⟨"./namespaces//team.yaml", .file, some 0o600, 3, [1, 2, 3], true⟩,
    ⟨"namespaces/", .directory, some 0o700, 0, [], true⟩,
    ⟨"pods/a/b", .directory, some 0o750, 0, [], true⟩]

/-- What they add up to. -/
def extracted : ExportedState :=
  ⟨[(["namespaces"], .directory 0o700), (["namespaces", "team.yaml"], .file 0o600 [1, 2, 3]),
    (["pods"], .directory implicitMode), (["pods", "a"], .directory implicitMode),
    (["pods", "a", "b"], .directory 0o750)]⟩

end Sample

theorem extraction_is_faithful_sample :
    (∀ m ∈ Sample.archived, m.IsWhole) ∧ Fits Sample.archived ∧
      ofMembers "export.tar.gz" Sample.archived.reverse = .ok Sample.extracted := by
  have hwhole : ∀ m ∈ Sample.archived, m.IsWhole := by
    have hall : ∀ m ∈ Sample.archived,
        m.mode?.isSome ∧ (m.kind = .file → m.isReadable = true) := by decide +kernel
    exact fun m hm => ⟨(hall m hm).1, (hall m hm).2⟩
  have hok : ofMembers "export.tar.gz" Sample.archived = .ok Sample.extracted := by
    have hsome : (ofMembers "export.tar.gz" Sample.archived).toOption = some Sample.extracted := by
      decide +kernel
    cases hmembers : ofMembers "export.tar.gz" Sample.archived with
    | error e => cases hmembers ▸ hsome
    | ok s => rw [hmembers] at hsome; exact congrArg _ (Option.some.inj hsome)
  have hfaithful := extraction_is_faithful "export.tar.gz" hwhole
  have hnodup : (Table.keys (additions Sample.archived)).Nodup := by decide +kernel
  exact ⟨hwhole, hfaithful.succeeds.mp ⟨_, hok⟩,
    (hfaithful.reordered _ (List.reverse_perm _).symm).2 hnodup _ hok⟩

end ExportedState

end PlaneRestore
