import PlaneRestore.Proofs.Import.OneGroup
/-!
When an importer finds out which kinds are created paused.

* `GroupImport` is the import of one group; `ImportsGroups` says that several are imported by an
  importer that remembers what it has found out.
* `kindsKnown` are the kinds that were found out in some imports: those of the first one in which
  all three categories were resolved. `ImportsGroups.pausable`: they are what the importer
  remembers.

`pausable_kinds_are_found_once`: categories are resolved only for manifests that may have to be
paused, one after another, and never again after all have been resolved.
-/

namespace PlaneRestore

open Words

/-! ### The kinds that were found -/

def Call.isResolution : Call → Bool
  | .resolve _ => true
  | _ => false

/-- The union of the kinds of the three categories, if a log begins with their resolutions. -/
def kindsFound : List LoggedCall → Option (List GroupKind)
  | ⟨.resolve .claim, some (.ok claims)⟩ :: ⟨.resolve .composite, some (.ok composites)⟩ ::
      ⟨.resolve .managed, some (.ok managed)⟩ :: _ =>
    some (kindsOf claims ++ kindsOf composites ++ kindsOf managed)
  | _ => none

/-- The import of a group that came to its end. -/
structure GroupImport where
  group : String
  pause : Bool
  turns : Turns
  result : Except ImportError Nat

/-- What is known after some imports: what the first of them has found that has found anything. -/
def kindsKnown (imports : List GroupImport) : Option (List GroupKind) :=
  imports.findSome? fun i => kindsFound (callLog i.turns)

/-- Groups are imported one after another. -/
inductive ImportsGroups (s : ExportedState) : Memory → List GroupImport → Memory → Prop
  | nil (m : Memory) : ImportsGroups s m [] m
  | concat {m m₁ m' : Memory} {before : List GroupImport} {i : GroupImport}
      (first : ImportsGroups s m before m₁)
      (last : (Work.importGroup s i.group i.pause).Led m₁ i.turns (some (i.result, m'))) :
      ImportsGroups s m (before ++ [i]) m'

variable {s : ExportedState} {group : String} {pause : Bool} {made : Resource → Resource}
  {ms : List Manifest} {known known' : Option (List GroupKind)} {log u v : List LoggedCall}

theorem Resolves.nil_ok {kinds : List GroupKind} (h : Resolves [] log (.ok kinds)) :
    log = [] ∧ kinds = [] := by
  cases h
  exact ⟨rfl, rfl⟩

theorem Resolves.cons_ok {c : Category} {cs : List Category} {kinds : List GroupKind}
    (h : Resolves (c :: cs) log (.ok kinds)) :
    ∃ mappings rest kinds', log = ⟨.resolve c, some (.ok mappings)⟩ :: rest ∧
      Resolves cs rest (.ok kinds') ∧ kinds = kindsOf mappings ++ kinds' := by
  generalize hresult : (.ok kinds : Except ImportError _) = result at h
  cases h with
  | refused | givenUp => cases hresult
  | cons rest =>
    obtain ⟨kinds', rfl, hkinds⟩ := map_eq_ok_iff.mp hresult.symm
    exact ⟨_, _, kinds', rfl, rest, hkinds.symm⟩

theorem Resolves.length_le {cs : List Category} {result : Except ImportError (List GroupKind)}
    (h : Resolves cs log result) : log.length ≤ cs.length := by
  induction h with
  | nil => exact Nat.le_refl 0
  | refused | givenUp => exact Nat.succ_le_succ (Nat.zero_le _)
  | cons _ ih => exact Nat.succ_le_succ ih

theorem kindsFound_of_resolves {kinds : List GroupKind}
    (h : Resolves Category.pausable u (.ok kinds)) (v : List LoggedCall) :
    kindsFound (u ++ v) = some kinds := by
  obtain ⟨claims, u₁, kinds₁, rfl, h₁, rfl⟩ := h.cons_ok
  obtain ⟨composites, u₂, kinds₂, rfl, h₂, rfl⟩ := h₁.cons_ok
  obtain ⟨managed, u₃, kinds₃, rfl, h₃, rfl⟩ := h₂.cons_ok
  obtain ⟨rfl, rfl⟩ := h₃.nil_ok
  rw [List.append_nil, ← List.append_assoc]
  rfl

/-- Where it has failed to resolve the categories, nothing is found. -/
theorem kindsFound_of_fails {e : ImportError} (h : Resolves Category.pausable u (.error e)) :
    kindsFound u = none := by
  have hlen := h.length_le
  have hstops := h.stops.ok_iff
  unfold kindsFound
  split
  · next claims composites managed rest =>
    -- three calls are all that can have been made, and all of them were accepted
    obtain rfl : rest = [] := by
      simp only [List.length_cons, Category.pausable, List.length_nil] at hlen
      exact List.length_eq_zero_iff.mp (by omega)
    obtain ⟨_, hok⟩ := hstops.mpr (by simp [LoggedCall.isAccepted, Call.accepts, Except.isOk,
      Except.toBool])
    cases hok
  · rfl

/-- Nothing is found where nothing is resolved. -/
theorem kindsFound_eq_none (h : ∀ e ∈ log, e.call.isResolution = false) :
    kindsFound log = none := by
  unfold kindsFound
  split
  · exact absurd (h _ List.mem_cons_self) (by simp [Call.isResolution])
  · rfl

/-! ### One import -/

/-- The objects that are created are those of the manifests, paused if they are of some kinds. -/
def CreatesPaused (kinds : List GroupKind) (ms : List Manifest) (log : List LoggedCall) : Prop :=
  ∀ e ∈ log, ∀ mapping r, e.call = .create mapping r →
    ∃ man ∈ ms, r = (pausedIn kinds man.resource).withoutServerFields

theorem Handled.createsPaused {kinds : List GroupKind} {result : Except ImportError Nat}
    (h : Handled group (pausedIn kinds) ms log result) : CreatesPaused kinds ms log := by
  intro e he mapping r hcreate
  obtain ⟨man, hman, hcall | ⟨mapping', hcall⟩⟩ := h.isCallFor e he
  · cases hcreate.symm.trans hcall
  · cases hcreate.symm.trans hcall
    exact ⟨man, hman, rfl⟩

theorem Handled.not_isResolution {result : Except ImportError Nat}
    (h : Handled group made ms log result) : ∀ e ∈ log, e.call.isResolution = false := by
  intro e he
  obtain ⟨man, -, hcall | ⟨mapping, hcall⟩⟩ := h.isCallFor e he <;> rw [hcall] <;> rfl

/-- An attempt to find out the kinds fails the group. -/
theorem Resolves.error_cases {cs : List Category} {e : ImportError}
    (h : Resolves cs log (.error e)) :
    e = .cancelled ∨ ∃ c ∈ cs, ∃ cause, e = .category c.name (.client cause) := by
  generalize hresult : (.error e : Except ImportError _) = result at h
  induction h with
  | nil => cases hresult
  | refused cause =>
    cases hresult
    exact .inr ⟨_, List.mem_cons_self, cause, rfl⟩
  | givenUp =>
    cases hresult
    exact .inl rfl
  | @cons c cs mappings log result rest ih =>
    cases result with
    | ok kinds => cases hresult
    | error e' =>
      cases hresult
      -- a later category has failed
      rcases ih rfl with rfl | ⟨c', hc, cause, rfl⟩
      · exact .inl rfl
      · exact .inr ⟨c', List.mem_cons_of_mem _ hc, cause, rfl⟩

/-- What the import of a group has done about the kinds that are created paused: it did without
them, or they were known, or it has tried to find them out. -/
inductive Decides (group : String) (pause : Bool) (ms : List Manifest) :
    Option (List GroupKind) → List LoggedCall → Except ImportError Nat →
      Option (List GroupKind) → Prop
  | without {known : Option (List GroupKind)} {log : List LoggedCall}
      {result : Except ImportError Nat} (hpause : pause = false)
      (unresolved : ∀ e ∈ log, e.call.isResolution = false) :
      Decides group pause ms known log result known
  | idle {known : Option (List GroupKind)} {result : Except ImportError Nat} (h : ms = []) :
      Decides group pause ms known [] result known
  | known {kinds : List GroupKind} {log : List LoggedCall} {result : Except ImportError Nat}
      (unresolved : ∀ e ∈ log, e.call.isResolution = false) (creates : CreatesPaused kinds ms log) :
      Decides group pause ms (some kinds) log result (some kinds)
  | failed {log : List LoggedCall} {e : ImportError} (hpause : pause = true) (hne : ms ≠ [])
      (resolves : Resolves Category.pausable log (.error e)) :
      Decides group pause ms none log (.error (e.inGroup group)) none
  | found {u v : List LoggedCall} {kinds : List GroupKind} {result : Except ImportError Nat}
      (hpause : pause = true) (hne : ms ≠ []) (resolves : Resolves Category.pausable u (.ok kinds))
      (unresolved : ∀ e ∈ v, e.call.isResolution = false) (creates : CreatesPaused kinds ms v) :
      Decides group pause ms none (u ++ v) result (some kinds)

theorem Course.decides {result : Except ImportError Nat}
    (h : Course group pause ms known log result known') :
    Decides group pause ms known log result known' := by
  cases h with
  | @unprepared log e known' h =>
    generalize hfailed : (.error e : Except ImportError _) = prepared at h
    cases h with
    | asIs => cases hfailed
    | paused hpause hne h =>
      cases h with
      | known | found => cases hfailed
      | failed h =>
        cases hfailed
        exact .failed hpause hne h
  | @handled u v made result known' h handled =>
    generalize hmade : (.ok made : Except ImportError _) = prepared at h
    cases h with
    | asIs h =>
      rcases h with hpause | rfl
      · exact .without hpause handled.not_isResolution
      -- without manifests there are no calls
      · obtain rfl : v = [] := List.eq_nil_iff_forall_not_mem.mpr fun e he => by
          obtain ⟨man, hman, -⟩ := handled.isCallFor e he
          cases hman
        exact .idle rfl
    | paused hpause hne h =>
      obtain ⟨kinds, rfl, rfl⟩ := map_eq_ok_iff.mp hmade.symm
      cases h with
      | known => exact .known handled.not_isResolution handled.createsPaused
      | found h => exact .found hpause hne h handled.not_isResolution handled.createsPaused

/-- What the import of a group has to do with the kinds that are created paused, of which it knows
`known` before and `known'` after. -/
structure FindsOnce (s : ExportedState) (group : String) (pause : Bool)
    (known : Option (List GroupKind)) (log : List LoggedCall) (result : Except ImportError Nat)
    (known' : Option (List GroupKind)) : Prop where
  /-- No category is resolved but for a manifest that may have to be paused, and while it is not
  known which kinds are. -/
  needed : (∃ e ∈ log, e.call.isResolution = true) →
    pause = true ∧ known = none ∧ ∃ ms, s.readGroup group = .ok ms ∧ ms ≠ []
  /-- The kinds that are known stay so, and are those that are created paused. -/
  decided : ∀ kinds, known = some kinds → known' = some kinds ∧
    ∀ ms, pause = true → s.readGroup group = .ok ms → CreatesPaused kinds ms log
  /-- While they are not known, the three categories are resolved before anything else. Their kinds
  are known from then on if that succeeds; if not, it fails the group, and nothing is known. -/
  attempted : ∀ ms, known = none → pause = true → s.readGroup group = .ok ms → ms ≠ [] →
    ∃ attempt rest found, log = attempt ++ rest ∧ Resolves Category.pausable attempt found ∧
      (∀ kinds, found = .ok kinds → known' = some kinds ∧ CreatesPaused kinds ms rest ∧
        ∀ e ∈ rest, e.call.isResolution = false) ∧
      ∀ e, found = .error e → known' = none ∧ rest = [] ∧
        (result = .error .cancelled ∨ ∃ c ∈ Category.pausable, ∃ cause,
          result = .error (.importGroup group (.category c.name (.client cause))))

theorem Decides.findsOnce {result : Except ImportError Nat} (hread : s.readGroup group = .ok ms)
    (h : Decides group pause ms known log result known') :
    FindsOnce s group pause known log result known' := by
  -- a group is read to the same manifests each time
  have hsame : ∀ {ms'}, s.readGroup group = .ok ms' → ms' = ms := fun hms =>
    Except.ok.inj (hms.symm.trans hread)
  cases h with
  | without hunpaused unresolved =>
    have hnot : pause ≠ true := by simp [hunpaused]
    constructor
    case needed => exact fun ⟨e, he, hres⟩ => absurd hres (by simp [unresolved e he])
    case decided => exact fun kinds hkinds => ⟨hkinds, fun _ hpause => absurd hpause hnot⟩
    case attempted => exact fun _ _ hpause => absurd hpause hnot
  | idle hempty =>
    constructor
    case needed => exact fun ⟨e, he, _⟩ => nomatch he
    case decided => exact fun kinds hkinds => ⟨hkinds, fun _ _ _ e he => nomatch he⟩
    case attempted => exact fun ms' _ _ hms hne => absurd ((hsame hms).trans hempty) hne
  | known unresolved creates =>
    constructor
    case needed => exact fun ⟨e, he, hres⟩ => absurd hres (by simp [unresolved e he])
    case decided =>
      rintro _ ⟨⟩
      exact ⟨rfl, fun ms' _ hms => hsame hms ▸ creates⟩
    case attempted => exact fun _ hnone => nomatch hnone
  | @failed log e hpause hne resolves =>
    constructor
    case needed => exact fun _ => ⟨hpause, rfl, ms, hread, hne⟩
    case decided => exact fun _ hsome => nomatch hsome
    case attempted =>
      intro ms' _ _ hms _
      refine ⟨log, [], .error e, (List.append_nil _).symm, resolves, fun _ hok => (nomatch hok), ?_⟩
      rintro _ ⟨⟩
      refine ⟨rfl, rfl, ?_⟩
      rcases resolves.error_cases with rfl | ⟨c, hc, cause, rfl⟩
      · exact .inl rfl
      · exact .inr ⟨c, hc, cause, rfl⟩
  | @found u v kinds result hpause hne resolves unresolved creates =>
    constructor
    case needed => exact fun _ => ⟨hpause, rfl, ms, hread, hne⟩
    case decided => exact fun _ hsome => nomatch hsome
    case attempted =>
      intro ms' _ _ hms _
      refine ⟨u, v, .ok kinds, rfl, resolves, ?_, fun _ herr => nomatch herr⟩
      rintro _ ⟨⟩
      exact ⟨rfl, hsame hms ▸ creates, unresolved⟩

/-! ### Several imports -/

theorem kindsKnown_concat (imports : List GroupImport) (i : GroupImport) :
    kindsKnown (imports ++ [i]) = (kindsKnown imports).or (kindsFound (callLog i.turns)) := by
  rw [kindsKnown, List.findSome?_append, List.findSome?_singleton, kindsKnown]

/-- What is known is what has been found. -/
theorem Decides.known_eq {result : Except ImportError Nat}
    (h : Decides group pause ms known log result known') : known' = known.or (kindsFound log) := by
  cases h with
  | without _ unresolved => rw [kindsFound_eq_none unresolved, Option.or_none]
  | idle => exact (Option.or_none).symm
  | known => rfl
  | failed _ _ resolves => rw [kindsFound_of_fails resolves, Option.or_none]
  | found _ _ resolves => rw [kindsFound_of_resolves resolves, Option.none_or]

/-- The import of a group finds out nothing that is known, and remembers what is found out. -/
theorem Work.findsOnce {m m' : Memory} {ts : Turns} {result : Except ImportError Nat}
    (h : (importGroup s group pause).Led m ts (some (result, m'))) :
    FindsOnce s group pause m.pausable (callLog ts) result m'.pausable ∧
      m'.pausable = m.pausable.or (kindsFound (callLog ts)) := by
  rcases led_importGroup h with ⟨e, hread, rfl, -, rfl⟩ | ⟨ms, known, hread, hcourse, rfl⟩
  · refine ⟨⟨?_, fun kinds hkinds => ⟨hkinds, ?_⟩, fun ms _ _ hms => ?_⟩, ?_⟩
    · exact fun ⟨e, he, _⟩ => nomatch he
    · exact fun _ _ _ e he => nomatch he
    · cases hread.symm.trans hms
    · exact (Option.or_none).symm
  · exact ⟨hcourse.decides.findsOnce hread, hcourse.decides.known_eq⟩

theorem importsGroups_concat_iff {m m' : Memory} {imports : List GroupImport} {i : GroupImport} :
    ImportsGroups s m (imports ++ [i]) m' ↔ ∃ m₁, ImportsGroups s m imports m₁ ∧
      (Work.importGroup s i.group i.pause).Led m₁ i.turns (some (i.result, m')) := by
  constructor
  · intro h
    generalize hall : imports ++ [i] = all at h
    cases h with
    | nil => simp at hall
    | concat first last =>
      obtain ⟨rfl, hi⟩ := List.append_inj' hall rfl
      cases hi
      exact ⟨_, first, last⟩
  · rintro ⟨m₁, first, last⟩
    exact .concat first last

theorem importsGroups_append {m m' : Memory} {before after : List GroupImport}
    (h : ImportsGroups s m (before ++ after) m') : ∃ m₁, ImportsGroups s m before m₁ := by
  induction after using List.reverseRecOn generalizing m' with
  | nil => exact ⟨m', List.append_nil before ▸ h⟩
  | append_singleton after i ih =>
    rw [← List.append_assoc] at h
    obtain ⟨m₁, first, -⟩ := importsGroups_concat_iff.mp h
    exact ih first

/-- An importer remembers what was found in the first import that has found anything. -/
theorem ImportsGroups.pausable {m m' : Memory} {imports : List GroupImport}
    (h : ImportsGroups s m imports m') (hm : m.pausable = none) :
    m'.pausable = kindsKnown imports := by
  induction h with
  | nil => exact hm
  | concat _ last ih => rw [(Work.findsOnce last).2, ih, kindsKnown_concat]

theorem ImportsGroups.findsOnce {m m' : Memory} {imports : List GroupImport} {i : GroupImport}
    (h : ImportsGroups s m (imports ++ [i]) m') (hm : m.pausable = none) :
    FindsOnce s i.group i.pause (kindsKnown imports) (callLog i.turns) i.result
      (kindsKnown (imports ++ [i])) := by
  obtain ⟨m₁, first, last⟩ := importsGroups_concat_iff.mp h
  rw [← h.pausable hm, ← first.pausable hm]
  exact (Work.findsOnce last).1

/-- What was found out by an importer about the kinds that are created paused. -/
structure FindsKindsOnce (s : ExportedState) (m : Memory) (imports : List GroupImport)
    (m' : Memory) : Prop where
  remembered : m'.pausable = kindsKnown imports
  /-- What has been found once is not found anew. -/
  lasting : ∀ before after kinds, imports = before ++ after → kindsKnown before = some kinds →
    kindsKnown imports = some kinds
  each : ∀ before i after, imports = before ++ i :: after →
    FindsOnce s i.group i.pause (kindsKnown before) (callLog i.turns) i.result
      (kindsKnown (before ++ [i]))
  /-- An import that is under way can be led on to its end, and is one of these then. -/
  underway : ∀ group pause ts r, (Work.importGroup s group pause).Led m' ts r →
    ∃ us result m'', (∀ p, r = some p → us = [] ∧ p = (result, m'')) ∧
      ImportsGroups s m (imports ++ [⟨group, pause, ts ++ us, result⟩]) m'' ∧
      FindsOnce s group pause (kindsKnown imports) (callLog (ts ++ us)) result
        (kindsKnown (imports ++ [⟨group, pause, ts ++ us, result⟩]))

/-- **The kinds that are created paused are found out once.** Whatever groups an importer that knows
nothing imports, and however it is answered, it resolves the categories only for manifests that may
have to be paused, and never after all of them have been resolved. -/
theorem pausable_kinds_are_found_once {m m' : Memory} {imports : List GroupImport}
    (hm : m.pausable = none) (h : ImportsGroups s m imports m') :
    FindsKindsOnce s m imports m' := by
  constructor
  case remembered => exact h.pausable hm
  case lasting =>
    rintro before after kinds rfl hkinds
    rw [kindsKnown] at hkinds ⊢
    rw [List.findSome?_append, hkinds, Option.some_or]
  case each =>
    rintro before i after rfl
    rw [List.append_cons] at h
    obtain ⟨m₁, hfirst⟩ := importsGroups_append h
    exact hfirst.findsOnce hm
  case underway =>
    intro group pause ts r hled
    -- an import that is underway is the start of one that has ended
    obtain ⟨us, ⟨result, m''⟩, hled, hend⟩ := Dialogue.Led.completed hled
    have hall : ImportsGroups s m (imports ++ [⟨group, pause, ts ++ us, result⟩]) m'' :=
      .concat h hled
    exact ⟨us, result, m'', hend, hall, hall.findsOnce hm⟩

namespace Sample

/-- Answers as the plane does, but does not resolve composite resources. -/
def replyRefusing : (q : Question) → MemoryPlane → q.Answer × MemoryPlane
  | .guarded (.resolve .composite) _, p => (.answered (.error (.discovery "not yet")), p)
  | q, p => MemoryPlane.reply state q p

/-- The import of the group with the bucket, by an importer with a memory. -/
def played (pause : Bool) (answer : (q : Question) → MemoryPlane → q.Answer × MemoryPlane)
    (m : Memory) : Turns × Except ImportError Nat × Memory :=
  ((Work.importGroup state "buckets.aws.example.io" pause).run.run m).play answer plane

def importOf (pause : Bool) (answer : (q : Question) → MemoryPlane → q.Answer × MemoryPlane)
    (m : Memory) : GroupImport :=
  ⟨"buckets.aws.example.io", pause, (played pause answer m).1, (played pause answer m).2.1⟩

def memoryAfter (pause : Bool) (answer : (q : Question) → MemoryPlane → q.Answer × MemoryPlane)
    (m : Memory) : Memory := (played pause answer m).2.2

theorem led_played (pause : Bool)
    (answer : (q : Question) → MemoryPlane → q.Answer × MemoryPlane) (m : Memory) :
    (Work.importGroup state (importOf pause answer m).group (importOf pause answer m).pause).Led m
      (importOf pause answer m).turns
      (some ((importOf pause answer m).result, memoryAfter pause answer m)) := by
  have hled : (Work.importGroup state "buckets.aws.example.io" pause).Led m
      (played pause answer m).1 (some (played pause answer m).2) := Dialogue.led_play answer _ plane
  rwa [← Prod.mk.eta (p := (played pause answer m).2)] at hled

/-- What is remembered after a failed attempt. -/
def memoryFailed : Memory := memoryAfter true replyRefusing .empty

/-- What is remembered after an attempt that succeeds. -/
def memoryFound : Memory := memoryAfter true (MemoryPlane.reply state) memoryFailed

/-- An attempt fails, the next one succeeds, and then no other is needed. -/
def imports : List GroupImport :=
  [importOf true replyRefusing .empty, importOf true (MemoryPlane.reply state) memoryFailed,
    importOf true replyRefusing memoryFound]

theorem importsGroups_imports :
    ImportsGroups state .empty imports (memoryAfter true replyRefusing memoryFound) := by
  have hfirst : ImportsGroups state .empty ([] ++ [importOf true replyRefusing .empty])
      memoryFailed := .concat (.nil .empty) (led_played true replyRefusing .empty)
  exact .concat (.concat hfirst (led_played true (MemoryPlane.reply state) memoryFailed))
    (led_played true replyRefusing memoryFound)

end Sample

open Sample in
theorem pausable_kinds_are_found_once_sample :
    FindsKindsOnce state .empty imports (memoryAfter true replyRefusing memoryFound) ∧
      kindsKnown (imports.take 1) = none ∧
      kindsKnown imports = some [⟨"aws.example.io", "Bucket"⟩] ∧
      imports.map (fun i => ((callLog i.turns).filter (·.call.isResolution)).length)
        = [2, 3, 0] := by
  have hfound : kindsKnown (imports.take 1) = none ∧
      kindsKnown imports = some [⟨"aws.example.io", "Bucket"⟩] ∧
      imports.map (fun i => ((callLog i.turns).filter (·.call.isResolution)).length)
        = [2, 3, 0] := by
    decide +kernel
  exact ⟨pausable_kinds_are_found_once rfl importsGroups_imports, hfound⟩

end PlaneRestore
