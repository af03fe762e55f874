import PlaneRestore.Proofs.Import.Archive
import PlaneRestore.Proofs.Import.Cancel
import PlaneRestore.Proofs.Import.Preflight
/-!
What is done with an importer, one thing after another.

* A `Deed` is a preflight or an import with its turns and its result; `Does o m ds m'` says that an
  importer which remembered `m` has done `ds`, and remembers `m'` then.
* `Deed.Unobserved` are the preflights that do not get as far as the archive, and
  `Deed.GoesOnWith o found` says what a deed makes of what was found there.
* `archive_is_read_once`: the archive is read until that succeeds, and never again; from then on
  everything is done with what was found.
-/

namespace PlaneRestore

open Work

/-! ### Readings -/

/-- The exported state that was found in an archive in a turn. -/
def extracted? : Dialogue.Turn Question Question.Answer → Option ExportedState
  | ⟨.extract _, .ok s⟩ => some s
  | _ => none

theorem isReading_of_extracted? {t : Dialogue.Turn Question Question.Answer} {s : ExportedState}
    (h : extracted? t = some s) : isReading t = true := by
  obtain ⟨q, a⟩ := t
  cases q with
  | extract path => rfl
  | call | guarded | now | sleepUntil | report => cases h

/-- Only where an archive is read, an exported state can be found. -/
theorem filterMap_readings (ts : Turns) :
    (Turns.readings ts).filterMap extracted? = ts.filterMap extracted? := by
  rw [Turns.readings, List.filterMap_filter]
  refine congrArg (List.filterMap · ts) (funext fun t => ?_)
  cases ht : extracted? t with
  | none => split <;> rfl
  | some s => rw [if_pos (isReading_of_extracted? ht)]

/-- What is read in a world is what is in its file then. -/
theorem World.Answers.extracted {σ : Type} {P : Plane σ} {w w' : World σ} {ts : Turns}
    {path : String} {found : Except ImportError ExportedState} (h : w.Answers P ts w')
    (ht : ⟨.extract path, found⟩ ∈ ts) :
    ∃ isCancelled, found = ExportedState.extract path (w.source path) isCancelled := by
  induction h with
  | nil w => cases ht
  | @cons w w₁ w' q a ts first _ ih =>
    rcases List.mem_cons.mp ht with heq | hlater
    · obtain ⟨rfl, hanswer⟩ := Sigma.mk.inj heq
      cases eq_of_heq hanswer
      obtain ⟨hextract, -⟩ := Prod.mk.inj (Option.some.inj first)
      exact ⟨w.isCancelled, hextract.symm⟩
    · obtain ⟨hkept, -⟩ := answer_cases first
      rw [← hkept]
      exact ih hlater

namespace Work

variable {archive : String} {m m' : Memory} {ts : Turns} {o : ImportOptions}

/-- An importer that knows the exported state has nothing to ask. -/
theorem led_heldState_of_known {s : ExportedState}
    {r : Option (Except ImportError ExportedState × Memory)} (hm : m.state = some s)
    (h : (heldState archive).Led m ts r) : ts = [] := by
  obtain ⟨state, pausable⟩ := m
  cases hm
  exact (led_done (r := (.ok s, _)) h).1

/-- The archive is read if the exported state is not known, and it is known if that succeeds. -/
theorem Holds.cases_state {found : Except ImportError ExportedState}
    (h : Holds archive m ts found m') :
    (∃ s, m.state = some s ∧ found = .ok s ∧ ts = [] ∧ m'.state = some s) ∨
      m.state = none ∧ ts = [⟨.extract archive, found⟩] ∧ m'.state = found.toOption := by
  cases h with
  | known before => exact .inl ⟨_, before, rfl, rfl, before⟩
  | read before => exact .inr ⟨before, rfl, rfl⟩
  | unread before => exact .inr ⟨before, rfl, before⟩

theorem Holds.readings {found : Except ImportError ExportedState}
    (h : Holds archive m ts found m') : Turns.readings ts = ts := by
  cases h <;> rfl

/-- The first step of an import has the exported state, or fails as the archive could not be
read. -/
theorem led_readState {result : Except ImportError ExportedState}
    (h : (readState o).Led m ts (some (result, m'))) :
    ∃ us found, Holds o.inputArchive m us found m' ∧ Turns.readings ts = us ∧ callLog ts = [] ∧
      result = found.mapError (.inPhase "cannot unarchive export archive") := by
  rcases led_step h with ⟨-, hr⟩ | ⟨us, r, hphase, ⟨-, hr⟩ | ⟨result', m₁, rfl, hr | hr, rfl⟩⟩
  · cases hr
  · cases hr
  · cases hr
  · cases hr
    -- the step has been taken to its end
    obtain ⟨r, hheld, hr⟩ := led_wrapping hphase
    obtain ⟨⟨found, m₂⟩, rfl, hfound⟩ := Option.map_eq_some_iff.mp hr.symm
    cases hfound
    have holds := led_heldState_iff.mp hheld
    refine ⟨us, found, holds, ?_, ?_, rfl⟩
    · change Turns.readings (us ++ [_]) = us
      rw [Turns.readings_append, holds.readings]
      exact List.append_nil us
    · cases holds <;> rfl

end Work

/-! ### What is done with an importer -/

/-- What was done with an importer, its turns and its result. -/
inductive Deed where
  | preflight (turns : Turns) (result : Except ImportError (List PreflightIssue))
  | importing (turns : Turns) (result : Except ImportError ImportReport)

namespace Deed

def turns : Deed → Turns
  | preflight ts _ | importing ts _ => ts

/-- The exported states that were found in the archive. -/
def found (d : Deed) : List ExportedState := d.turns.filterMap extracted?

/-- Something was done by an importer that remembered `m`, and remembers `m'` then. -/
def Done (o : ImportOptions) (m : Memory) (m' : Memory) : Deed → Prop
  | preflight ts result => (Work.preflight o).Led m ts (some (result, m'))
  | importing ts result => (Work.importState o).Led m ts (some (result, m'))

/-- A preflight that was over before the archive was of interest. -/
inductive Unobserved : Deed → Prop
  | refused (e : ClientError) :
      Unobserved (.preflight [observing (.answered (.error e))] (.ok [.engineInfo e]))
  | cancelled {reply : Reply (Except ClientError EngineInfo)}
      (unanswered : ∀ a, reply ≠ .answered a) :
      Unobserved (.preflight [observing reply] (.ok [.cancelled]))

/-- What a preflight and an import make of what was found in the archive, now or before. -/
inductive GoesOnWith (o : ImportOptions) : Except ImportError ExportedState → Deed → Prop
  | compared (found : Except ImportError ExportedState) (observed : EngineInfo) (ts : Turns) :
      GoesOnWith o found
        (.preflight (observing (.answered (.ok observed)) :: ts) (.ok (judge observed found)))
  | restored {s : ExportedState} {m m' : Memory} {us vs : Turns}
      {result : Except ImportError ImportReport} (silent : callLog us = [])
      (restoring : (restore o s).Led m vs (some (result, m'))) :
      GoesOnWith o (.ok s) (.importing (us ++ vs) result)
  | unrestored {e : ImportError} {ts : Turns} (silent : callLog ts = []) :
      GoesOnWith o (.error e)
        (.importing ts (.error (e.inPhase "cannot unarchive export archive")))

end Deed

/-- An importer with the options `o` has done some things one after another. -/
inductive Does (o : ImportOptions) : Memory → List Deed → Memory → Prop
  | nil (m : Memory) : Does o m [] m
  | cons {m m₁ m' : Memory} {d : Deed} {ds : List Deed} (first : d.Done o m m₁)
      (rest : Does o m₁ ds m') : Does o m (d :: ds) m'

/-- The exported state that was found first. -/
def firstFound (ds : List Deed) : Option ExportedState := (ds.flatMap Deed.found).head?

variable {o : ImportOptions} {m m' : Memory} {d : Deed} {ds : List Deed}

theorem does_append_iff {us vs : List Deed} :
    Does o m (us ++ vs) m' ↔ ∃ m₁, Does o m us m₁ ∧ Does o m₁ vs m' := by
  constructor
  · intro h
    induction us generalizing m with
    | nil => exact ⟨m, .nil m, h⟩
    | cons d us ih =>
      cases h with
      | cons first rest =>
        obtain ⟨m₁, hus, hvs⟩ := ih rest
        exact ⟨m₁, .cons first hus, hvs⟩
  · rintro ⟨m₁, hus, hvs⟩
    induction hus with
    | nil m => exact hvs
    | cons first _ ih => exact .cons first (ih hvs)

/-- What was read by an importer, and what it remembers of it. -/
inductive Deed.Course (o : ImportOptions) (m m' : Memory) (d : Deed) : Prop
  | unobserved (early : d.Unobserved) (unread : Turns.readings d.turns = [])
      (after : m'.state = m.state)
  | known {s : ExportedState} (before : m.state = some s) (on : d.GoesOnWith o (.ok s))
      (unread : Turns.readings d.turns = []) (after : m'.state = some s)
  | read {found : Except ImportError ExportedState} (before : m.state = none)
      (on : d.GoesOnWith o found)
      (reading : Turns.readings d.turns = [⟨.extract o.inputArchive, found⟩])
      (after : m'.state = found.toOption)

theorem Deed.GoesOnWith.course {m₁ : Memory} {us : Turns} {found : Except ImportError ExportedState}
    (on : d.GoesOnWith o found) (holds : Holds o.inputArchive m us found m₁)
    (hreadings : Turns.readings d.turns = us) (hm' : m'.state = m₁.state) : d.Course o m m' := by
  rcases holds.cases_state with ⟨s, hm, rfl, rfl, hm₁⟩ | ⟨hm, rfl, hm₁⟩
  · exact .known hm on hreadings (hm'.trans hm₁)
  · exact .read hm on hreadings (hm'.trans hm₁)

/-- What an importer does once. -/
theorem Deed.Done.course (h : d.Done o m m') : d.Course o m m' := by
  cases d with
  | preflight ts result =>
    obtain ⟨issues, rfl, hchecks⟩ := led_preflight_iff.mp h
    -- the checks are also needed as a whole, for what they say about the state
    have hcopy := hchecks
    cases hchecks with
    | refused e => exact .unobserved (.refused e) rfl rfl
    | cancelled unanswered => exact .unobserved (.cancelled unanswered) rfl rfl
    -- these have asked for the archive, and go on with what they found
    | unread | readCancelled | undescribed | compared =>
      obtain ⟨found, holds, hissues⟩ := checks_iff_holds.mp hcopy
      rw [hissues]
      exact (GoesOnWith.compared found _ _).course holds holds.readings rfl
  | importing ts result =>
    -- an import first has the state, and the rest of it reads no archive
    change (readState o >>= restore o).Led m ts (some (result, m')) at h
    rcases led_bind_some h with ⟨e, rfl, hread⟩ | ⟨s, m₁, us, vs, rfl, hread, hrest⟩
    · obtain ⟨us, found, holds, hus, hlog, hfound⟩ := led_readState hread
      cases found with
      | ok s => cases hfound
      | error e =>
        cases hfound
        exact (GoesOnWith.unrestored hlog).course holds hus rfl
    · obtain ⟨us', found, holds, hus, hlog, hfound⟩ := led_readState hread
      cases found with
      | error e => cases hfound
      | ok s =>
        cases hfound
        obtain ⟨hvs, hm'⟩ := sparesArchive_restore o s m₁ vs _ hrest
        refine (GoesOnWith.restored hlog hrest).course holds ?_ (hm' _ _ rfl)
        rw [Deed.turns, Turns.readings_append, hvs, List.append_nil, hus]

/-- What is found is remembered, and nothing is found by who remembers something. -/
theorem Deed.Course.state (h : d.Course o m m') :
    m'.state.toList = m.state.toList ++ d.found := by
  rw [Deed.found, ← filterMap_readings]
  cases h with
  | unobserved _ unread after => simp [unread, after]
  | known before _ unread after => simp [unread, after, before]
  | @read found before _ reading after =>
    rw [reading, after, before]
    cases found <;> rfl

theorem Does.state (h : Does o m ds m') :
    m'.state.toList = m.state.toList ++ ds.flatMap Deed.found := by
  induction h with
  | nil m => simp
  | cons first _ ih => rw [ih, first.course.state, List.flatMap_cons, List.append_assoc]

/-- An importer remembers what it has found first, and it finds nothing else. -/
theorem Does.state_of_empty (h : Does o .empty ds m') :
    m'.state = firstFound ds ∧ (ds.flatMap Deed.found).length ≤ 1 := by
  have hall : m'.state.toList = ds.flatMap Deed.found := h.state
  rw [firstFound, ← hall]
  exact ⟨by simp, m'.state.length_toList_le⟩

/-- What is done by an importer at any time goes by what was found before. -/
theorem Does.course_at {before after : List Deed} (h : Does o .empty (before ++ d :: after) m') :
    ∃ m₁ m₂, m₁.state = firstFound before ∧ d.Course o m₁ m₂ := by
  obtain ⟨m₁, hbefore, hafter⟩ := does_append_iff.mp h
  cases hafter with
  | cons first _ => exact ⟨m₁, _, hbefore.state_of_empty.1, first.course⟩

/-- What is read is what the file holds at that time. -/
theorem Deed.Course.current {σ : Type} {P : Plane σ} {w w' : World σ}
    {t : Dialogue.Turn Question Question.Answer} (h : d.Course o m m')
    (hanswers : w.Answers P d.turns w') (ht : t ∈ Turns.readings d.turns) :
    ∃ isCancelled, t = ⟨.extract o.inputArchive,
      ExportedState.extract o.inputArchive (w.source o.inputArchive) isCancelled⟩ := by
  cases h with
  | unobserved _ unread | known _ _ unread => simp [unread] at ht
  | read _ _ reading =>
    have hmem : t ∈ d.turns := List.mem_of_mem_filter ht
    rw [reading, List.mem_singleton] at ht
    subst ht
    obtain ⟨isCancelled, rfl⟩ := hanswers.extracted hmem
    exact ⟨isCancelled, rfl⟩

/-! ### What is still being done -/

/-- An archive is read once, by who does not know the exported state. -/
def ReadsIfUnknown (archive : String) (m : Memory) (ts : Turns) : Prop :=
  Turns.readings ts = [] ∨
    m.state = none ∧ ∃ found, Turns.readings ts = [⟨.extract archive, found⟩]

theorem readsIfUnknown_heldState {archive : String} {ts : Turns}
    {r : Option (Except ImportError ExportedState × Memory)}
    (h : (heldState archive).Led m ts r) : ReadsIfUnknown archive m ts := by
  rcases led_heldState h with rfl | ⟨found, rfl⟩
  · exact .inl rfl
  · cases hm : m.state with
    | some s => cases led_heldState_of_known hm h
    | none => exact .inr ⟨hm, found, rfl⟩

theorem readsIfUnknown_preflight {ts : Turns}
    {r : Option (Except ImportError (List PreflightIssue) × Memory)}
    (h : (preflight o).Led m ts r) : ReadsIfUnknown o.inputArchive m ts := by
  rw [preflight_eq] at h
  rcases led_ask_bind_iff.mp h with ⟨rfl, -⟩ | ⟨reply, us, rfl, hrest⟩
  · exact .inl rfl
  change ReadsIfUnknown o.inputArchive m us
  cases reply with
  | cancelled | late =>
    rw [(led_done hrest).1]
    exact .inl rfl
  | answered answer =>
    cases answer with
    | error e =>
      rw [(led_done hrest).1]
      exact .inl rfl
    | ok observed =>
      -- the archive is read, if it is, while the state is got hold of
      have hread : ∀ {us r}, (attempt (heldState o.inputArchive)).Led m us r →
          ReadsIfUnknown o.inputArchive m us := by
        intro us r h
        obtain ⟨r', hheld⟩ := led_attempt h
        exact readsIfUnknown_heldState hheld
      rcases led_bind hrest with ⟨r', h, -⟩ | ⟨found, m₁, us, vs, rfl, h, hend⟩
      · exact hread h
      · rw [(led_done hend).1, List.append_nil]
        exact hread h

theorem readsIfUnknown_importState {ts : Turns}
    {r : Option (Except ImportError ImportReport × Memory)}
    (h : (importState o).Led m ts r) : ReadsIfUnknown o.inputArchive m ts := by
  have hread : ∀ {us r}, (readState o).Led m us r → ReadsIfUnknown o.inputArchive m us := by
    intro us r h
    -- the news around the step read nothing
    have hframe : ∀ {vs : Turns} {p q : Progress}, ReadsIfUnknown o.inputArchive m vs →
        ReadsIfUnknown o.inputArchive m (⟨.report p, ()⟩ :: (vs ++ [⟨.report q, ()⟩])) := by
      intro vs p q h
      have heq : Turns.readings (⟨.report p, ()⟩ :: (vs ++ [⟨.report q, ()⟩])) = vs.readings := by
        change Turns.readings (vs ++ [_]) = vs.readings
        rw [Turns.readings_append]
        exact List.append_nil _
      rwa [ReadsIfUnknown, heq]
    rcases led_step h with ⟨rfl, -⟩ | ⟨vs, r', hphase, hr⟩
    · exact .inl rfl
    · obtain ⟨r₁, hheld, -⟩ := led_wrapping hphase
      have hvs := readsIfUnknown_heldState hheld
      rcases hr with ⟨rfl, -⟩ | ⟨result, m₁, -, -, rfl⟩
      · exact hvs
      · exact hframe hvs
  -- only the first step may read; the rest of the import spares the archive
  rw [importState_eq] at h
  rcases led_bind h with ⟨r', h, -⟩ | ⟨s, m₁, us, vs, rfl, h, hrest⟩
  · exact hread h
  · obtain ⟨hvs, -⟩ := sparesArchive_restore o s m₁ vs _ hrest
    rw [ReadsIfUnknown, Turns.readings_append, hvs, List.append_nil]
    exact hread h

/-! ### Histories -/

/-- What there is to say about the things that were done with an importer. -/
structure ReadsOnce (o : ImportOptions) (ds : List Deed) (m' : Memory) : Prop where
  /-- At any time, an importer holds the exported state that it has found first, if there is one. -/
  state : ∀ before after, ds = before ++ after → ∃ m, Does o .empty before m ∧
    Does o m after m' ∧ m.state = firstFound before
  /-- At most one reading succeeds. -/
  once : (ds.flatMap Deed.found).length ≤ 1
  /-- Until then, all that gets as far as the archive reads it anew, and goes on with what comes
  of it. -/
  anew : ∀ before d after, ds = before ++ d :: after → firstFound before = none →
    (d.Unobserved ∧ Turns.readings d.turns = []) ∨ ∃ found, d.GoesOnWith o found ∧
      Turns.readings d.turns = [⟨.extract o.inputArchive, found⟩]
  /-- From then on nothing reads the archive, and everything is done with what was found then. -/
  held : ∀ before d after s, ds = before ++ d :: after → firstFound before = some s →
    Turns.readings d.turns = [] ∧ (d.Unobserved ∨ d.GoesOnWith o (.ok s))
  /-- What has been begun and is not done yet reads the archive once, if it has not been read. -/
  underway : ∀ ts,
    ((∃ r, (preflight o).Led m' ts r) ∨ ∃ r, (importState o).Led m' ts r) →
      Turns.readings ts = [] ∨ firstFound ds = none ∧
        ∃ found, Turns.readings ts = [⟨.extract o.inputArchive, found⟩]
  /-- What is read is what the file holds at that time. -/
  current : ∀ d ∈ ds, ∀ {σ : Type} (P : Plane σ) (w w' : World σ), w.Answers P d.turns w' →
    ∀ t ∈ Turns.readings d.turns, ∃ isCancelled, t = ⟨.extract o.inputArchive,
      ExportedState.extract o.inputArchive (w.source o.inputArchive) isCancelled⟩

/-- **An importer reads its archive successfully at most once.** Whatever is done with an importer,
whatever the control plane answers and whatever becomes of the archive file in the meantime: until
a reading succeeds, every preflight and every import that gets as far as the archive reads it anew,
and an importer whose readings have failed or were cancelled holds no exported state. After the
first reading that succeeds the archive is not read again, and every preflight and every import is
done with what was found then. -/
theorem archive_is_read_once (o : ImportOptions) (ds : List Deed) (m' : Memory)
    (h : Does o .empty ds m') : ReadsOnce o ds m' where
  state before after hds := by
    subst hds
    obtain ⟨m, hbefore, hafter⟩ := does_append_iff.mp h
    exact ⟨m, hbefore, hafter, hbefore.state_of_empty.1⟩
  once := h.state_of_empty.2
  anew before d after hds hnone := by
    subst hds
    obtain ⟨m₁, m₂, hm₁, hcourse⟩ := h.course_at
    rw [hnone] at hm₁
    cases hcourse with
    | unobserved early unread => exact .inl ⟨early, unread⟩
    -- what is known is in the memory, and here nothing is
    | known before => simp [hm₁] at before
    | read _ on reading => exact .inr ⟨_, on, reading⟩
  held before d after s hds hsome := by
    subst hds
    obtain ⟨m₁, m₂, hm₁, hcourse⟩ := h.course_at
    rw [hsome] at hm₁
    cases hcourse with
    | unobserved early unread => exact ⟨unread, .inl early⟩
    | known before on unread =>
      -- the state in the memory is the one that was read first
      obtain rfl := Option.some.inj (hm₁.symm.trans before)
      exact ⟨unread, .inr on⟩
    | read before => simp [hm₁] at before
  underway ts hled := by
    rw [← h.state_of_empty.1]
    rcases hled with ⟨r, hled⟩ | ⟨r, hled⟩
    · exact readsIfUnknown_preflight hled
    · exact readsIfUnknown_importState hled
  current d hd σ P w w' hanswers t ht := by
    obtain ⟨before, after, rfl⟩ := List.append_of_mem hd
    obtain ⟨m₁, m₂, -, hcourse⟩ := h.course_at
    exact hcourse.current hanswers ht

namespace Sample

/-- What the control plane of the sample says about its engine. -/
def engine : EngineInfo := ⟨"v1.20.0", []⟩

/-- The import of the sample by an importer that has read the archive before. -/
def reimport : Turns × Except ImportError ImportReport × Memory :=
  ((importState options).run.run memory).play (MemoryPlane.reply state) plane

/-- A preflight whose reading is cancelled, and one that reads the archive. -/
def checking : List Deed :=
  [.preflight [observing (.answered (.ok engine)),
      ⟨.extract options.inputArchive, .error .cancelled⟩] (.ok [.cancelled]),
    .preflight [observing (.answered (.ok engine)), ⟨.extract options.inputArchive, .ok state⟩]
      (.ok (judge engine (.ok state)))]

/-- The import after them. -/
def reimported : Deed := .importing reimport.1 reimport.2.1

def deeds : List Deed := checking ++ [reimported]

theorem does_deeds : Does options .empty deeds reimport.2.2 := by
  have himport : (importState options).Led memory reimport.1 (some reimport.2) :=
    Dialogue.led_play _ _ plane
  rw [← Prod.mk.eta (p := reimport.2)] at himport
  refine .cons (?_ : Deed.Done options .empty .empty _)
    (.cons (?_ : Deed.Done options .empty memory _) (.cons himport (.nil _)))
  · exact led_preflight_iff.mpr ⟨_, rfl, checks_iff_holds.mpr ⟨_, .unread rfl, rfl⟩⟩
  · exact led_preflight_iff.mpr ⟨_, rfl, checks_iff_holds.mpr ⟨_, .read rfl, rfl⟩⟩

end Sample

open Sample in
theorem archive_is_read_once_sample :
    Does options .empty deeds reimport.2.2 ∧ reimport.2.2.state = some state ∧
      Turns.readings reimported.turns = [] ∧ reimported.GoesOnWith options (.ok state) := by
  have hreads := archive_is_read_once options deeds reimport.2.2 does_deeds
  have hheld := hreads.held checking reimported [] state rfl rfl
  obtain ⟨m, -, hafter, hm⟩ := hreads.state deeds [] (List.append_nil _).symm
  have hfirst : firstFound deeds = some state := rfl
  rw [hfirst] at hm
  cases hafter
  refine ⟨does_deeds, hm, hheld.1, ?_⟩
  rcases hheld.2 with hon | hon
  · cases hon
  · exact hon

end PlaneRestore
