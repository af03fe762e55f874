import PlaneRestore.Proofs.Import.History
import PlaneRestore.Proofs.Import.Terms
/-!
How an import fails when it is cancelled.

* `isCancellation t`: in the turn `t`, the run turns out to be cancelled. `IsLifelike t` are the
  turns that there can be; `World.Unfolds.isLifelike` says that there are no others in a world.
* `Terms.uncancelled`: as long as the run is not cancelled, no error is a cancellation, or has one
  inside.
* `Work.TellsCancellation work`: the work fails as cancelled if, and only if, the run turned out to
  be cancelled. No error has a cancellation inside.

`cancellation_is_never_buried` finds this of an import and of its parts.
-/

namespace PlaneRestore

/-! ### Cancellations -/

/-- Whether the run turns out to be cancelled in a turn. -/
def isCancellation (t : Dialogue.Turn Question Question.Answer) : Bool :=
  match t with
  | ⟨.extract _, .error .cancelled⟩ => true
  | t => isRefusal t

theorem isCancellation_cases {t : Dialogue.Turn Question Question.Answer}
    (h : isCancellation t = true) :
    isRefusal t = true ∨ ∃ path, t = ⟨.extract path, .error .cancelled⟩ := by
  unfold isCancellation at h
  split at h
  · next path => exact .inr ⟨path, rfl⟩
  · exact .inl h

theorem isCancellation_of_isRefusal {t : Dialogue.Turn Question Question.Answer}
    (h : isRefusal t = true) : isCancellation t = true := by
  unfold isCancellation
  split
  · rfl
  · exact h

/-- A turn as there can be one. -/
structure IsLifelike (t : Dialogue.Turn Question Question.Answer) : Prop where
  /-- Who waits without a deadline is not late. -/
  inTime : ∀ c, t ≠ ⟨.guarded c none, .late⟩
  /-- What is found in an archive is what is in a file, unless the run is cancelled before all of it
  has been read. -/
  found : ∀ path result, t = ⟨.extract path, result⟩ →
    ∃ source isCancelled, result = ExportedState.extractUntil path source isCancelled

/-- In a world, all turns are lifelike. -/
theorem World.Unfolds.isLifelike {σ : Type} {P : Plane σ} {w w' : World σ} {ts : Turns}
    (h : w.Unfolds P ts w') : ∀ t ∈ ts, IsLifelike t := by
  induction h with
  | nil => exact fun t ht => nomatch ht
  | cancel moment _ ih => exact ih
  | @turn w w₁ w' q a ts first _ ih =>
    refine List.forall_mem_cons.mpr ⟨⟨?_, ?_⟩, ih⟩
    · rintro c ⟨⟩
      -- without a deadline, nothing is too late
      rcases guarded_cases first with ⟨-, hr, -⟩ | ⟨-, ⟨⟨d, hd, -⟩, -⟩ | ⟨-, -, -, hawaited⟩⟩
      · cases hr
      · cases hd
      · generalize w₁.clock = clock at hawaited
        cases hawaited with
        | late hd => cases hd
    · rintro path result ⟨⟩
      -- the token does not change while the world extracts
      cases first
      exact ⟨w.source path, fun _ => w.isCancelled,
        (ExportedState.extractUntil_const path _ _).symm⟩

/-! ### Errors -/

/-- An error is no cancellation, and has none inside. -/
def ImportError.IsUncancelled (e : ImportError) : Prop := .cancelled ∉ e :: e.causes

theorem ImportError.IsPlain.isUncancelled {e : ImportError} (h : e.IsPlain) :
    e.IsUncancelled := by
  rw [IsUncancelled, causes_eq, h.1]
  exact fun hmem => h.ne_cancelled (List.mem_singleton.mp hmem).symm

theorem ImportError.isUncancelled_of_cause? {e e' : ImportError} (h : e.cause? = some e')
    (h' : e'.IsUncancelled) : e.IsUncancelled := by
  rw [IsUncancelled, causes_eq, h]
  refine List.not_mem_cons_of_ne_of_not_mem ?_ h'
  rintro rfl
  cases h

/-- As long as the run is not cancelled, nothing fails because of that. -/
def Terms.uncancelled : Terms where
  rely t := IsLifelike t ∧ isCancellation t = false
  fits _ _ := True
  fails := ImportError.IsUncancelled
  fits_of_mapped _ _ _ := trivial
  fits_of_listed _ _ _ := trivial
  fits_of_sameNames _ _ := trivial
  fails_plain h := h.isUncancelled
  fails_outer := ImportError.isUncancelled_of_cause?
  fails_cancelled h hrefused := by
    have := h.2.symm.trans (isCancellation_of_isRefusal hrefused)
    cases this
  fails_late h := absurd rfl (h.1.inTime _)
  fails_unread := by
    rintro path e ⟨hlifelike, hgoes⟩
    obtain ⟨source, isCancelled, hfound⟩ := hlifelike.found path _ rfl
    rcases ExportedState.extractUntil_fails path source isCancelled e hfound.symm with rfl | hplain
    · cases hgoes
    · exact hplain.isUncancelled

/-- The error of reading the exported state that an issue tells of. -/
def PreflightIssue.error? : PreflightIssue → Option ImportError
  | unarchive e | metadata e => some e
  | engineInfo _ | versionMismatch _ _ | cancelled | missingFeatureFlag _ => none

namespace Work

variable {α : Type}

/-- Work that fails as cancelled if, and only if, the run turned out to be cancelled, and whose
errors have no cancellation inside. -/
structure TellsCancellation (work : Work α) : Prop where
  cancelled_iff {m m' : Memory} {ts : Turns} {result : Except ImportError α}
    (hled : work.Led m ts (some (result, m'))) (hts : ∀ t ∈ ts, IsLifelike t) :
    result = .error .cancelled ↔ ∃ t ∈ ts, isCancellation t = true
  unburied {m m' : Memory} {ts : Turns} {e : ImportError}
    (hled : work.Led m ts (some (.error e, m'))) (hts : ∀ t ∈ ts, IsLifelike t) :
    .cancelled ∉ e.causes

/-- Work tells of cancellations if it fails as cancelled when it is told of one, and keeps to its
terms as long as it is not. -/
theorem Meets.tellsCancellation {x : Work α} (h : Meets .uncancelled x)
    (hcancelled : ∀ {m m' ts result}, x.Led m ts (some (result, m')) →
      (∃ t ∈ ts, isCancellation t = true) → result = .error .cancelled) :
    TellsCancellation x := by
  have hgoes : ∀ {m m' ts} {e : ImportError}, x.Led m ts (some (.error e, m')) →
      (∀ t ∈ ts, IsLifelike t) → (¬∃ t ∈ ts, isCancellation t = true) → e.IsUncancelled := by
    intro m m' ts e hled hts hnone
    refine (h m).result hled (fun t ht => ⟨hts t ht, ?_⟩) e rfl
    rw [← Bool.not_eq_true]
    exact fun ht' => hnone ⟨t, ht, ht'⟩
  -- if there was a cancellation, this is the error, and it has nothing inside
  refine ⟨fun hled hts => ⟨?_, hcancelled hled⟩, fun {m m' ts e} hled hts => ?_⟩
  · rintro rfl
    by_contra hnone
    exact hgoes hled hts hnone List.mem_cons_self
  · by_cases hsome : ∃ t ∈ ts, isCancellation t = true
    · cases hcancelled hled hsome
      exact List.not_mem_nil
    · exact fun hmem => hgoes hled hts hsome (List.mem_cons_of_mem _ hmem)

/-- An errand that has no use for the archive is told of a cancellation by a refusal only. -/
theorem IsErrand.tellsCancellation {x : Work α} (h : IsErrand x) (hspares : SparesArchive x)
    (hmeets : Meets .uncancelled x) : TellsCancellation x := by
  refine hmeets.tellsCancellation fun {m m' ts result} hled hcancelled => ?_
  obtain ⟨t, ht, hcancellation⟩ := hcancelled
  rcases isCancellation_cases hcancellation with hrefused | ⟨path, rfl⟩
  · exact (h.heeds m).result hled ⟨t, ht, hrefused⟩
  · have hreading : (⟨.extract path, .error .cancelled⟩ : Dialogue.Turn Question Question.Answer)
        ∈ Turns.readings ts := List.mem_filter.mpr ⟨ht, rfl⟩
    rw [(hspares m ts _ hled).1] at hreading
    cases hreading

/-! ### Imports -/

/-- The exported state cannot be had as the run is cancelled if, and only if, this turned out when
the archive was read. -/
theorem Holds.cancelled_iff {archive : String} {m m' : Memory} {ts : Turns}
    {found : Except ImportError ExportedState} (h : Holds archive m ts found m') :
    found = .error .cancelled ↔ ∃ t ∈ ts, isCancellation t = true := by
  cases h with
  | known => exact ⟨nofun, fun ⟨_, ht, _⟩ => nomatch ht⟩
  | read =>
    refine ⟨nofun, fun ⟨t, ht, hcancellation⟩ => ?_⟩
    cases List.mem_singleton.mp ht
    cases hcancellation
  -- the only turn there is the reading
  | unread =>
    constructor
    · rintro ⟨⟩
      exact ⟨_, List.mem_singleton_self _, rfl⟩
    · rintro ⟨t, ht, hcancellation⟩
      cases List.mem_singleton.mp ht
      rcases isCancellation_cases hcancellation with hrefused | ⟨path, heq⟩
      · cases hrefused
      · cases heq
        rfl

theorem Holds.isUncancelled {archive : String} {m m' : Memory} {ts : Turns} {e : ImportError}
    (h : Holds archive m ts (.error e) m') (hts : ∀ t ∈ ts, IsLifelike t) (hne : e ≠ .cancelled) :
    e.IsUncancelled := by
  cases h with
  | unread =>
    obtain ⟨source, isCancelled, hfound⟩ := (hts _ (List.mem_singleton_self _)).found _ _ rfl
    have hfails := ExportedState.extractUntil_fails _ source isCancelled e hfound.symm
    exact (hfails.resolve_left hne).isUncancelled

theorem importState_tellsCancellation (o : ImportOptions) : TellsCancellation (importState o) := by
  refine (meets_importState o).tellsCancellation fun {m m' ts result} hled hcancelled => ?_
  obtain ⟨t, ht, hcancellation⟩ := hcancelled
  rcases isCancellation_cases hcancellation with hrefused | ⟨path, rfl⟩
  · exact ((isStaged_importState o).heeds m).result hled ⟨t, ht, hrefused⟩
  -- only the first step reads an archive
  have hreading : ∀ {us : Turns}, (⟨.extract path, .error .cancelled⟩ :
      Dialogue.Turn Question Question.Answer) ∈ us →
        ∃ t ∈ Turns.readings us, isCancellation t = true :=
    fun hmem => ⟨_, List.mem_filter.mpr ⟨hmem, rfl⟩, rfl⟩
  rw [importState_eq] at hled
  rcases led_bind_some hled with ⟨e, rfl, hread⟩ | ⟨s, m₁, us, vs, rfl, hread, hrest⟩
  · obtain ⟨us, found, holds, rfl, -, hfound⟩ := led_readState hread
    rw [holds.cancelled_iff.mpr (hreading ht)] at hfound
    cases hfound
    rfl
  · obtain ⟨us', found, holds, rfl, -, hfound⟩ := led_readState hread
    rcases List.mem_append.mp ht with ht | ht
    · rw [holds.cancelled_iff.mpr (hreading ht)] at hfound
      cases hfound
    · obtain ⟨t, hmem, -⟩ := hreading ht
      rw [(sparesArchive_restore o s m₁ vs _ hrest).1] at hmem
      cases hmem

/-! ### Preflights -/

/-- How the issues that a preflight finds in some turns tell of a cancellation. -/
structure IssuesTell (ts : Turns) (issues : List PreflightIssue) : Prop where
  alone : .cancelled ∈ issues → issues = [.cancelled]
  cancelled_iff : .cancelled ∈ issues ↔ ∃ t ∈ ts, isCancellation t = true
  unburied : ∀ issue ∈ issues, ∀ e, issue.error? = some e → e.IsUncancelled

theorem IssuesTell.single {ts : Turns} {issue : PreflightIssue}
    (h : issue = .cancelled ↔ ∃ t ∈ ts, isCancellation t = true)
    (herror : ∀ e, issue.error? = some e → e.IsUncancelled) : IssuesTell ts [issue] where
  alone hmem := by rw [List.mem_singleton.mp hmem]
  cancelled_iff := by rw [List.mem_singleton, eq_comm, h]
  unburied _ hissue := by
    rw [List.mem_singleton.mp hissue]
    exact herror

theorem IssuesTell.of_differences {ts : Turns} {issues : List PreflightIssue}
    (hnone : ¬∃ t ∈ ts, isCancellation t = true)
    (h : ∀ issue ∈ issues, issue ≠ .cancelled ∧ issue.error? = none) : IssuesTell ts issues where
  alone hmem := absurd rfl (h _ hmem).1
  cancelled_iff := iff_of_false (fun hmem => (h _ hmem).1 rfl) hnone
  unburied issue hissue e he := by
    rw [(h issue hissue).2] at he
    cases he

theorem Checks.tells {archive : String} {m m' : Memory} {ts : Turns} {issues : List PreflightIssue}
    (h : Checks archive m ts issues m') (hts : ∀ t ∈ ts, IsLifelike t) : IssuesTell ts issues := by
  -- an answer to the first question is no cancellation
  have hobserved : ∀ {observed : EngineInfo} {us : Turns}
      {found : Except ImportError ExportedState},
      Holds archive m us found m' → (found = .error .cancelled ↔
        ∃ t ∈ observing (.answered (.ok observed)) :: us, isCancellation t = true) := by
    intro observed us found holds
    rw [holds.cancelled_iff]
    simp [isCancellation, isRefusal, observing]
  cases h with
  | refused e =>
    refine .single (iff_of_false nofun ?_) nofun
    simp [isCancellation, isRefusal, observing]
  | @cancelled reply unanswered =>
    refine .single ⟨fun _ => ⟨_, List.mem_singleton_self _, ?_⟩, fun _ => rfl⟩ nofun
    cases reply with
    | answered a => exact absurd rfl (unanswered a)
    | cancelled => rfl
    | late => exact absurd rfl ((hts _ (List.mem_singleton_self _)).inTime _)
  | @unread _ _ e _ holds fails =>
    refine .single ?_ ?_
    · rw [← hobserved holds]
      simpa using fails
    · rintro _ ⟨⟩
      exact holds.isUncancelled (List.forall_mem_cons.mp hts).2 fails
  | readCancelled holds => exact .single (iff_of_true rfl ((hobserved holds).mp rfl)) nofun
  | @undescribed _ _ s _ e holds fails =>
    refine .single ?_ ?_
    · rw [← hobserved holds]
      exact iff_of_false nofun nofun
    · rintro _ ⟨⟩
      exact (s.exportMeta_fails e fails).isUncancelled
  | compared holds =>
    refine .of_differences (by rw [← hobserved holds]; exact nofun) fun issue hissue => ?_
    rcases List.mem_append.mp hissue with hversion | hflag
    · split at hversion
      · cases hversion
      · rw [List.mem_singleton.mp hversion]
        exact ⟨nofun, rfl⟩
    · obtain ⟨flag, -, rfl⟩ := List.mem_map.mp hflag
      exact ⟨nofun, rfl⟩

end Work

/-- **A cancellation is never buried.** However an import or a part of it is led, whatever it is
answered and whenever the run is cancelled: it fails as cancelled if, and only if, the run turned
out to be cancelled, and no error that it fails with has a cancellation inside. Nor has any issue
that a preflight finds: it tells of a cancellation by one issue alone. -/
theorem cancellation_is_never_buried :
    (∀ r, (Work.apply r).TellsCancellation) ∧
      (∀ s group pause, (Work.importGroup s group pause).TellsCancellation) ∧
      (∀ c change, (Work.modifyAll c change).TellsCancellation) ∧
      (∀ settings kind conditions, (Work.waitFor settings kind conditions).TellsCancellation) ∧
      (∀ o, (Work.importState o).TellsCancellation) ∧
      (∀ path source isCancelled,
        (ExportedState.extractUntil path source isCancelled = .error .cancelled ↔
          ∃ k, ExportedState.AsksAfter path source k ∧ isCancelled k = true) ∧
        ∀ e, ExportedState.extractUntil path source isCancelled = .error e →
          .cancelled ∉ e.causes) ∧
      ∀ (o : ImportOptions) (m m' : Memory) (ts : Turns)
        (result : Except ImportError (List PreflightIssue)),
        (Work.preflight o).Led m ts (some (result, m')) → (∀ t ∈ ts, IsLifelike t) →
          ∃ issues, result = .ok issues ∧ Work.IssuesTell ts issues := by
  refine ⟨fun r => ?_, fun s group pause => ?_, fun c change => ?_,
    fun settings kind conditions => ?_, Work.importState_tellsCancellation,
    fun path source isCancelled => ⟨ExportedState.extractUntil_eq_cancelled_iff, fun e he => ?_⟩,
    fun o m m' ts result hled hts => ?_⟩
  -- parts of an import are errands that leave the archive alone
  · exact (Work.isErrand_apply r).tellsCancellation (Work.sparesArchive_apply r)
      (Work.meets_apply r)
  · exact (Work.isErrand_importGroup s group pause).tellsCancellation
      (Work.sparesArchive_importGroup s group pause) (Work.meets_importGroup s group pause)
  · exact (Work.isErrand_modifyAll c change).tellsCancellation
      (Work.sparesArchive_modifyAll c change) (Work.meets_modifyAll (fun _ _ _ => trivial) c)
  · exact (Work.isErrand_waitFor settings kind conditions).tellsCancellation
      (Work.sparesArchive_waitFor settings kind conditions)
      (Work.meets_waitFor settings kind conditions)
  -- an extraction fails as cancelled, or with an error that has no causes in which to bury one
  · rcases ExportedState.extractUntil_fails path source isCancelled e he with rfl | hplain
    · exact List.not_mem_nil
    · exact fun hmem => hplain.isUncancelled (List.mem_cons_of_mem _ hmem)
  · obtain ⟨issues, rfl, hchecks⟩ := Work.led_preflight_iff.mp hled
    exact ⟨issues, rfl, hchecks.tells hts⟩

namespace Sample

/-- A world in which the run is cancelled while it is asked for the kinds of a category, to import a
group that comes last. -/
def worldResolving : World ScriptedPlane :=
  .start ⟨plane, [], [("Resolve claim", 5)], some 12, 0, []⟩ fun _ => .absent

end Sample

open Sample in
theorem cancellation_is_never_buried_sample :
    ∃ ts m' w', (Work.importState options).Led memory ts (some (.error .cancelled, m')) ∧
      worldResolving.Unfolds scripted ts w' ∧ (∀ t ∈ ts, IsLifelike t) ∧
        ∃ t ∈ ts, isCancellation t = true := by
  obtain ⟨-, -, -, -, himport, -⟩ := cancellation_is_never_buried
  have hrun : (((Work.importState options).runIn scripted memory worldResolving).map fun p => p.1.1)
      = some (.error .cancelled) := by
    decide +kernel
  obtain ⟨⟨⟨result, m'⟩, w'⟩, hrun, hresult⟩ := Option.map_eq_some_iff.mp hrun
  obtain ⟨ts, hled, hanswers⟩ := Dialogue.led_of_runIn hrun
  have hresult : result = .error .cancelled := hresult
  rw [hresult] at hled
  have hts := hanswers.unfolds.isLifelike
  exact ⟨ts, m', w', hled, hanswers.unfolds, hts, ((himport options).cancelled_iff hled hts).mp rfl⟩

end PlaneRestore
