import PlaneRestore.Proofs.Import.Course
import PlaneRestore.Proofs.Plane.Play
import PlaneRestore.Proofs.State.Group
/-!
Importing one group, end to end.

`group_is_imported`: whatever is in the directory of a group, and whatever is answered, nothing is
asked if a manifest of the group cannot be read; and otherwise the manifests are brought to the
control plane in the order of their files, up to the first one for which this fails.
-/

namespace PlaneRestore

open Words ExportedState

variable {group : String} {pause : Bool} {made : Resource → Resource} {ms : List Manifest}
  {known known' : Option (List GroupKind)} {log u v : List LoggedCall}

/-! ### How the calls are answered -/

theorem isAccepted_of_mem_applying {r : Resource} (h : log ∈ applying r) :
    ∀ e ∈ log, e.isAccepted = true := by
  obtain ⟨mapping, answer, ⟨applied, hanswer⟩, rfl⟩ := mem_applying_iff.mp h
  have hcreated : (Applied.ofAnswer answer).isOk = true := by
    rw [hanswer]
    rfl
  exact List.forall_mem_cons.mpr ⟨rfl, List.forall_mem_singleton.mpr hcreated⟩

theorem isAccepted_of_mem_bringing (h : log ∈ bringing made ms) :
    ∀ e ∈ log, e.isAccepted = true := by
  induction ms generalizing log with
  | nil =>
    obtain rfl : log = [] := h
    exact fun _ he => nomatch he
  | cons man ms ih =>
    obtain ⟨u, hu, v, hv, rfl⟩ := mem_bringing_cons_iff.mp h
    exact List.forall_mem_append.mpr ⟨isAccepted_of_mem_applying hu, ih hv⟩

theorem isAccepted_of_refused {mapping : KindMapping} {r : Resource} {e : ClientError}
    (isOther : ∀ kind name, e ≠ .alreadyExists kind name) :
    LoggedCall.isAccepted ⟨.create mapping r, some (.error e)⟩ = false := by
  rw [LoggedCall.isAccepted, Option.any_some, Call.accepts,
    Applied.ofAnswer_eq_error_iff.mpr ⟨rfl, isOther⟩]
  rfl

theorem Refused.stops {r : Resource} {e : ClientError} (h : Refused r log e) (err : ImportError) :
    StopsAtFailure log (.error err : Except ImportError Nat) := by
  cases h with
  | mapping => exact .of_error err rfl
  | creation isOther =>
    exact .cons rfl (.of_error err (isAccepted_of_refused isOther))

theorem GivenUp.stops {r : Resource} (h : GivenUp r log) (err : ImportError) :
    StopsAtFailure log (.error err : Except ImportError Nat) := by
  cases h with
  | mapping => exact .of_error err rfl
  | creation => exact .cons rfl (.of_error err rfl)

theorem Handled.stops {result : Except ImportError Nat} (h : Handled group made ms log result) :
    StopsAtFailure log result := by
  cases h with
  | all h => exact .of_ok (isAccepted_of_mem_bringing h)
  | refused _ brought stop => exact .append (isAccepted_of_mem_bringing brought) (stop.stops _)
  | givenUp _ brought stop => exact .append (isAccepted_of_mem_bringing brought) (stop.stops _)

theorem Resolves.stops {cs : List Category} {result : Except ImportError (List GroupKind)}
    (h : Resolves cs log result) : StopsAtFailure log result := by
  induction h with
  | nil => exact .of_ok fun _ he => nomatch he
  | refused e => exact .of_error _ rfl
  | givenUp => exact .of_error _ rfl
  | cons _ ih => exact (ih.map _).cons rfl

theorem FindsOut.stops {result : Except ImportError (List GroupKind)}
    (h : FindsOut known log result known') : StopsAtFailure log result := by
  cases h with
  | known => exact .of_ok fun _ he => nomatch he
  | found h => exact h.stops
  | failed h => exact h.stops

theorem Prepares.stops {result : Except ImportError (Resource → Resource)}
    (h : Prepares pause ms known log result known') : StopsAtFailure log result := by
  cases h with
  | asIs => exact .of_ok fun _ he => nomatch he
  | paused _ _ h => exact h.stops.map _

/-- The import of a group goes on as long as its calls are accepted. -/
theorem Course.stops {result : Except ImportError Nat}
    (h : Course group pause ms known log result known') : StopsAtFailure log result := by
  cases h with
  | unprepared h => exact h.stops.congr (by simp)
  | handled h handled => exact handled.stops.append (h.stops.ok_iff.mp ⟨_, rfl⟩)

/-! ### Which calls are made -/

/-- Whether a call is made to bring a manifest to the control plane. -/
def IsCallFor (made : Resource → Resource) (man : Manifest) (c : Call) : Prop :=
  c = .mappingForVersion (made man.resource).groupKind (made man.resource).version ∨
    ∃ mapping, c = .create mapping (made man.resource).withoutServerFields

theorem isCallFor_of_mem_bringing (h : log ∈ bringing made ms) :
    ∀ e ∈ log, ∃ man ∈ ms, IsCallFor made man e.call := by
  induction ms generalizing log with
  | nil =>
    obtain rfl : log = [] := h
    exact fun _ he => nomatch he
  | cons man ms ih =>
    obtain ⟨u, hu, v, hv, rfl⟩ := mem_bringing_cons_iff.mp h
    obtain ⟨mapping, answer, -, rfl⟩ := mem_applying_iff.mp hu
    intro e he
    simp only [List.cons_append, List.nil_append, List.mem_cons] at he
    rcases he with rfl | rfl | he
    · exact ⟨man, List.mem_cons_self, .inl rfl⟩
    · exact ⟨man, List.mem_cons_self, .inr ⟨mapping, rfl⟩⟩
    · obtain ⟨man', hman', hcall⟩ := ih hv e he
      exact ⟨man', List.mem_cons_of_mem _ hman', hcall⟩

theorem Refused.isCallFor {man : Manifest} {e : ClientError}
    (h : Refused (made man.resource) log e) : ∀ e ∈ log, IsCallFor made man e.call := by
  cases h <;> simp [IsCallFor]

theorem GivenUp.isCallFor {man : Manifest} (h : GivenUp (made man.resource) log) :
    ∀ e ∈ log, IsCallFor made man e.call := by
  cases h <;> simp [IsCallFor]

theorem Handled.isCallFor {result : Except ImportError Nat}
    (h : Handled group made ms log result) : ∀ e ∈ log, ∃ man ∈ ms, IsCallFor made man e.call := by
  cases h with
  | all h => exact isCallFor_of_mem_bringing h
  | @refused before after man u v e split brought stop =>
    subst split
    refine List.forall_mem_append.mpr ⟨fun e he => ?_, fun e he => ?_⟩
    · obtain ⟨man', hman', hcall⟩ := isCallFor_of_mem_bringing brought e he
      exact ⟨man', List.mem_append_left _ hman', hcall⟩
    · exact ⟨man, by simp, stop.isCallFor e he⟩
  | @givenUp before after man u v split brought stop =>
    subst split
    refine List.forall_mem_append.mpr ⟨fun e he => ?_, fun e he => ?_⟩
    · obtain ⟨man', hman', hcall⟩ := isCallFor_of_mem_bringing brought e he
      exact ⟨man', List.mem_append_left _ hman', hcall⟩
    · exact ⟨man, by simp, stop.isCallFor e he⟩

theorem Resolves.exists_resolve {cs : List Category} {result : Except ImportError (List GroupKind)}
    (h : Resolves cs log result) : ∀ e ∈ log, ∃ c, e.call = .resolve c := by
  induction h with
  | nil => exact fun _ he => nomatch he
  | refused | givenUp => exact List.forall_mem_singleton.mpr ⟨_, rfl⟩
  | cons _ ih => exact List.forall_mem_cons.mpr ⟨⟨_, rfl⟩, ih⟩

theorem Prepares.exists_resolve {result : Except ImportError (Resource → Resource)}
    (h : Prepares pause ms known log result known') : ∀ e ∈ log, ∃ c, e.call = .resolve c := by
  cases h with
  | asIs => exact fun _ he => nomatch he
  | paused _ _ h =>
    cases h with
    | known => exact fun _ he => nomatch he
    | found h | failed h => exact h.exists_resolve

theorem Prepares.creations {result : Except ImportError (Resource → Resource)}
    (h : Prepares pause ms known log result known') : creations log = [] := by
  refine List.filter_eq_nil_iff.mpr fun e he => ?_
  obtain ⟨c, hc⟩ := h.exists_resolve e he
  simp [hc, Call.isCreation]

/-- Nothing is replaced by the import of a group. -/
theorem Course.updates {result : Except ImportError Nat}
    (h : Course group pause ms known log result known') : updates log = [] := by
  suffices hnone : ∀ e ∈ log, e.call.isUpdate = false by
    simpa [PlaneRestore.updates] using hnone
  have hresolve : ∀ {u : List LoggedCall}, (∀ e ∈ u, ∃ c, e.call = .resolve c) →
      ∀ e ∈ u, e.call.isUpdate = false := by
    intro u hu e he
    obtain ⟨c, hc⟩ := hu e he
    rw [hc]
    rfl
  cases h with
  | unprepared h => exact hresolve h.exists_resolve
  | handled h handled =>
    refine List.forall_mem_append.mpr ⟨hresolve h.exists_resolve, fun e he => ?_⟩
    obtain ⟨man, -, hcall | ⟨mapping, hcall⟩⟩ := handled.isCallFor e he <;> rw [hcall] <;> rfl

/-! ### Which objects are there in the end -/

/-- The call has created the object of a manifest, which may have got the pause before, or has found
it there. -/
def Resource.IsBroughtBy (manifest : Resource) (e : LoggedCall) : Prop :=
  ∃ mapping r answer, (r = manifest ∨ r = manifest.pause) ∧
    e = ⟨.create mapping r.withoutServerFields, some answer⟩ ∧
      ((∃ created, answer = .ok created) ∨ ∃ kind name, answer = .error (.alreadyExists kind name))

theorem isSettled_iff {answer : Except ClientError Resource} :
    IsSettled answer ↔ (∃ created, answer = .ok created) ∨
      ∃ kind name, answer = .error (.alreadyExists kind name) := by
  cases answer with
  | ok created => exact iff_of_true ⟨.created, rfl⟩ (.inl ⟨created, rfl⟩)
  | error e =>
    by_cases hexists : ∃ kind name, e = .alreadyExists kind name
    · obtain ⟨kind, name, rfl⟩ := hexists
      exact iff_of_true ⟨.adopted, rfl⟩ (.inr ⟨kind, name, rfl⟩)
    · have hread : Applied.ofAnswer (.error e : Except ClientError Resource) = .error e :=
        Applied.ofAnswer_eq_error_iff.mpr ⟨rfl, fun kind name he => hexists ⟨kind, name, he⟩⟩
      simpa [IsSettled, hread] using hexists

theorem Resource.IsBroughtBy.isAccepted {r : Resource} {e : LoggedCall} (h : r.IsBroughtBy e) :
    e.isAccepted = true := by
  obtain ⟨_, _, _, -, rfl, ⟨created, rfl⟩ | ⟨kind, name, rfl⟩⟩ := h <;> rfl

theorem Refused.not_isAccepted {r : Resource} {e : ClientError} (h : Refused r log e) :
    ∀ e ∈ creations log, e.isAccepted = false := by
  cases h with
  | mapping => exact fun _ he => nomatch he
  | creation isOther => exact List.forall_mem_singleton.mpr (isAccepted_of_refused isOther)

theorem GivenUp.not_isAccepted {r : Resource} (h : GivenUp r log) :
    ∀ e ∈ creations log, e.isAccepted = false := by
  cases h with
  | mapping => exact fun _ he => nomatch he
  | creation => exact List.forall_mem_singleton.mpr rfl

/-- Manifests are created as they are, or with the pause. -/
def MayPause (made : Resource → Resource) : Prop := ∀ r, made r = r ∨ made r = r.pause

theorem mayPause_pausedIn (kinds : List GroupKind) : MayPause (pausedIn kinds) := by
  intro r
  rw [pausedIn]
  split
  · exact .inr rfl
  · exact .inl rfl

theorem Prepares.mayPause (h : Prepares pause ms known log (.ok made) known') : MayPause made := by
  generalize hresult : (.ok made : Except ImportError _) = result at h
  cases h with
  | asIs =>
    cases hresult
    exact fun r => .inl rfl
  | paused =>
    obtain ⟨kinds, -, rfl⟩ := map_eq_ok_iff.mp hresult.symm
    exact mayPause_pausedIn kinds

/-- If it could not be found out what is made of manifests, there are some. -/
theorem Prepares.ne_nil {e : ImportError} (h : Prepares pause ms known log (.error e) known') :
    ms ≠ [] := by
  generalize hresult : (.error e : Except ImportError _) = result at h
  cases h with
  | asIs => cases hresult
  | paused _ hne => exact hne

/-- If all manifests were brought to the control plane, each has an object there. -/
theorem forall₂_creations (hmade : MayPause made) (h : log ∈ bringing made ms) :
    List.Forall₂ (fun man e => man.resource.IsBroughtBy e) ms (creations log) := by
  induction ms generalizing log with
  | nil =>
    obtain rfl : log = [] := h
    exact .nil
  | cons man ms ih =>
    obtain ⟨u, hu, v, hv, rfl⟩ := mem_bringing_cons_iff.mp h
    obtain ⟨mapping, answer, hanswer, rfl⟩ := mem_applying_iff.mp hu
    exact .cons ⟨mapping, _, answer, hmade man.resource, rfl, isSettled_iff.mp hanswer⟩ (ih hv)

/-- After the objects of the manifests before, a refused or unanswered call has brought nothing. -/
theorem not_forall₂_creations {before after : List Manifest} {man : Manifest}
    (hmade : MayPause made) (hu : u ∈ bringing made before)
    (hv : ∀ e ∈ creations v, e.isAccepted = false) :
    ¬List.Forall₂ (fun man e => man.resource.IsBroughtBy e) (before ++ man :: after)
      (creations (u ++ v)) := by
  intro h
  have hlen := (forall₂_creations hmade hu).length_eq
  have hrest := List.forall₂_drop before.length h
  rw [creations, List.filter_append] at hrest
  change List.Forall₂ _ _ ((creations u ++ creations v).drop _) at hrest
  rw [List.drop_left, hlen, List.drop_left] at hrest
  generalize hcreated : creations v = created at hrest
  cases hrest with
  | cons hfirst _ =>
    have hfailed := hv _ (hcreated ▸ List.mem_cons_self)
    rw [hfirst.isAccepted] at hfailed
    cases hfailed

/-- The import of a group answers the number of its manifests if, and only if, each has an object
then. -/
theorem Course.ok_iff {result : Except ImportError Nat} {n : Nat}
    (h : Course group pause ms known log result known') :
    result = .ok n ↔ n = ms.length ∧
      List.Forall₂ (fun man e => man.resource.IsBroughtBy e) ms (creations log) := by
  cases h with
  | unprepared h =>
    simp only [h.creations, reduceCtorEq, List.forall₂_nil_right_iff, h.ne_nil, and_false]
  | @handled u v made result known' h handled =>
    have hmade := h.mayPause
    -- what comes before the manifests creates nothing
    have hcreations : creations (u ++ v) = creations v := by
      rw [creations, List.filter_append]
      exact (congrArg (· ++ _) h.creations).trans (List.nil_append _)
    rw [hcreations]
    cases handled with
    | all hall => simp [forall₂_creations hmade hall, eq_comm]
    | refused split brought stop =>
      subst split
      exact iff_of_false (by simp) fun hn =>
        not_forall₂_creations hmade brought stop.not_isAccepted hn.2
    | givenUp split brought stop =>
      subst split
      exact iff_of_false (by simp) fun hn =>
        not_forall₂_creations hmade brought stop.not_isAccepted hn.2

/-- The pause does not touch the identity of a manifest. -/
theorem sameIdentity_pausedIn {r : Resource} (hr : r.IsValid) (kinds : List GroupKind) :
    r.SameIdentity (pausedIn kinds r) := by
  rw [pausedIn]
  split
  · exact (hr.edited [.annotate pausedKey "true"]).2
  · exact ⟨rfl, rfl, rfl, rfl⟩

theorem isValid_of_readChild {child : String × Entry} {man : Manifest}
    (h : readChild group child = .ok man) : man.resource.IsValid := by
  obtain ⟨name, mode | ⟨mode, contents⟩⟩ := child
  · cases h
  · rw [readChild] at h
    split at h
    · next r hread =>
      cases h
      exact (Resource.IsRead.yaml hread).isValid
    · cases h

/-! ### The whole import -/

/-- How the manifests of a group are imported that have all been read. -/
structure ImportsManifests (group : String) (pause : Bool) (ms : List Manifest)
    (known : Option (List GroupKind)) (log : List LoggedCall) (result : Except ImportError Nat) :
    Prop where
  /-- One manifest after another: its mapping is looked up, and it is created, up to the first call
  that is refused or given up. The kinds that are created paused are found out before that. -/
  course : ∃ known', Course group pause ms known log result known'
  /-- Where a manifest gets the pause, it stays what it is. -/
  own : ∀ man ∈ ms, ∀ kinds, man.resource.SameIdentity (pausedIn kinds man.resource)
  stops : StopsAtFailure log result
  ok_iff : ∀ n, result = .ok n ↔ n = ms.length ∧
    List.Forall₂ (fun man e => man.resource.IsBroughtBy e) ms (creations log)
  noUpdate : updates log = []

/-- How a group is imported that is read from an exported state. -/
structure ImportsGroup (s : ExportedState) (group : String) (pause : Bool)
    (known : Option (List GroupKind)) (ts : Turns) (result : Except ImportError Nat) : Prop where
  ordered : ((s.childrenOf group).map (·.1)).Pairwise (· < ·)
  children : ∀ name e, (name, e) ∈ s.childrenOf group ↔
    Path.IsEntryName name ∧ s.entryAt? (group ++ "/" ++ name) = some e
  /-- A group that is not there imports nothing. -/
  absent : s.entryAt? group = none → ts = [] ∧ result = .ok 0
  file : ∀ mode contents, s.entryAt? group = some (.file mode contents) →
    ts = [] ∧ ∃ path, result = .error (.importGroup group (.notADirectory path))
  /-- Before anything is asked, the first child fails the group that is no file with a manifest. -/
  unreadable : ∀ mode before child after e, s.entryAt? group = some (.directory mode) →
    s.childrenOf group = before ++ child :: after →
    (∀ c ∈ before, ∃ man, readChild group c = .ok man) → readChild group child = .error e →
      ts = [] ∧ result = .error (.importGroup group e)
  readable : ∀ mode ms, s.entryAt? group = some (.directory mode) →
    List.Forall₂ (fun c man => readChild group c = .ok man) (s.childrenOf group) ms →
      ImportsManifests group pause ms known (callLog ts) result

/-- What is wrong with a child of a group is no cancellation. -/
theorem inGroup_of_readChild {child : String × Entry} {e : ImportError}
    (h : readChild group child = .error e) : e.inGroup group = .importGroup group e := by
  obtain ⟨name, mode | ⟨mode, contents⟩⟩ := child
  · cases h
    rfl
  · rw [readChild] at h
    split at h
    · cases h
    · cases h
      rfl

theorem Work.importsGroup {s : ExportedState} (hs : s.WellFormed) {m m' : Memory} {ts : Turns}
    {result : Except ImportError Nat}
    (h : (importGroup s group pause).Led m ts (some (result, m'))) :
    ImportsGroup s group pause m.pausable ts result := by
  -- all depends on whether the group can be read
  have hfail : ∀ {e}, s.readGroup group = .error e →
      ts = [] ∧ result = .error (e.inGroup group) := by
    intro e he
    rcases led_importGroup h with ⟨e', he', hts, hresult, -⟩ | ⟨ms, known, hms, -⟩
    · obtain rfl : e = e' := Except.error.inj (he.symm.trans he')
      exact ⟨hts, hresult⟩
    · cases he.symm.trans hms
  have hgo : ∀ {ms}, s.readGroup group = .ok ms →
      ∃ known, Course group pause ms m.pausable (callLog ts) result known := by
    intro ms hms
    rcases led_importGroup h with ⟨e', he', -⟩ | ⟨ms', known, hms', hcourse, -⟩
    · cases hms.symm.trans he'
    · obtain rfl : ms = ms' := Except.ok.inj (hms.symm.trans hms')
      exact ⟨known, hcourse⟩
  constructor
  case ordered => exact hs.childrenOf_ordered group
  case children => exact fun name e => hs.mem_childrenOf_iff
  case absent =>
    intro hnone
    have hrun : (importGroup s group pause).run.run m = .done (.ok 0, m) := by
      rw [importGroup, readGroup_of_absent hnone]
      rfl
    rw [Work.Led, hrun] at h
    obtain ⟨hts, hend⟩ := led_done_some h
    exact ⟨hts, (Prod.mk.inj hend).1⟩
  case file =>
    intro mode contents hfile
    obtain ⟨p, hp, -⟩ := Option.bind_eq_some_iff.mp hfile
    obtain ⟨hts, hresult⟩ := hfail (hs.readGroup_of_file hp hfile)
    exact ⟨hts, _, hresult⟩
  case unreadable =>
    intro mode before child after e hdir hsplit hbefore he
    have hread : s.readGroup group = .error e := by
      rw [hs.readGroup_eq hdir, hsplit, mapM_eq_error hbefore he]
    obtain ⟨hts, hresult⟩ := hfail hread
    exact ⟨hts, hresult.trans (congrArg Except.error (inGroup_of_readChild he))⟩
  case readable =>
    intro mode ms hdir hall
    have hread : s.readGroup group = .ok ms := by
      rw [hs.readGroup_eq hdir, mapM_eq_ok_iff]
      exact hall
    obtain ⟨known', hcourse⟩ := hgo hread
    refine ⟨⟨known', hcourse⟩, fun man hman kinds => ?_, hcourse.stops, fun n => hcourse.ok_iff,
      hcourse.updates⟩
    obtain ⟨i, hi, rfl⟩ := List.getElem_of_mem hman
    have hchild := hall.get (hall.length_eq ▸ hi) hi
    exact sameIdentity_pausedIn (isValid_of_readChild hchild) kinds

/-- **Importing one group, end to end.** However it is answered, and wherever it is broken off,
what imports a group can be led on to its end, and then it has gone as it should. -/
theorem group_is_imported {s : ExportedState} (hs : s.Reachable) {m : Memory} {ts : Turns}
    {r : Option (Except ImportError Nat × Memory)}
    (h : (Work.importGroup s group pause).Led m ts r) :
    ∃ us result m', (Work.importGroup s group pause).Led m (ts ++ us) (some (result, m')) ∧
      (∀ p, r = some p → us = [] ∧ p = (result, m')) ∧
        ImportsGroup s group pause m.pausable (ts ++ us) result := by
  obtain ⟨us, ⟨result, m'⟩, hled, hend⟩ := Dialogue.Led.completed h
  exact ⟨us, result, m', hled, hend, Work.importsGroup hs.wellFormed hled⟩

namespace Sample

/-- A group with both sample manifests. -/
def mixedState : ExportedState :=
  ⟨[(["mixed"], .directory 0o755), (["mixed", "a.yaml"], .file 0o644 teamManifest),
    (["mixed", "b.yaml"], .file 0o644 logsManifest)]⟩

theorem reachable_mixedState : mixedState.Reachable := by
  have hfirst : ExportedState.Reachable ⟨[(["mixed"], .directory 0o755),
      (["mixed", "a.yaml"], .file 0o644 teamManifest)]⟩ :=
    reachable_of_addFile "mixed/a.yaml" teamManifest 0o644 .empty (by decide +kernel)
  exact reachable_of_addFile "mixed/b.yaml" logsManifest 0o644 hfirst (by decide +kernel)

/-- Its import into a plane that refuses the second one. -/
def mixedImport : Turns × Except ImportError Nat × Memory :=
  ((Work.importGroup mixedState "mixed" true).run.run .empty).play (MemoryPlane.reply mixedState)
    planeFailing

end Sample

open Sample in
theorem group_is_imported_sample :
    ImportsGroup mixedState "mixed" true none mixedImport.1 mixedImport.2.1 ∧
      (creations (callLog mixedImport.1)).length = 2 ∧ mixedImport.2.1 = .error
        (.importGroup "mixed" (.manifestFile "mixed/b.yaml" (.apply "Bucket.aws.example.io logs"
          (.api 422 "simulated create failure for logs")))) := by
  have hled : (Work.importGroup mixedState "mixed" true).Led .empty mixedImport.1
      (some mixedImport.2) := Dialogue.led_play _ _ planeFailing
  obtain ⟨us, result, m', -, hend, himports⟩ := group_is_imported reachable_mixedState hled
  obtain ⟨rfl, hresult⟩ := hend _ rfl
  obtain rfl : mixedImport.2.1 = result := congrArg Prod.fst hresult
  rw [List.append_nil] at himports
  exact ⟨himports, by decide +kernel, by decide +kernel⟩

end PlaneRestore
