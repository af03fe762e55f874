import PlaneRestore.Proofs.Import.Result
/-!
What an import may create and replace at any point of a run.

* `Careful s o before c`: after the calls `before`, the call `c` is what it may be. An object of a
  kind that is to be paused is created paused, all others as their manifests are. Nothing is
  replaced before the end, and then only objects of the kinds to be unpaused.
* `ImportRun.allCareful`: all calls of all runs are careful, however they end.
-/

namespace PlaneRestore

open Words

variable {s : ExportedState} {o : ImportOptions}

/-! ### What has been said before -/

def Call.isCreation : Call → Bool
  | .create _ _ => true
  | _ => false

def Call.isReset : Call → Bool
  | .reset => true
  | _ => false

/-- The creations in a log. -/
def creations (log : List LoggedCall) : List LoggedCall := log.filter (·.call.isCreation)

theorem creations_concat (log : List LoggedCall) {e : LoggedCall}
    (h : e.call.isCreation = false) : creations (log ++ [e]) = creations log := by
  simp [creations, h]

def hasReset (log : List LoggedCall) : Bool := log.any (·.call.isReset)

/-- The kinds that a call was answered, if it asked for a category of which objects are created
paused. -/
def LoggedCall.pausableKinds : LoggedCall → List GroupKind
  | ⟨.resolve c, some (.ok mappings)⟩ =>
    if Category.pausable.contains c then kindsOf mappings else []
  | _ => []

/-- The union of these kinds. -/
def resolvedKinds (log : List LoggedCall) : List GroupKind := log.flatMap LoggedCall.pausableKinds

/-- A category has been resolved into some mappings. -/
def HasResolved (log : List LoggedCall) (c : Category) (mappings : List KindMapping) : Prop :=
  (⟨.resolve c, some (.ok mappings)⟩ : LoggedCall) ∈ log

/-- A category has been resolved into some mappings after all manifests had been brought. -/
def HasResolvedInEnd (s : ExportedState) (log : List LoggedCall) (c : Category)
    (mappings : List KindMapping) : Prop :=
  ∃ u v, log = u ++ v ∧ (creations u).length = s.plan.length ∧ HasResolved v c mappings

/-- An object is there after this creation. -/
def LoggedCall.IsSettled (e : LoggedCall) : Prop :=
  ∃ m r a, e = ⟨.create m r, some a⟩ ∧ Words.IsSettled a

/-! ### Careful calls -/

/-- A resource is the manifest with the pause; its other annotations are those of the manifest. -/
def IsPausedFrom (manifest r : Resource) : Prop :=
  r.annotation? pausedKey = some "true" ∧
    ∀ as, manifest.annotationsValue? = some (.object as) →
      ∃ bs, r.annotationsValue? = some (.object bs) ∧
        ∀ k, k ≠ pausedKey → Table.get? k bs = Table.get? k as

/-- The object that is created is that of the next manifest. It is paused if it comes after the
reset and is of a kind that was resolved, and otherwise has the annotations of the manifest. -/
structure CreatesCarefully (s : ExportedState) (before : List LoggedCall) (mapping : KindMapping)
    (r : Resource) (task : Manifest × Bool) : Prop where
  next : s.plan[(creations before).length]? = some task
  isLater : task.2 = hasReset before
  names : Resource.SameNames task.1.resource r
  mapped : ∃ version,
    (⟨.mappingForVersion r.groupKind version, some (.ok mapping)⟩ : LoggedCall) ∈ before
  resolved : hasReset before = true →
    ∀ c ∈ Category.pausable, ∃ mappings, HasResolved before c mappings
  paused : hasReset before = true → r.groupKind ∈ resolvedKinds before →
    IsPausedFrom task.1.resource r
  unchanged : ¬(hasReset before = true ∧ r.groupKind ∈ resolvedKinds before) →
    r.annotationsValue? = task.1.resource.annotationsValue?

/-- All manifests have been brought, and the kind of the object that is replaced was resolved after
that, for a category to be unpaused. -/
structure UpdatesCarefully (s : ExportedState) (o : ImportOptions) (before : List LoggedCall)
    (mapping : KindMapping) : Prop where
  brought : (creations before).length = s.plan.length
  settled : ∀ e ∈ creations before, e.IsSettled
  resolved : ∃ c ∈ unpausedCategories o, ∃ mappings,
    HasResolvedInEnd s before c mappings ∧ mapping ∈ mappings

/-- What a call may be after some others. -/
def Careful (s : ExportedState) (o : ImportOptions) (before : List LoggedCall) : Call → Prop
  | .create mapping r => ∃ task, CreatesCarefully s before mapping r task
  | .update mapping _ => UpdatesCarefully s o before mapping
  | _ => True

/-- Every call of a log is careful. -/
def AllCareful (s : ExportedState) (o : ImportOptions) (log : List LoggedCall) : Prop :=
  ∀ u e v, log = u ++ e :: v → Careful s o u e.call

theorem allCareful_nil : AllCareful s o [] := fun u e v h => by simp at h

theorem AllCareful.concat {log : List LoggedCall} {e : LoggedCall} (h : AllCareful s o log)
    (he : Careful s o log e.call) : AllCareful s o (log ++ [e]) := by
  intro u e' v heq
  rcases List.append_eq_append_iff.mp heq with ⟨as, rfl, has⟩ | ⟨bs, rfl, hbs⟩
  · cases as with
    | nil =>
      obtain ⟨rfl, -⟩ := List.cons.inj has
      rwa [List.append_nil]
    | cons a as => simp at has
  · cases bs with
    | nil =>
      obtain ⟨rfl, -⟩ := List.cons.inj hbs
      rwa [List.append_nil] at he
    | cons b bs =>
      obtain ⟨rfl, -⟩ := List.cons.inj hbs
      exact h u e' bs rfl

/-- A log grows by a call. -/
def Extends (log : List LoggedCall) (e : LoggedCall) (log' : List LoggedCall) : Prop :=
  log' = log ++ [e]

theorem steps_extends (log before : List LoggedCall) :
    Steps Extends before log (before ++ log) := by
  induction log generalizing before with
  | nil =>
    rw [List.append_nil]
    exact .nil before
  | cons e log ih =>
    have := ih (before ++ [e])
    rw [List.append_assoc] at this
    exact .cons rfl this

/-- A call that is careful carries one log to another. -/
theorem carries_careful {c : Call} {good : c.Answer → Prop} {pre post : List LoggedCall → Prop}
    (hpre : ∀ log, pre log → AllCareful s o log) (hc : ∀ log, pre log → Careful s o log c)
    (hpost : ∀ log a, pre log → good a → AllCareful s o (log ++ [⟨c, some a⟩]) →
      post (log ++ [⟨c, some a⟩])) :
    Carries Extends (AllCareful s o) pre (answered c good) post := by
  refine carries_answered hpre ?_ ?_
  · rintro log a _ hlog rfl
    exact (hpre log hlog).concat (hc log hlog)
  · rintro log a _ hlog ha rfl
    exact hpost log a hlog ha ((hpre log hlog).concat (hc log hlog))

/-! ### Creations -/

/-- So many manifests have been brought; `later` and `kinds` are what is known by now. -/
structure BroughtSome (s : ExportedState) (o : ImportOptions) (n : Nat) (later : Bool)
    (kinds : List GroupKind) (log : List LoggedCall) : Prop where
  careful : AllCareful s o log
  count : (creations log).length = n
  settled : ∀ e ∈ creations log, e.IsSettled
  reset : hasReset log = later
  kinds : resolvedKinds log = kinds

variable {n : Nat} {later : Bool} {kinds : List GroupKind} {log : List LoggedCall}

theorem BroughtSome.concat {e : LoggedCall} {kinds' : List GroupKind}
    (h : BroughtSome s o n later kinds log) (hcareful : AllCareful s o (log ++ [e]))
    (hcreation : e.call.isCreation = false) (hreset : e.call.isReset = false)
    (hkinds : kinds ++ e.pausableKinds = kinds') :
    BroughtSome s o n later kinds' (log ++ [e]) := by
  have hcreations := creations_concat log hcreation
  refine ⟨hcareful, hcreations ▸ h.count, hcreations ▸ h.settled, ?_, ?_⟩
  · simp [hasReset, ← h.reset, hreset]
  · simp [resolvedKinds, ← hkinds, ← h.kinds]

theorem hasMetadata_of_mem_plan {task : Manifest × Bool} (h : task ∈ s.plan) :
    task.1.resource.HasMetadata := by
  have hread : ∀ group, ∀ man ∈ s.manifestsIn group, man.resource.HasMetadata := by
    intro group man hman
    obtain ⟨child, -, hchild⟩ := List.mem_filterMap.mp hman
    obtain ⟨-, -, contents, -, hyaml⟩ := ExportedState.manifestOf?_eq_some_iff.mp hchild
    exact Resource.hasMetadata_of_ofYaml hyaml
  rw [ExportedState.plan, List.mem_append, List.mem_map, List.mem_map] at h
  rcases h with ⟨man, hman, rfl⟩ | ⟨man, hman, rfl⟩
  · obtain ⟨group, -, hman⟩ := List.mem_flatMap.mp hman
    exact hread group man hman
  · obtain ⟨group, -, hman⟩ := List.mem_flatMap.mp hman
    exact hread group man hman

theorem isPausedFrom_pause {r : Resource} (h : r.HasMetadata) :
    IsPausedFrom r r.pause.withoutServerFields := by
  have hvalue := r.pause.annotationsValue?_withoutServerFields
  refine ⟨?_, fun as has => ?_⟩
  · rw [Resource.annotation?, hvalue, ← Resource.annotation?]
    exact h.annotation?_pause
  · obtain ⟨bs, hbs, -, hother⟩ := h.annotationsValue?_set pausedKey "true"
    refine ⟨bs, hvalue.trans hbs, fun k hk => ?_⟩
    rw [hother k hk, has]
    rfl

/-- Some categories have been resolved. -/
def HasResolvedAll (categories : List Category) (log : List LoggedCall) : Prop :=
  ∀ c ∈ categories, ∃ mappings, HasResolved log c mappings

theorem HasResolvedAll.append {categories : List Category} {log : List LoggedCall}
    (h : HasResolvedAll categories log) (v : List LoggedCall) :
    HasResolvedAll categories (log ++ v) := fun c hc =>
  (h c hc).imp fun _ hmem => List.mem_append_left v hmem

/-- What is true before a manifest is brought. -/
def IsBringing (s : ExportedState) (o : ImportOptions) (n : Nat) (later : Bool)
    (kinds : List GroupKind) (log : List LoggedCall) : Prop :=
  BroughtSome s o n later kinds log ∧ (later = true → HasResolvedAll Category.pausable log)

theorem createsCarefully {task : Manifest × Bool} {mapping : KindMapping} {version : String}
    (htask : s.plan[n]? = some task) (h : IsBringing s o n task.2 kinds log)
    (hmapped : (⟨.mappingForVersion (asBrought kinds task).groupKind version,
      some (.ok mapping)⟩ : LoggedCall) ∈ log) :
    CreatesCarefully s log mapping (asBrought kinds task).withoutServerFields task := by
  obtain ⟨hsome, hresolved⟩ := h
  have hmetadata := hasMetadata_of_mem_plan (List.mem_of_getElem? htask)
  have hnames := (sameNames_asBrought kinds task).trans (Resource.sameNames_withoutServerFields _)
  have hkind : (asBrought kinds task).withoutServerFields.groupKind
      = (asBrought kinds task).groupKind := (Resource.sameNames_withoutServerFields _).groupKind
  refine ⟨hsome.count ▸ htask, hsome.reset.symm, hnames, ⟨version, hkind ▸ hmapped⟩, ?_, ?_, ?_⟩
  · exact fun hreset => hresolved (hsome.reset ▸ hreset)
  · intro hreset hmem
    rw [hsome.reset] at hreset
    rw [hsome.kinds, hnames.groupKind] at hmem
    -- after the reset, a manifest of a pausable kind is brought with the pause
    have hpause : asBrought kinds task = task.1.resource.pause := by
      simp [asBrought, pausedIn, hreset, hmem]
    rw [hpause]
    exact isPausedFrom_pause hmetadata
  · intro hother
    rw [hsome.reset, hsome.kinds, hnames.groupKind] at hother
    -- any other manifest is brought as it is, and its annotations are those of the file
    have hplain : asBrought kinds task = task.1.resource := by
      rw [asBrought, pausedIn]
      split
      · next hlater =>
        rw [if_neg]
        simpa using fun hmem => hother ⟨hlater, hmem⟩
      · rfl
    rw [hplain, Resource.annotationsValue?_withoutServerFields]

/-- One manifest is brought carefully. -/
theorem carries_bringing {task : Manifest × Bool} (htask : s.plan[n]? = some task) :
    Carries Extends (AllCareful s o) (IsBringing s o n task.2 kinds)
      (applying (asBrought kinds task)) (IsBringing s o (n + 1) task.2 kinds) := by
  refine carries_iSup fun mapping => Carries.mul (I := fun log =>
    IsBringing s o n task.2 kinds log ∧ (⟨.mappingForVersion (asBrought kinds task).groupKind
      (asBrought kinds task).version, some (.ok mapping)⟩ : LoggedCall) ∈ log) ?_ ?_
  · -- the kind is looked up
    refine carries_careful (fun _ h => h.1.careful) (fun _ _ => trivial) ?_
    rintro log a ⟨hsome, hresolved⟩ rfl hcareful
    have hnext := hsome.concat hcareful rfl rfl (List.append_nil kinds)
    exact ⟨⟨hnext, fun hlater => (hresolved hlater).append _⟩, by simp⟩
  · -- the object is created
    refine carries_careful (fun _ h => h.1.1.careful) ?_ ?_
    · exact fun log h => ⟨task, createsCarefully htask h.1 h.2⟩
    · rintro log a ⟨⟨hsome, hresolved⟩, -⟩ ha hcareful
      -- the new call is one more creation, of the n-th task
      have hcreations : creations (log ++ [⟨.create mapping _, some a⟩]) = creations log
          ++ [⟨.create mapping (asBrought kinds task).withoutServerFields, some a⟩] := by
        simp [creations, Call.isCreation]
      refine ⟨⟨hcareful, ?_, ?_, ?_, ?_⟩, fun hlater => (hresolved hlater).append _⟩
      · rw [hcreations, List.length_append, hsome.count]
        rfl
      · rw [hcreations]
        intro e he
        rcases List.mem_append.mp he with he | he
        · exact hsome.settled e he
        · obtain rfl := List.mem_singleton.mp he
          exact ⟨mapping, _, a, rfl, ha⟩
      · simp [hasReset, ← hsome.reset, Call.isReset]
      · simp [resolvedKinds, ← hsome.kinds, LoggedCall.pausableKinds]

/-! ### The phases -/

/-- The base groups are brought carefully. -/
theorem carries_bringing_base :
    Carries Extends (AllCareful s o) (BroughtSome s o 0 false [])
      (s.baseManifests.map fun man => applying man.resource).prod
      (BroughtSome s o s.baseManifests.length false []) := by
  have hloop := carries_prod (R := Extends) (D := AllCareful s o) (l := s.baseManifests)
    (f := fun man => applying man.resource)
    (fun done => IsBringing s o done.length false []) (fun _ _ h => h.1.careful) ?_
  · exact hloop.mono (fun _ h => ⟨h, fun hlater => nomatch hlater⟩) fun _ h => h.1
  · intro done man rest hsplit
    have htask : s.plan[done.length]? = some (man, false) := by
      simp [ExportedState.plan, hsplit]
    rw [List.length_append]
    exact carries_bringing htask

theorem carries_careful_waiting (gate : Gate) :
    Carries Extends (AllCareful s o) (BroughtSome s o n false []) (waiting gate)
      (BroughtSome s o n false []) := by
  refine carries_waiting gate (fun _ h => h.careful) ?_ ?_
  · refine fun good => carries_careful (fun _ h => h.careful) (fun _ _ => trivial) ?_
    intro log a h ha hcareful
    exact h.concat hcareful rfl rfl rfl
  · refine fun m good => carries_careful (fun _ h => h.careful) (fun _ _ => trivial) ?_
    intro log a h ha hcareful
    exact h.concat hcareful rfl rfl rfl

theorem carries_careful_reset :
    Carries Extends (AllCareful s o) (BroughtSome s o n false []) (answered .reset fun _ => True)
      (BroughtSome s o n true []) := by
  refine carries_careful (fun _ h => h.careful) (fun _ _ => trivial) ?_
  intro log a h _ hcareful
  have hcreations := creations_concat log (e := ⟨.reset, some a⟩) rfl
  refine ⟨hcareful, hcreations ▸ h.count, hcreations ▸ h.settled, ?_, ?_⟩
  · simp [hasReset, Call.isReset]
  · simp [resolvedKinds, LoggedCall.pausableKinds, ← h.kinds]

theorem carries_careful_resolving (kinds : List GroupKind) (categories : List Category)
    (mappings : List KindMapping) {c : Category} (hc : c ∈ Category.pausable) :
    Carries Extends (AllCareful s o)
      (fun log => BroughtSome s o n true kinds log ∧ HasResolvedAll categories log)
      (resolving c mappings) (fun log => BroughtSome s o n true (kinds ++ kindsOf mappings) log ∧
        HasResolvedAll (categories ++ [c]) log) := by
  refine carries_careful (fun _ h => h.1.careful) (fun _ _ => trivial) ?_
  rintro log a ⟨hsome, hresolved⟩ rfl hcareful
  have hkinds : LoggedCall.pausableKinds ⟨.resolve c, some (.ok mappings)⟩ = kindsOf mappings :=
    if_pos (by simpa using hc)
  refine ⟨hsome.concat hcareful rfl rfl (by rw [hkinds]), fun c' hc' => ?_⟩
  rcases List.mem_append.mp hc' with hc' | hc'
  · exact hresolved.append _ c' hc'
  · obtain rfl := List.mem_singleton.mp hc'
    exact ⟨mappings, by simp [HasResolved]⟩

/-- The kinds that are created paused are found out. -/
theorem carries_careful_resolvingPausable (found : List GroupKind) :
    Carries Extends (AllCareful s o) (BroughtSome s o n true []) (resolvingPausable found)
      (IsBringing s o n true found) := by
  refine carries_iSup fun claims => carries_iSup fun composites => carries_iSup fun managed =>
    carries_iSup fun hfound => ?_
  -- what has been resolved grows by one category after the other
  have hclaims := carries_careful_resolving (s := s) (o := o) (n := n) [] [] claims
    (c := .claim) (by simp [Category.pausable])
  have hcomposites := carries_careful_resolving (s := s) (o := o) (n := n)
    ([] ++ kindsOf claims) ([] ++ [.claim]) composites (c := .composite)
    (by simp [Category.pausable])
  have hmanaged := carries_careful_resolving (s := s) (o := o) (n := n)
    ([] ++ kindsOf claims ++ kindsOf composites) ([] ++ [.claim] ++ [.composite]) managed
    (c := .managed) (by simp [Category.pausable])
  refine ((hclaims.mul hcomposites).mul hmanaged).mono ?_ ?_
  · exact fun log h => ⟨h, fun _ hc => absurd hc List.not_mem_nil⟩
  · rintro log ⟨hsome, hresolved⟩
    rw [List.nil_append, ← hfound] at hsome
    exact ⟨hsome, fun _ => hresolved⟩

/-- All manifests have been brought. -/
structure BroughtAll (s : ExportedState) (o : ImportOptions) (log : List LoggedCall) : Prop where
  careful : AllCareful s o log
  brought : (creations log).length = s.plan.length
  settled : ∀ e ∈ creations log, e.IsSettled

theorem BroughtAll.concat {e : LoggedCall} (h : BroughtAll s o log)
    (hcareful : AllCareful s o (log ++ [e])) (hcreation : e.call.isCreation = false) :
    BroughtAll s o (log ++ [e]) := by
  have hcreations := creations_concat log hcreation
  exact ⟨hcareful, hcreations ▸ h.brought, hcreations ▸ h.settled⟩

/-- The other groups are brought carefully. -/
theorem carries_bringingLater :
    Carries Extends (AllCareful s o) (BroughtSome s o s.baseManifests.length true [])
      (bringingLater s.laterManifests) (BroughtAll s o) := by
  have hlength : s.plan.length = s.baseManifests.length + s.laterManifests.length := by
    simp [ExportedState.plan]
  cases hlater : s.laterManifests with
  -- without other groups the kinds are not resolved at all
  | nil =>
    refine (carries_one fun _ h => h.careful).mono (fun _ h => h) fun log h => ?_
    exact ⟨h.careful, by rw [hlength, hlater]; exact h.count, h.settled⟩
  | cons first others =>
    refine carries_iSup fun found => (carries_careful_resolvingPausable found).mul ?_
    rw [← hlater]
    -- the invariant counts the manifests of this loop onto those of the base
    have hloop := carries_prod (R := Extends) (D := AllCareful s o) (l := s.laterManifests)
      (f := fun man => applying (pausedIn found man.resource))
      (fun done => IsBringing s o (s.baseManifests.length + done.length) true found)
      (fun _ _ h => h.1.careful) ?_
    · refine hloop.mono (fun _ h => h) fun log h => ?_
      exact ⟨h.1.careful, hlength ▸ h.1.count, h.1.settled⟩
    · intro done man rest hsplit
      have htask : s.plan[s.baseManifests.length + done.length]? = some (man, true) := by
        simp [ExportedState.plan, hsplit]
      rw [List.length_append]
      exact carries_bringing htask

/-- After all manifests, a category to be unpaused has been resolved into some mappings. -/
def IsUnpausing (s : ExportedState) (o : ImportOptions) (mappings : List KindMapping)
    (log : List LoggedCall) : Prop :=
  BroughtAll s o log ∧ ∃ c ∈ unpausedCategories o, HasResolvedInEnd s log c mappings

theorem HasResolvedInEnd.append {log : List LoggedCall} {c : Category}
    {mappings : List KindMapping} (h : HasResolvedInEnd s log c mappings) (v : List LoggedCall) :
    HasResolvedInEnd s (log ++ v) c mappings := by
  obtain ⟨u, u', rfl, hu, hmem⟩ := h
  exact ⟨u, u' ++ v, by simp, hu, List.mem_append_left v hmem⟩

theorem IsUnpausing.concat {e : LoggedCall} {mappings : List KindMapping}
    (h : IsUnpausing s o mappings log) (hcareful : AllCareful s o (log ++ [e]))
    (hcreation : e.call.isCreation = false) : IsUnpausing s o mappings (log ++ [e]) := by
  obtain ⟨hall, c, hc, hend⟩ := h
  exact ⟨hall.concat hcareful hcreation, c, hc, hend.append [e]⟩

theorem carries_careful_unpausingKind {mappings : List KindMapping} {m : KindMapping}
    (hm : m ∈ mappings) (k : Nat) :
    Carries Extends (AllCareful s o) (IsUnpausing s o mappings) (unpausingKind m k)
      (IsUnpausing s o mappings) := by
  refine carries_iSup fun rs => carries_iSup fun _ => Carries.mul (I := IsUnpausing s o mappings)
    ?_ ?_
  · refine carries_careful (fun _ h => h.1.careful) (fun _ _ => trivial) ?_
    exact fun log a h _ hcareful => h.concat hcareful rfl
  · refine carries_prod (fun _ => IsUnpausing s o mappings) (fun _ _ h => h.1.careful) ?_
    intro done r rest _
    refine carries_careful (fun _ h => h.1.careful) ?_ ?_
    · rintro log ⟨hall, c, hc, hend⟩
      exact ⟨hall.brought, hall.settled, c, hc, mappings, hend, hm⟩
    · exact fun log a h _ hcareful => h.concat hcareful rfl

theorem carries_careful_unpausing {c : Category} (hc : c ∈ unpausedCategories o) (k : Nat) :
    Carries Extends (AllCareful s o) (BroughtAll s o) (unpausing c k) (BroughtAll s o) := by
  refine carries_iSup fun mappings => carries_iSup fun ns => carries_iSup fun hns => ?_
  refine Carries.mul (I := IsUnpausing s o mappings) ?_ ?_
  · -- all manifests have been brought, so the category is resolved in the end
    refine carries_careful (fun _ h => h.careful) (fun _ _ => trivial) ?_
    rintro log a h rfl hcareful
    exact ⟨h.concat hcareful rfl, c, hc, log, _, rfl, h.brought, by simp [HasResolved]⟩
  · refine (carries_zipWith (fun _ => IsUnpausing s o mappings) (F := fun _ _ => True) hns.1
      (fun _ _ h => h.1.careful) ?_).mono (fun _ h => h) fun _ h => h.1.1
    intro done m rest k hsplit
    exact (carries_careful_unpausingKind (by simp [hsplit]) k).mono (fun _ h => h)
      fun _ h => ⟨h, trivial⟩

theorem carries_careful_finishing (counts : List Nat) :
    Carries Extends (AllCareful s o) (BroughtAll s o) (finishing o counts) (BroughtAll s o) := by
  refine carries_iSup fun hlen => ?_
  refine (carries_zipWith (fun _ => BroughtAll s o) (F := fun _ _ => True) hlen
    (fun _ _ h => h.careful) ?_).mono (fun _ h => h) fun _ h => h.1
  intro done c rest k hsplit
  exact (carries_careful_unpausing (by simp [hsplit]) k).mono (fun _ h => h)
    fun _ h => ⟨h, trivial⟩

theorem carries_careful_importing (counts : List Nat) :
    Carries Extends (AllCareful s o) (· = []) (importing o s counts) (BroughtAll s o) := by
  have hwait := carries_prod (R := Extends) (D := AllCareful s o) (l := gates o)
    (f := waiting) (fun _ => BroughtSome s o s.baseManifests.length false [])
    (fun _ _ h => h.careful) fun _ gate _ _ => carries_careful_waiting gate
  refine ((((carries_bringing_base.mul hwait).mul carries_careful_reset).mul
    carries_bringingLater).mul (carries_careful_finishing counts)).mono ?_ fun _ h => h
  rintro _ rfl
  exact ⟨allCareful_nil, rfl, fun _ h => (nomatch h), rfl, rfl⟩

/-- All calls are careful, also if the last one has got another answer. -/
theorem ImportRun.allCareful_of_starts {ts : Turns} {log : List LoggedCall}
    {result : Option (Except ImportError ImportReport)} (h : ImportRun s o ts result)
    (hs : s.WellFormed) (hlog : Starts log (callLog ts)) : AllCareful s o log := by
  obtain ⟨counts, w, hw, hstarts⟩ := h.starts hs
  exact (carries_careful_importing counts [] rfl w hw _ _ (hlog.trans hstarts)
    (steps_extends _ [])).1

theorem ImportRun.allCareful {ts : Turns} {result : Option (Except ImportError ImportReport)}
    (h : ImportRun s o ts result) (hs : s.WellFormed) : AllCareful s o (callLog ts) :=
  h.allCareful_of_starts hs (.refl _)

end PlaneRestore
