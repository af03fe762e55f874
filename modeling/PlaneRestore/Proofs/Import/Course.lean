import PlaneRestore.Proofs.Import.Account
import PlaneRestore.Proofs.Import.Group
import PlaneRestore.Proofs.Resource.Identity
import PlaneRestore.Proofs.Trace.Work
/-!
How the import of a group goes, whatever is answered.

* `Resolves`, `Prepares` and `Handled` relate the calls of a part of the import that came to its end
  to its result: the kinds that are created paused are found out, and then the manifests are brought
  to the control plane, up to the first call that is refused or given up.
* `Course` puts them together: `Work.led_importGroup` says that every import of a group goes so.
-/

namespace PlaneRestore

open Words

variable {m m' : Memory} {ts : Turns} {log u v : List LoggedCall}

/-! ### One call -/

/-- Whether an import goes on after a call was answered so. That an object is there already is fine
when it was to be created. -/
def Call.accepts : (c : Call) → c.Answer → Bool
  | .list _, a => a.isOk
  | .create _ _, a => (Applied.ofAnswer a).isOk
  | .update _ _, a => a.isOk
  | .mappingForKind _, a => a.isOk
  | .mappingForVersion _ _, a => a.isOk
  | .reset, _ => true
  | .resolve _, a => a.isOk
  | .observe, a => a.isOk

/-- Whether a call was seen through, and an import goes on after it. -/
def LoggedCall.isAccepted (e : LoggedCall) : Bool := e.answer.any e.call.accepts

/-- All calls before the last one were accepted, and the last one was as well if, and only if, the
work has succeeded: it goes on exactly as long as its calls are accepted. -/
structure StopsAtFailure {α : Type} (log : List LoggedCall) (result : Except ImportError α) :
    Prop where
  before : ∀ e ∈ log.dropLast, e.isAccepted = true
  ok_iff : (∃ a, result = .ok a) ↔ ∀ e ∈ log, e.isAccepted = true

namespace StopsAtFailure

variable {α β : Type} {result : Except ImportError α}

theorem of_ok {a : α} (h : ∀ e ∈ log, e.isAccepted = true) :
    StopsAtFailure log (.ok a : Except ImportError α) :=
  ⟨fun e he => h e (List.mem_of_mem_dropLast he), iff_of_true ⟨a, rfl⟩ h⟩

theorem of_error {e : LoggedCall} (err : ImportError) (h : e.isAccepted = false) :
    StopsAtFailure [e] (.error err : Except ImportError α) :=
  ⟨by simp, by simp [h]⟩

/-- Before it stops, other calls may have been accepted. -/
theorem append (hu : ∀ e ∈ u, e.isAccepted = true) (h : StopsAtFailure v result) :
    StopsAtFailure (u ++ v) result := by
  constructor
  case before =>
    by_cases hv : v = []
    · subst hv
      rw [List.append_nil]
      exact fun e he => hu e (List.mem_of_mem_dropLast he)
    · rw [List.dropLast_append_of_ne_nil hv]
      exact List.forall_mem_append.mpr ⟨hu, h.before⟩
  case ok_iff =>
    rw [h.ok_iff, List.forall_mem_append, and_iff_right hu]

theorem cons {e : LoggedCall} (he : e.isAccepted = true) (h : StopsAtFailure log result) :
    StopsAtFailure (e :: log) result :=
  h.append (u := [e]) (List.forall_mem_singleton.mpr he)

theorem congr {result' : Except ImportError β} (h : StopsAtFailure log result)
    (hiff : (∃ b, result' = .ok b) ↔ ∃ a, result = .ok a) : StopsAtFailure log result' :=
  ⟨h.before, hiff.trans h.ok_iff⟩

theorem map (h : StopsAtFailure log result) (f : α → β) : StopsAtFailure log (result.map f) :=
  h.congr (by cases result <;> simp [Except.map])

end StopsAtFailure

/-! ### One manifest -/

/-- A manifest was not brought to the control plane, since a call was refused. -/
inductive Refused (r : Resource) : List LoggedCall → ClientError → Prop
  | mapping (e : ClientError) :
      Refused r [⟨.mappingForVersion r.groupKind r.version, some (.error e)⟩] e
  | creation {mapping : KindMapping} {e : ClientError}
      (isOther : ∀ kind name, e ≠ .alreadyExists kind name) :
      Refused r [⟨.mappingForVersion r.groupKind r.version, some (.ok mapping)⟩,
        ⟨.create mapping r.withoutServerFields, some (.error e)⟩] e

/-- A manifest was not brought to the control plane, since a call was given up. -/
inductive GivenUp (r : Resource) : List LoggedCall → Prop
  | mapping : GivenUp r [⟨.mappingForVersion r.groupKind r.version, none⟩]
  | creation (mapping : KindMapping) :
      GivenUp r [⟨.mappingForVersion r.groupKind r.version, some (.ok mapping)⟩,
        ⟨.create mapping r.withoutServerFields, none⟩]

/-- A manifest is brought to the control plane by two calls. -/
theorem mem_applying_iff {r : Resource} : log ∈ applying r ↔
    ∃ mapping answer, IsSettled answer ∧
      log = [⟨.mappingForVersion r.groupKind r.version, some (.ok mapping)⟩,
        ⟨.create mapping r.withoutServerFields, some answer⟩] := by
  constructor
  · intro h
    obtain ⟨mapping, h⟩ := Language.mem_iSup.mp h
    obtain ⟨_, ⟨_, rfl, rfl⟩, _, ⟨answer, hanswer, rfl⟩, rfl⟩ := Language.mem_mul.mp h
    exact ⟨mapping, answer, hanswer, rfl⟩
  · rintro ⟨mapping, answer, hanswer, rfl⟩
    refine Language.mem_iSup.mpr ⟨mapping, Language.mem_mul.mpr ?_⟩
    exact ⟨[_], ⟨_, rfl, rfl⟩, [_], ⟨answer, hanswer, rfl⟩, rfl⟩

/-- What the calls for one manifest come to. -/
inductive Applies (r : Resource) (log : List LoggedCall) : Except ImportError Applied → Prop
  | brought (applied : Applied) (h : log ∈ applying r) : Applies r log (.ok applied)
  | refused {e : ClientError} (h : Refused r log e) : Applies r log (.error (.apply r.display e))
  | givenUp (h : GivenUp r log) : Applies r log (.error .cancelled)

theorem Applied.ofAnswer_eq_error_iff {α : Type} {a : Except ClientError α} {e : ClientError} :
    ofAnswer a = .error e ↔ a = .error e ∧ ∀ kind name, e ≠ .alreadyExists kind name := by
  cases a with
  | ok _ => simp [ofAnswer, pure, Except.pure]
  | error cause =>
    cases cause with
    | alreadyExists kind name =>
      simp only [ofAnswer, pure, Except.pure, Except.error.injEq, reduceCtorEq, false_iff, not_and,
        not_forall, not_not]
      rintro rfl
      exact ⟨kind, name, rfl⟩
    | _ =>
      simp only [ofAnswer, throw, throwThe, MonadExceptOf.throw, Except.error.injEq]
      refine ⟨?_, And.left⟩
      rintro rfl
      exact ⟨rfl, by simp⟩

namespace Work

theorem led_orApply_bind_some {α β : Type} {r : Resource} {a : Except ClientError α}
    {f : α → Work β} {p : Except ImportError β × Memory}
    (h : (orApply r a >>= f).Led m ts (some p)) :
    (∃ e, a = .error e ∧ ts = [] ∧ p = (.error (.apply r.display e), m)) ∨
      ∃ b, a = .ok b ∧ (f b).Led m ts (some p) := by
  cases a with
  | error e => exact .inl ⟨e, rfl, led_done_some h⟩
  | ok b => exact .inr ⟨b, rfl, h⟩

theorem led_apply {r : Resource} {result : Except ImportError Applied}
    (h : (apply r).Led m ts (some (result, m'))) : Applies r (callLog ts) result ∧ m' = m := by
  -- at first the mapping of the kind is asked for, and then the object is created
  rcases led_call_bind_some h with ⟨answer, us, hlog, h⟩ | ⟨hlog, hend⟩
  · rcases led_orApply_bind_some h with ⟨e, rfl, rfl, hend⟩ | ⟨mapping, rfl, h⟩
    · cases hend
      rw [hlog]
      exact ⟨.refused (.mapping e), rfl⟩
    · rcases led_call_bind_some h with ⟨answer, vs, hlog', h⟩ | ⟨hlog', hend⟩
      · rw [orApply_eq] at h
        obtain ⟨rfl, hend⟩ := led_orThrow_some h
        cases hend
        rw [hlog, hlog', callLog_nil]
        refine ⟨?_, rfl⟩
        cases hanswer : Applied.ofAnswer answer with
        | ok applied =>
          exact .brought applied (mem_applying_iff.mpr ⟨mapping, answer, ⟨applied, hanswer⟩, rfl⟩)
        | error e =>
          -- the creation is refused by any error but the one that the object exists
          obtain ⟨rfl, hother⟩ := Applied.ofAnswer_eq_error_iff.mp hanswer
          exact .refused (.creation hother)
      · cases hend
        rw [hlog, hlog']
        exact ⟨.givenUp (.creation mapping), rfl⟩
  · cases hend
    rw [hlog]
    exact ⟨.givenUp .mapping, rfl⟩

end Work

/-! ### Manifests, one after another -/

/-- Some manifests are brought to the control plane, as what is made of them. -/
def bringing (made : Resource → Resource) (ms : List Manifest) : Language LoggedCall :=
  (ms.map fun man => applying (made man.resource)).prod

theorem mem_bringing_cons_iff {made : Resource → Resource} {man : Manifest} {ms : List Manifest} :
    log ∈ bringing made (man :: ms) ↔
      ∃ u ∈ applying (made man.resource), ∃ v ∈ bringing made ms, u ++ v = log := by
  rw [bringing, List.map_cons, List.prod_cons]
  exact Language.mem_mul

theorem mem_bringing_cons {made : Resource → Resource} {man : Manifest} {ms : List Manifest}
    (hu : u ∈ applying (made man.resource)) (hv : v ∈ bringing made ms) :
    u ++ v ∈ bringing made (man :: ms) :=
  mem_bringing_cons_iff.mpr ⟨u, hu, v, hv, rfl⟩

/-- What the calls for the manifests of a group come to: all of them are brought to the control
plane, or those before the first one for which a call is refused or given up. -/
inductive Handled (group : String) (made : Resource → Resource) (ms : List Manifest) :
    List LoggedCall → Except ImportError Nat → Prop
  | all {log : List LoggedCall} (h : log ∈ bringing made ms) :
      Handled group made ms log (.ok ms.length)
  | refused {before after : List Manifest} {man : Manifest} {u v : List LoggedCall}
      {e : ClientError} (split : ms = before ++ man :: after) (brought : u ∈ bringing made before)
      (stop : Refused (made man.resource) v e) :
      Handled group made ms (u ++ v)
        (.error (.importGroup group (.manifestFile man.file (.apply man.resource.display e))))
  | givenUp {before after : List Manifest} {man : Manifest} {u v : List LoggedCall}
      (split : ms = before ++ man :: after) (brought : u ∈ bringing made before)
      (stop : GivenUp (made man.resource) v) : Handled group made ms (u ++ v) (.error .cancelled)

variable {group : String} {made : Resource → Resource} {ms : List Manifest} {man : Manifest}

/-- The result of a group, as the loop over its manifests has ended. -/
def groupResult (group : String) (n : Nat) (outcome : Except ImportError PUnit) :
    Except ImportError Nat :=
  (outcome.map fun _ => n).mapError (.inGroup group)

theorem Handled.cons {outcome : Except ImportError PUnit} (hu : u ∈ applying (made man.resource))
    (h : Handled group made ms v (groupResult group ms.length outcome)) :
    Handled group made (man :: ms) (u ++ v) (groupResult group (man :: ms).length outcome) := by
  cases outcome with
  | ok _ =>
    cases h with
    | all hv => exact .all (mem_bringing_cons hu hv)
  | error e =>
    -- the result depends on the error alone, not on how many manifests there are
    generalize hresult : groupResult group ms.length (.error e) = result at h
    have hsame : groupResult group (man :: ms).length (.error e) = result := hresult
    rw [hsame]
    cases h with
    | all => cases hresult
    | refused split brought stop =>
      rw [← List.append_assoc]
      exact .refused (congrArg (man :: ·) split) (mem_bringing_cons hu brought) stop
    | givenUp split brought stop =>
      rw [← List.append_assoc]
      exact .givenUp (congrArg (man :: ·) split) (mem_bringing_cons hu brought) stop

namespace Work

variable {pause : Bool}

/-- Every manifest is brought to the control plane as what is made of it. -/
def Makes (pause : Bool) (made : Resource → Resource) (m : Memory) : Prop :=
  ∀ man ts p, (importManifest pause man).Led m ts (some p) →
    (inFile man.file (apply (made man.resource))).Led m ts (some p)

theorem Makes.led_round (h : Makes pause made m) {outcome : Except ImportError PUnit}
    (hled : (discard (importManifest pause man)).Led m ts (some (outcome, m'))) :
    m' = m ∧ ∃ result, Applies (made man.resource) (callLog ts) result ∧
      outcome = (result.mapError (.inFile man.file)).map fun _ => PUnit.unit := by
  obtain ⟨result, hmanifest, rfl⟩ := led_discard_some hled
  obtain ⟨result', happly, rfl⟩ := led_wrapping_some (h _ _ _ hmanifest)
  obtain ⟨happlies, rfl⟩ := led_apply happly
  exact ⟨rfl, result', happlies, rfl⟩

/-- Manifests are handled one after another. -/
theorem Makes.led_manifests (h : Makes pause made m) (group : String)
    (hdisplay : ∀ r, (made r).display = r.display)
    {outcome : Except ImportError PUnit}
    (hled : (ms.forM fun man => discard (importManifest pause man)).Led m ts
      (some (outcome, m'))) :
    m' = m ∧ Handled group made ms (callLog ts) (groupResult group ms.length outcome) := by
  induction ms generalizing ts with
  | nil =>
    obtain ⟨rfl, hend⟩ := led_done_some hled
    cases hend
    exact ⟨rfl, .all Language.nil_mem_one⟩
  | cons man ms ih =>
    rcases led_bind_some hled with ⟨e, rfl, hround⟩ | ⟨_, m₁, us, vs, rfl, hround, hrest⟩
    · -- nothing is done for the manifests after this one
      obtain ⟨rfl, result, happlies, hresult⟩ := h.led_round hround
      generalize callLog ts = log at happlies
      refine ⟨rfl, ?_⟩
      cases happlies with
      | brought => cases hresult
      | refused stop =>
        rw [hdisplay] at hresult
        cases hresult
        exact .refused (u := []) (show _ = [] ++ man :: ms from rfl) Language.nil_mem_one stop
      | givenUp stop =>
        cases hresult
        exact .givenUp (u := []) (show _ = [] ++ man :: ms from rfl) Language.nil_mem_one stop
    · obtain ⟨rfl, result, happlies, hresult⟩ := h.led_round hround
      obtain ⟨rfl, hhandled⟩ := ih hrest
      rw [callLog_append]
      generalize callLog us = u at happlies
      refine ⟨rfl, ?_⟩
      cases happlies with
      | brought applied hu => exact hhandled.cons hu
      | refused | givenUp => cases hresult

end Work

/-! ### The kinds that are created paused -/

/-- Categories are resolved one after another, up to the first call that is refused or given up. -/
inductive Resolves : List Category → List LoggedCall → Except ImportError (List GroupKind) → Prop
  | nil : Resolves [] [] (.ok [])
  | refused {c : Category} {cs : List Category} (e : ClientError) :
      Resolves (c :: cs) [⟨.resolve c, some (.error e)⟩] (.error (.category c.name (.client e)))
  | givenUp {c : Category} {cs : List Category} :
      Resolves (c :: cs) [⟨.resolve c, none⟩] (.error .cancelled)
  | cons {c : Category} {cs : List Category} {mappings : List KindMapping} {log : List LoggedCall}
      {result : Except ImportError (List GroupKind)} (rest : Resolves cs log result) :
      Resolves (c :: cs) (⟨.resolve c, some (.ok mappings)⟩ :: log)
        (result.map (kindsOf mappings ++ ·))

/-- The kinds that are created paused are found out, unless they are known. They are known from then
on, but a failure leaves nothing behind. -/
inductive FindsOut :
    Option (List GroupKind) → List LoggedCall → Except ImportError (List GroupKind) →
      Option (List GroupKind) → Prop
  | known (kinds : List GroupKind) : FindsOut (some kinds) [] (.ok kinds) (some kinds)
  | found {log : List LoggedCall} {kinds : List GroupKind}
      (h : Resolves Category.pausable log (.ok kinds)) : FindsOut none log (.ok kinds) (some kinds)
  | failed {log : List LoggedCall} {e : ImportError}
      (h : Resolves Category.pausable log (.error e)) : FindsOut none log (.error e) none

/-- Kinds that were found out are known. -/
theorem FindsOut.eq_some {known known' : Option (List GroupKind)} {kinds : List GroupKind}
    {result : Except ImportError (List GroupKind)} (h : FindsOut known log result known')
    (hresult : result = .ok kinds) : known' = some kinds := by
  cases h with
  | known | found => cases hresult; rfl
  | failed => cases hresult

namespace Work

theorem led_kindsOf {c : Category} {result : Except ImportError (List GroupKind)}
    (h : (kindsOf c).Led m ts (some (result, m'))) :
    m' = m ∧ ((∃ e, callLog ts = [⟨.resolve c, some (.error e)⟩] ∧
        result = .error (.category c.name (.client e))) ∨
      callLog ts = [⟨.resolve c, none⟩] ∧ result = .error .cancelled ∨
      ∃ mappings, callLog ts = [⟨.resolve c, some (.ok mappings)⟩] ∧
        result = .ok (Words.kindsOf mappings)) := by
  obtain ⟨result', hresolve, rfl⟩ := led_wrapping_some h
  -- the call is answered, or the run is cancelled before it is
  rcases led_call_bind_some hresolve with ⟨answer, us, hlog, hread⟩ | ⟨hlog, hend⟩
  · cases answer with
    | error e =>
      obtain ⟨rfl, hend⟩ := led_done_some hread
      cases hend
      exact ⟨rfl, .inl ⟨e, hlog, rfl⟩⟩
    | ok mappings =>
      obtain ⟨rfl, hend⟩ := led_done_some hread
      cases hend
      exact ⟨rfl, .inr (.inr ⟨mappings, hlog, rfl⟩)⟩
  · cases hend
    exact ⟨rfl, .inr (.inl ⟨hlog, rfl⟩)⟩

theorem led_categories {cs : List Category} {result : Except ImportError (List (List GroupKind))}
    (h : (cs.mapM kindsOf).Led m ts (some (result, m'))) :
    Resolves cs (callLog ts) (result.map List.flatten) ∧ m' = m := by
  induction cs generalizing ts result m' with
  | nil =>
    obtain ⟨rfl, hend⟩ := led_done_some h
    cases hend
    exact ⟨.nil, rfl⟩
  | cons c cs ih =>
    rw [List.mapM_cons] at h
    rcases led_bind_some h with ⟨e, rfl, hfirst⟩ | ⟨kinds, m₁, us, vs, rfl, hfirst, hrest⟩
    -- the first category fails, and the others are not asked for
    · obtain ⟨rfl, ⟨e', hlog, he⟩ | ⟨hlog, he⟩ | ⟨_, _, he⟩⟩ := led_kindsOf hfirst
      · cases he
        rw [hlog]
        exact ⟨.refused e', rfl⟩
      · cases he
        rw [hlog]
        exact ⟨.givenUp, rfl⟩
      · cases he
    · obtain ⟨rfl, ⟨_, _, he⟩ | ⟨_, he⟩ | ⟨mappings, hlog, he⟩⟩ := led_kindsOf hfirst
      · cases he
      · cases he
      · cases he
        -- its kinds come before those of the others, which may still fail
        rw [callLog_append, hlog]
        rcases led_bind_some hrest with ⟨e, rfl, hothers⟩ | ⟨found, m₂, us', ws, rfl, hothers, hend⟩
        · obtain ⟨hresolves, rfl⟩ := ih hothers
          exact ⟨hresolves.cons, rfl⟩
        · obtain ⟨hresolves, rfl⟩ := ih hothers
          obtain ⟨rfl, hend⟩ := led_done_some hend
          cases hend
          rw [List.append_nil]
          exact ⟨hresolves.cons, rfl⟩

theorem led_pausableKinds {result : Except ImportError (List GroupKind)}
    (h : pausableKinds.Led m ts (some (result, m'))) :
    ∃ known, FindsOut m.pausable (callLog ts) result known ∧
      m' = { m with pausable := known } := by
  rw [Work.Led, pausableKinds, Dialogue.run_get_bind] at h
  change Work.Led _ m ts _ at h
  cases hknown : m.pausable with
  | some kinds =>
    -- what has been found out once is not asked for again
    rw [hknown] at h
    obtain ⟨rfl, hend⟩ := led_done_some h
    cases hend
    exact ⟨some kinds, .known kinds, by rw [← hknown]⟩
  | none =>
    rw [hknown] at h
    rcases led_bind_some h with ⟨e, rfl, hfirst⟩ | ⟨found, m₁, us, vs, rfl, hfirst, hend⟩
    -- a failure leaves the memory as it was
    · obtain ⟨hresolves, rfl⟩ := led_categories hfirst
      exact ⟨none, .failed hresolves, by rw [← hknown]⟩
    · obtain ⟨hresolves, rfl⟩ := led_categories hfirst
      obtain ⟨rfl, hend⟩ := led_done_some hend
      cases hend
      rw [List.append_nil]
      exact ⟨_, .found hresolves, rfl⟩

end Work

/-! ### A group -/

/-- Before the first manifest of a group is handled, it is found out what is made of manifests. -/
inductive Prepares (pause : Bool) (ms : List Manifest) :
    Option (List GroupKind) → List LoggedCall → Except ImportError (Resource → Resource) →
      Option (List GroupKind) → Prop
  | asIs (known : Option (List GroupKind)) (h : pause = false ∨ ms = []) :
      Prepares pause ms known [] (.ok id) known
  | paused {known known' : Option (List GroupKind)} {log : List LoggedCall}
      {result : Except ImportError (List GroupKind)} (hpause : pause = true) (hne : ms ≠ [])
      (h : FindsOut known log result known') :
      Prepares pause ms known log (result.map pausedIn) known'

/-- What the calls for a group come to whose manifests have been read: nothing is done for any of
them if it could not be found out what is made of them, and otherwise they are handled. -/
inductive Course (group : String) (pause : Bool) (ms : List Manifest)
    (known : Option (List GroupKind)) :
    List LoggedCall → Except ImportError Nat → Option (List GroupKind) → Prop
  | unprepared {log : List LoggedCall} {e : ImportError} {known' : Option (List GroupKind)}
      (h : Prepares pause ms known log (.error e) known') :
      Course group pause ms known log (.error (.inGroup group e)) known'
  | handled {u v : List LoggedCall} {made : Resource → Resource}
      {result : Except ImportError Nat} {known' : Option (List GroupKind)}
      (h : Prepares pause ms known u (.ok made) known') (handled : Handled group made ms v result) :
      Course group pause ms known (u ++ v) result known'

theorem display_pausedIn (kinds : List GroupKind) (r : Resource) :
    (pausedIn kinds r).display = r.display := by
  rw [pausedIn]
  split
  · have hnames := r.sameNames_pause
    rw [Resource.display, hnames.groupKind, hnames.key, Resource.display]
  · rfl

namespace Work

theorem led_known_bind {β : Type} {kinds : List GroupKind} {f : List GroupKind → Work β}
    {r : Option (Except ImportError β × Memory)} (h : m.pausable = some kinds) :
    (pausableKinds >>= f).Led m ts r ↔ (f kinds).Led m ts r := by
  rw [Work.Led, pausableKinds, bind_assoc, Dialogue.run_get_bind, h]
  rfl

theorem makes_asIs (m : Memory) : Makes false id m := fun _ _ _ h => h

theorem importManifest_paused (man : Manifest) : importManifest true man =
    pausableKinds >>= fun kinds => inFile man.file (apply (pausedIn kinds man.resource)) := by
  simp only [importManifest, paused, if_true, bind_assoc, pure_bind]
  rfl

theorem makes_paused {kinds : List GroupKind} (h : m.pausable = some kinds) :
    Makes true (pausedIn kinds) m := by
  intro man ts p hled
  rwa [importManifest_paused, led_known_bind h] at hled

/-- How the manifests of a group are gone through. -/
theorem led_loop (group : String) {outcome : Except ImportError PUnit}
    (h : (ms.forM fun man => discard (importManifest pause man)).Led m ts (some (outcome, m'))) :
    ∃ known, Course group pause ms m.pausable (callLog ts) (groupResult group ms.length outcome)
      known ∧ m' = { m with pausable := known } := by
  cases pause with
  | false =>
    obtain ⟨rfl, hhandled⟩ := (makes_asIs m).led_manifests group (fun _ => rfl) h
    exact ⟨_, .handled (u := []) (.asIs _ (.inl rfl)) hhandled, rfl⟩
  | true =>
    cases ms with
    | nil =>
      obtain ⟨rfl, hend⟩ := led_done_some h
      cases hend
      have hasIs : Prepares true [] m.pausable [] (.ok id) m.pausable := .asIs _ (.inr rfl)
      exact ⟨_, .handled (u := []) hasIs (.all Language.nil_mem_one), rfl⟩
    | cons man ms =>
      -- the kinds are found out for the first manifest, and are known to the loop from there on
      obtain ⟨rest, hrest⟩ : ∃ rest, ((man :: ms).forM fun man => discard (importManifest true man))
          = pausableKinds >>= rest := by
        change ∃ rest, (discard (importManifest true man) >>= fun _ => _) = _
        simp only [importManifest_paused, discard, LawfulFunctor.map_const, Function.comp_apply,
          map_bind, bind_assoc]
        exact ⟨_, rfl⟩
      rw [hrest] at h
      rcases led_bind_some h with ⟨e, rfl, hfind⟩ | ⟨kinds, m₁, us, vs, rfl, hfind, hmanifests⟩
      · obtain ⟨known, hfinds, rfl⟩ := led_pausableKinds hfind
        exact ⟨known, .unprepared (.paused rfl (by simp) hfinds), rfl⟩
      · obtain ⟨known, hfinds, rfl⟩ := led_pausableKinds hfind
        obtain rfl := hfinds.eq_some rfl
        rw [← led_known_bind rfl, ← hrest] at hmanifests
        obtain ⟨rfl, hhandled⟩ := (makes_paused rfl).led_manifests group
          (display_pausedIn kinds) hmanifests
        rw [callLog_append]
        exact ⟨some kinds, .handled (.paused rfl (by simp) hfinds) hhandled, rfl⟩

/-- How a group is imported: its manifests are read, and then gone through. -/
theorem led_importGroup {s : ExportedState} {result : Except ImportError Nat}
    (h : (importGroup s group pause).Led m ts (some (result, m'))) :
    (∃ e, s.readGroup group = .error e ∧ ts = [] ∧ result = .error (.inGroup group e) ∧ m' = m) ∨
      ∃ ms known, s.readGroup group = .ok ms ∧
        Course group pause ms m.pausable (callLog ts) result known ∧
          m' = { m with pausable := known } := by
  obtain ⟨result', hbody, rfl⟩ := led_wrapping_some h
  rcases led_bind_some hbody with ⟨e, rfl, hread⟩ | ⟨ms, m₁, us, vs, rfl, hread, hloop⟩
  -- no call is made for a group that cannot be read
  · obtain ⟨rfl, hend⟩ := led_orThrow_some hread
    obtain ⟨heq, rfl⟩ := Prod.mk.inj hend
    exact .inl ⟨e, heq.symm, rfl, rfl, rfl⟩
  · obtain ⟨rfl, hend⟩ := led_orThrow_some hread
    obtain ⟨heq, rfl⟩ := Prod.mk.inj hend
    refine .inr ⟨ms, ?_⟩
    rcases led_bind_some hloop with ⟨e, rfl, hfail⟩ | ⟨_, m₂, us, ws, rfl, hall, hend⟩
    · obtain ⟨known, hcourse, rfl⟩ := led_loop group hfail
      exact ⟨known, heq.symm, hcourse, rfl⟩
    · obtain ⟨known, hcourse, rfl⟩ := led_loop group hall
      obtain ⟨rfl, hend⟩ := led_done_some hend
      cases hend
      rw [List.append_nil]
      exact ⟨known, heq.symm, hcourse, rfl⟩

end Work

end PlaneRestore
