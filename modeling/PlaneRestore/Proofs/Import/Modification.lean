import PlaneRestore.Import.Modify
import PlaneRestore.Proofs.Import.Course
import PlaneRestore.Proofs.Plane.Play
/-!
Changing all objects of a category, whatever is answered.

* `ReplacesAll`, `ModifiesKinds` and `ModifiesAll` relate the calls of a change that came to its end
  to its result, with one constructor for each way in which a call may be answered.
* `FailsBy` says which call a failure comes from: a change stops there.
* `IsTurnOf` says which of the listed objects an update is for.
* `Resource.IsUnpaused` says what is left as it is where a pause is lifted.
* `category_is_modified`: every change of a category goes so.
-/

namespace PlaneRestore

variable {m m' : Memory} {ts : Turns} {log u v : List LoggedCall}

/-! ### Lifting the pause -/

namespace Resource

open Json (memberAt? SameBut)

/-- The second resource is the first one without the pause, and that is all. -/
structure IsUnpaused (r r' : Resource) : Prop where
  lifted : r'.isAnnotated pausedKey = false
  rest : SameBut ["metadata", "annotations", pausedKey] r.object r'.object
  annotations : r'.annotationsValue? = r.annotationsValue?.map (·.removeMember pausedKey)
  others : ∀ key, key ≠ pausedKey → r'.annotation? key = r.annotation? key
  apiVersion : r'.apiVersion = r.apiVersion
  kind : r'.kind = r.kind
  name : r'.name = r.name
  space : r'.space? = r.space?
  /-- A server can tell whether the object has changed since it was listed. -/
  resourceVersion : memberAt? ["metadata", "resourceVersion"] r'.object
    = memberAt? ["metadata", "resourceVersion"] r.object
  status : memberAt? ["status"] r'.object = memberAt? ["status"] r.object

theorem textAt_remove (r : Resource) (key : String) {path : List String}
    (hpath : path ∈ identityPaths) :
    Json.textAt path (r.unannotate key).object = Json.textAt path r.object := by
  have htop : ∀ n, n ≠ "metadata" → Json.textAt [n] (r.unannotate key).object
      = Json.textAt [n] r.object := by
    intro n hn
    simp [Json.textAt, Json.at?, unannotate, Json.step?_modifyMember_of_ne hn]
  have hmeta : ∀ n, n ≠ "annotations" → Json.textAt ["metadata", n] (r.unannotate key).object
      = Json.textAt ["metadata", n] r.object :=
    fun n hn => Json.textAt_modifyMember _ fun m => Json.step?_modifyMember_of_ne hn m _
  simp only [identityPaths, requiredPaths, List.cons_append, List.nil_append, List.mem_cons,
    List.not_mem_nil, or_false] at hpath
  rcases hpath with rfl | rfl | rfl | rfl
  · exact htop _ (by decide)
  · exact htop _ (by decide)
  · exact hmeta _ (by decide)
  · exact hmeta _ (by decide)

theorem isUnpaused_unpause (r : Resource) : r.IsUnpaused r.unpause := by
  have hrest := sameBut_remove r pausedKey
  have htext : ∀ path ∈ identityPaths,
      Json.textAt path r.unpause.object = Json.textAt path r.object :=
    fun path => textAt_remove r pausedKey
  constructor
  case lifted => exact isAnnotated_unannotate r pausedKey
  case rest => exact hrest
  case annotations => exact annotationsValue?_remove r pausedKey
  case others => exact fun key hkey => annotation?_remove_of_ne r hkey
  case apiVersion => exact htext ["apiVersion"] (by decide)
  case kind => exact htext ["kind"] (by decide)
  case name => exact htext ["metadata", "name"] (by decide)
  case space => rw [space?, space?, htext ["metadata", "namespace"] (by decide)]
  case resourceVersion => exact hrest ["metadata", "resourceVersion"] (by simp)
  case status => exact hrest ["status"] (by simp)

end Resource

/-! ### The calls of a change -/

section

variable {σ : Type}

/-- What the calls come to that replace some objects: one update for each of them in turn, up to the
first one that is refused or given up. The result is what is remembered in the end. -/
inductive ReplacesAll (change : Resource → StateM σ Resource) (mapping : KindMapping) :
    List Resource → σ → List LoggedCall → Except ImportError σ → Prop
  | nil (st : σ) : ReplacesAll change mapping [] st [] (.ok st)
  | refused (r : Resource) (rs : List Resource) (st : σ) (e : ClientError) :
      ReplacesAll change mapping (r :: rs) st
        [⟨.update mapping ((change r).run st).1, some (.error e)⟩] (.error (.client e))
  | givenUp (r : Resource) (rs : List Resource) (st : σ) :
      ReplacesAll change mapping (r :: rs) st
        [⟨.update mapping ((change r).run st).1, none⟩] (.error .cancelled)
  | next {r : Resource} {rs : List Resource} {st : σ} {log : List LoggedCall}
      {result : Except ImportError σ} (replaced : Resource)
      (rest : ReplacesAll change mapping rs ((change r).run st).2 log result) :
      ReplacesAll change mapping (r :: rs) st
        (⟨.update mapping ((change r).run st).1, some (.ok replaced)⟩ :: log) result

/-- What the calls come to that change the objects of some kinds: each kind is listed in turn, and
the objects of the list are replaced. The result is the number of objects. -/
inductive ModifiesKinds (change : Resource → StateM σ Resource) :
    List KindMapping → σ → List LoggedCall → Except ImportError Nat → Prop
  | nil (st : σ) : ModifiesKinds change [] st [] (.ok 0)
  | refused (mapping : KindMapping) (mappings : List KindMapping) (st : σ) (e : ClientError) :
      ModifiesKinds change (mapping :: mappings) st [⟨.list mapping, some (.error e)⟩]
        (.error (.client e))
  | givenUp (mapping : KindMapping) (mappings : List KindMapping) (st : σ) :
      ModifiesKinds change (mapping :: mappings) st [⟨.list mapping, none⟩] (.error .cancelled)
  | stopped {mapping : KindMapping} {objects : List Resource} {st : σ} {log : List LoggedCall}
      {e : ImportError} (mappings : List KindMapping)
      (replaces : ReplacesAll change mapping objects st log (.error e)) :
      ModifiesKinds change (mapping :: mappings) st (⟨.list mapping, some (.ok objects)⟩ :: log)
        (.error e)
  | next {mapping : KindMapping} {mappings : List KindMapping} {objects : List Resource}
      {st st' : σ} {u v : List LoggedCall} {result : Except ImportError Nat}
      (replaces : ReplacesAll change mapping objects st u (.ok st'))
      (rest : ModifiesKinds change mappings st' v result) :
      ModifiesKinds change (mapping :: mappings) st
        (⟨.list mapping, some (.ok objects)⟩ :: (u ++ v)) (result.map (objects.length + ·))

/-- What the calls come to that change all objects of a category: the category is resolved once, and
then its kinds are gone through. -/
inductive ModifiesAll (c : Category) (change : Resource → StateM σ Resource) (st : σ) :
    List LoggedCall → Except ImportError Nat → Prop
  | refused (e : ClientError) :
      ModifiesAll c change st [⟨.resolve c, some (.error e)⟩]
        (.error (.category c.name (.client e)))
  | givenUp : ModifiesAll c change st [⟨.resolve c, none⟩] (.error .cancelled)
  | resolved {mappings : List KindMapping} {log : List LoggedCall} {result : Except ImportError Nat}
      (kinds : ModifiesKinds change mappings st log result) :
      ModifiesAll c change st (⟨.resolve c, some (.ok mappings)⟩ :: log)
        (result.mapError (.inCategory c.name))

variable {c : Category} {change : Resource → StateM σ Resource} {mapping : KindMapping}
  {mappings : List KindMapping} {rs : List Resource} {st : σ}

namespace Work

theorem led_replace {r : Resource} {result : Except ImportError Unit}
    (h : (replace mapping r).Led m ts (some (result, m'))) :
    m' = m ∧ ((∃ e, callLog ts = [⟨.update mapping r, some (.error e)⟩] ∧
        result = .error (.client e)) ∨
      callLog ts = [⟨.update mapping r, none⟩] ∧ result = .error .cancelled ∨
      ∃ replaced, callLog ts = [⟨.update mapping r, some (.ok replaced)⟩] ∧ result = .ok ()) := by
  -- the call is answered, or the run is cancelled before it is
  rcases led_call_bind_some h with ⟨answer, us, hlog, hread⟩ | ⟨hlog, hend⟩
  · cases answer with
    | error e =>
      obtain ⟨rfl, hend⟩ := led_done_some hread
      cases hend
      exact ⟨rfl, .inl ⟨e, hlog, rfl⟩⟩
    | ok replaced =>
      obtain ⟨rfl, hend⟩ := led_done_some hread
      cases hend
      exact ⟨rfl, .inr (.inr ⟨replaced, hlog, rfl⟩)⟩
  · cases hend
    exact ⟨rfl, .inr (.inl ⟨hlog, rfl⟩)⟩

/-- Objects are replaced one after another. -/
theorem led_replaceAll {result : Except ImportError σ}
    (h : (replaceAll change mapping rs st).Led m ts (some (result, m'))) :
    ReplacesAll change mapping rs st (callLog ts) result ∧ m' = m := by
  induction rs generalizing st ts with
  | nil =>
    obtain ⟨rfl, hend⟩ := led_done_some h
    cases hend
    exact ⟨.nil st, rfl⟩
  | cons r rs ih =>
    rcases led_bind_some h with ⟨e, rfl, hfirst⟩ | ⟨_, m₁, us, vs, rfl, hfirst, hrest⟩
    -- a failure at the first object ends the replacing
    · obtain ⟨rfl, ⟨e', hlog, he⟩ | ⟨hlog, he⟩ | ⟨_, _, he⟩⟩ := led_replace hfirst
      · cases he
        rw [hlog]
        exact ⟨.refused r rs st e', rfl⟩
      · cases he
        rw [hlog]
        exact ⟨.givenUp r rs st, rfl⟩
      · cases he
    · obtain ⟨rfl, ⟨_, _, he⟩ | ⟨_, he⟩ | ⟨replaced, hlog, -⟩⟩ := led_replace hfirst
      · cases he
      · cases he
      -- the induction is about every state of the change, so also about the one that the first
      -- object leaves
      · obtain ⟨hreplaces, rfl⟩ := ih hrest
        rw [callLog_append, hlog]
        exact ⟨.next replaced hreplaces, rfl⟩

/-- Kinds are gone through one after another. -/
theorem led_modifyKinds {result : Except ImportError Nat}
    (h : (modifyKinds change mappings st).Led m ts (some (result, m'))) :
    ModifiesKinds change mappings st (callLog ts) result ∧ m' = m := by
  induction mappings generalizing st ts result m m' with
  | nil =>
    obtain ⟨rfl, hend⟩ := led_done_some h
    cases hend
    exact ⟨.nil st, rfl⟩
  | cons mapping mappings ih =>
    rcases led_call_bind_some h with ⟨answer, us, hlog, h⟩ | ⟨hlog, hend⟩
    · rw [hlog]
      cases answer with
      | error e =>
        obtain ⟨rfl, hend⟩ := led_done_some h
        cases hend
        exact ⟨.refused mapping mappings st e, rfl⟩
      | ok objects =>
        -- a list that was answered is no error, and so the work goes on with its objects
        change (replaceAll change mapping objects st >>= _).Led m us _ at h
        rcases led_bind_some h with ⟨e, rfl, hfirst⟩ | ⟨st', m₁, vs, ws, rfl, hfirst, hrest⟩
        · obtain ⟨hreplaces, rfl⟩ := led_replaceAll hfirst
          exact ⟨.stopped mappings hreplaces, rfl⟩
        · obtain ⟨hreplaces, rfl⟩ := led_replaceAll hfirst
          rw [callLog_append]
          rcases led_bind_some hrest with ⟨e, rfl, hothers⟩ | ⟨n, m₂, us', xs, rfl, hothers, hend⟩
          · obtain ⟨hmodifies, rfl⟩ := ih hothers
            exact ⟨.next hreplaces hmodifies, rfl⟩
          · obtain ⟨hmodifies, rfl⟩ := ih hothers
            obtain ⟨rfl, hend⟩ := led_done_some hend
            cases hend
            rw [List.append_nil]
            exact ⟨.next hreplaces hmodifies, rfl⟩
    · cases hend
      rw [hlog]
      exact ⟨.givenUp mapping mappings st, rfl⟩

theorem led_modifyAllBy {result : Except ImportError Nat}
    (h : (modifyAllBy c change st).Led m ts (some (result, m'))) :
    ModifiesAll c change st (callLog ts) result ∧ m' = m := by
  obtain ⟨result', hbody, rfl⟩ := led_wrapping_some h
  rcases led_call_bind_some hbody with ⟨answer, us, hlog, h⟩ | ⟨hlog, hend⟩
  · rw [hlog]
    cases answer with
    | error e =>
      obtain ⟨rfl, hend⟩ := led_done_some h
      cases hend
      exact ⟨.refused e, rfl⟩
    | ok mappings =>
      obtain ⟨hmodifies, rfl⟩ := led_modifyKinds h
      exact ⟨.resolved hmodifies, rfl⟩
  · cases hend
    rw [hlog]
    exact ⟨.givenUp, rfl⟩

end Work

/-! ### Where a change stops -/

/-- The last one of some calls was refused or given up, and this is the error that it fails with. -/
inductive FailsBy : List LoggedCall → ImportError → Prop
  | refused {c : Call} {answer : c.Answer} {e : ClientError} (h : c.refusal? e = some answer) :
      FailsBy [⟨c, some answer⟩] (.client e)
  | givenUp (c : Call) : FailsBy [⟨c, none⟩] .cancelled
  | cons (e : LoggedCall) {log : List LoggedCall} {cause : ImportError} (h : FailsBy log cause) :
      FailsBy (e :: log) cause

theorem FailsBy.append_left {cause : ImportError} (u : List LoggedCall) (h : FailsBy v cause) :
    FailsBy (u ++ v) cause := by
  induction u with
  | nil => exact h
  | cons e u ih => exact .cons e ih

theorem ReplacesAll.stops {result : Except ImportError σ}
    (h : ReplacesAll change mapping rs st log result) : StopsAtFailure log result := by
  induction h with
  | nil => exact .of_ok fun _ he => nomatch he
  | refused | givenUp => exact .of_error _ rfl
  | next _ _ ih => exact ih.cons rfl

theorem ReplacesAll.failsBy {cause : ImportError}
    (h : ReplacesAll change mapping rs st log (.error cause)) : FailsBy log cause := by
  generalize hresult : (.error cause : Except ImportError σ) = result at h
  induction h with
  | nil => cases hresult
  | refused =>
    cases hresult
    exact .refused rfl
  | givenUp =>
    cases hresult
    exact .givenUp _
  | next _ _ ih => exact .cons _ (ih hresult)

/-- If it succeeds, there was one update for each object. -/
theorem ReplacesAll.length_updates {st' : σ}
    (h : ReplacesAll change mapping rs st log (.ok st')) : (updates log).length = rs.length := by
  generalize hresult : (.ok st' : Except ImportError σ) = result at h
  induction h with
  | nil => rfl
  | refused | givenUp => cases hresult
  | next _ _ ih => exact congrArg (· + 1) (ih hresult)

theorem ModifiesKinds.stops {result : Except ImportError Nat}
    (h : ModifiesKinds change mappings st log result) : StopsAtFailure log result := by
  induction h with
  | nil => exact .of_ok fun _ he => nomatch he
  | refused | givenUp => exact .of_error _ rfl
  | stopped _ replaces =>
    exact (replaces.stops.congr (by simp)).cons rfl
  | next replaces _ ih =>
    have hreplaced := replaces.stops.ok_iff.mp ⟨_, rfl⟩
    exact ((ih.map _).append hreplaced).cons rfl

theorem ModifiesKinds.failsBy {cause : ImportError}
    (h : ModifiesKinds change mappings st log (.error cause)) : FailsBy log cause := by
  generalize hresult : (.error cause : Except ImportError Nat) = result at h
  induction h with
  | nil => cases hresult
  | refused =>
    cases hresult
    exact .refused rfl
  | givenUp =>
    cases hresult
    exact .givenUp _
  | stopped _ replaces =>
    cases hresult
    exact .cons _ replaces.failsBy
  -- the calls for this kind come before the one that failed
  | @next _ _ _ _ _ u _ result _ _ ih =>
    cases result with
    | ok n => cases hresult
    | error e =>
      cases hresult
      exact .cons _ ((ih rfl).append_left u)

theorem ModifiesKinds.length_updates {n : Nat}
    (h : ModifiesKinds change mappings st log (.ok n)) : (updates log).length = n := by
  generalize hresult : (.ok n : Except ImportError Nat) = result at h
  induction h generalizing n with
  | nil =>
    cases hresult
    rfl
  | refused | givenUp | stopped => cases hresult
  | @next mapping _ objects _ _ u v _ replaces _ ih =>
    obtain ⟨k, rfl, rfl⟩ := map_eq_ok_iff.mp hresult.symm
    have happend : updates (⟨.list mapping, some (.ok objects)⟩ :: (u ++ v))
        = updates u ++ updates v := List.filter_append ..
    rw [happend, List.length_append, replaces.length_updates, ih rfl]

theorem ModifiesAll.stops {result : Except ImportError Nat}
    (h : ModifiesAll c change st log result) : StopsAtFailure log result := by
  cases h with
  | refused | givenUp => exact .of_error _ rfl
  | @resolved _ _ result kinds =>
    have hkinds : StopsAtFailure _ (result.mapError (.inCategory c.name)) :=
      kinds.stops.congr (by simp only [mapError_eq_ok_iff])
    exact hkinds.cons rfl

theorem ModifiesAll.failsBy {e : ImportError} (h : ModifiesAll c change st log (.error e)) :
    ∃ cause, FailsBy log cause ∧ e = cause.inCategory c.name := by
  generalize hresult : (.error e : Except ImportError Nat) = result at h
  cases h with
  | refused e' =>
    cases hresult
    exact ⟨.client e', .refused rfl, rfl⟩
  | givenUp =>
    cases hresult
    exact ⟨.cancelled, .givenUp _, rfl⟩
  | @resolved _ _ result kinds =>
    cases result with
    | ok n => cases hresult
    | error cause =>
      cases hresult
      exact ⟨cause, .cons _ kinds.failsBy, rfl⟩

theorem ModifiesAll.ok_iff {result : Except ImportError Nat} {n : Nat}
    (h : ModifiesAll c change st log result) :
    result = .ok n ↔ (∀ e ∈ log, e.isAccepted = true) ∧ n = (updates log).length := by
  -- a result counts the updates
  have hcount : ∀ k, result = .ok k → (updates log).length = k := by
    intro k hk
    cases h with
    | refused | givenUp => cases hk
    | @resolved _ _ result kinds =>
      cases result with
      | error e => cases hk
      | ok n =>
        cases hk
        exact kinds.length_updates
  constructor
  · intro hn
    exact ⟨h.stops.ok_iff.mp ⟨n, hn⟩, (hcount n hn).symm⟩
  · rintro ⟨hall, rfl⟩
    obtain ⟨k, hk⟩ := h.stops.ok_iff.mpr hall
    rw [hcount k hk, hk]

/-! ### What is sent -/

theorem ReplacesAll.sent {result : Except ImportError σ} {before after : List LoggedCall}
    {e : LoggedCall} (h : ReplacesAll change mapping rs st log result)
    (hlog : log = before ++ e :: after) :
    (∀ e ∈ before, e.call.isUpdate = true) ∧ ∃ r st, rs[before.length]? = some r ∧
      e.call = .update mapping ((change r).run st).1 := by
  induction h generalizing before with
  | nil => exact absurd hlog (by simp)
  | refused r | givenUp r =>
    rcases List.singleton_eq_append_iff.mp hlog with ⟨rfl, hlast⟩ | ⟨-, hnone⟩
    · cases hlast
      exact ⟨List.forall_mem_nil _, r, _, rfl, rfl⟩
    · cases hnone
  | @next r _ _ _ _ _ _ ih =>
    -- the update is the first one, or the induction finds it among the others
    rcases List.cons_eq_append_iff.mp hlog with ⟨rfl, hrest⟩ | ⟨before', rfl, hrest⟩
    · cases hrest
      exact ⟨List.forall_mem_nil _, r, _, rfl, rfl⟩
    · obtain ⟨hupdates, r', st', hr', hcall⟩ := ih hrest
      exact ⟨List.forall_mem_cons.mpr ⟨rfl, hupdates⟩, r', st', hr', hcall⟩

/-- After some calls it is the turn of an object: since the last list there was one update for each
object before it. -/
def IsTurnOf (before : List LoggedCall) (mapping : KindMapping) (r : Resource) : Prop :=
  ∃ front objects between, before = front ++ ⟨.list mapping, some (.ok objects)⟩ :: between ∧
    (∀ e ∈ between, e.call.isUpdate = true) ∧ objects[between.length]? = some r

theorem IsTurnOf.append_left {r : Resource} (u : List LoggedCall) (h : IsTurnOf v mapping r) :
    IsTurnOf (u ++ v) mapping r := by
  obtain ⟨front, objects, between, rfl, hupdates, hr⟩ := h
  exact ⟨u ++ front, objects, between, (List.append_assoc ..).symm, hupdates, hr⟩

/-- Objects that were listed are sent in the order of the list. -/
theorem ReplacesAll.isTurnOf {result : Except ImportError σ} {before after : List LoggedCall}
    {mapping' : KindMapping} {r' : Resource} {answer : Option (Except ClientError Resource)}
    (h : ReplacesAll change mapping rs st log result)
    (hlog : log = before ++ ⟨.update mapping' r', answer⟩ :: after) :
    ∃ r, IsTurnOf (⟨.list mapping, some (.ok rs)⟩ :: before) mapping' r ∧
      ∃ st, r' = ((change r).run st).1 := by
  obtain ⟨hupdates, r, st', hr, hcall⟩ := h.sent hlog
  cases hcall
  exact ⟨r, ⟨[], rs, before, rfl, hupdates, hr⟩, st', rfl⟩

/-- An update comes after a call that is none. -/
theorem exists_before_of_cons {e e' : LoggedCall} {before after : List LoggedCall}
    (h : e :: log = before ++ e' :: after) (he : e.call.isUpdate = false)
    (he' : e'.call.isUpdate = true) :
    ∃ before', before = e :: before' ∧ log = before' ++ e' :: after := by
  rcases List.cons_eq_append_iff.mp h with ⟨-, hhead⟩ | ⟨before', rfl, hrest⟩
  · cases hhead
    cases he.symm.trans he'
  · exact ⟨before', rfl, hrest⟩

theorem ModifiesKinds.isTurnOf {result : Except ImportError Nat} {before after : List LoggedCall}
    {mapping : KindMapping} {r' : Resource} {answer : Option (Except ClientError Resource)}
    (h : ModifiesKinds change mappings st log result)
    (hlog : log = before ++ ⟨.update mapping r', answer⟩ :: after) :
    ∃ r, IsTurnOf before mapping r ∧ ∃ st, r' = ((change r).run st).1 := by
  induction h generalizing before with
  | nil => exact absurd hlog (by simp)
  -- the only call is the listing, which is no update
  | refused | givenUp =>
    obtain ⟨before', -, hrest⟩ := exists_before_of_cons hlog rfl rfl
    exact absurd hrest (by simp)
  | stopped _ replaces =>
    obtain ⟨before', rfl, hrest⟩ := exists_before_of_cons hlog rfl rfl
    exact replaces.isTurnOf hrest
  | @next listed _ objects _ _ u v _ replaces _ ih =>
    obtain ⟨before', rfl, hrest⟩ := exists_before_of_cons hlog rfl rfl
    rcases List.append_eq_append_iff.mp hrest with ⟨w, rfl, hv⟩ | ⟨w, rfl, hw⟩
    · -- the object was listed after those of this kind have been replaced
      obtain ⟨r, hturn, hsent⟩ := ih hv
      exact ⟨r, hturn.append_left (_ :: u), hsent⟩
    · rcases List.cons_eq_append_iff.mp hw with ⟨rfl, hv⟩ | ⟨w', rfl, -⟩
      · -- it would be the first of the calls for the other kinds, which the induction covers too
        obtain ⟨r, hturn, hsent⟩ := ih (hv.trans (List.nil_append _).symm)
        have hturn' := hturn.append_left (⟨.list listed, some (.ok objects)⟩ :: before')
        rw [List.append_nil] at hturn'
        exact ⟨r, hturn', hsent⟩
      · exact replaces.isTurnOf rfl

theorem ModifiesAll.isTurnOf {result : Except ImportError Nat} {before after : List LoggedCall}
    {mapping : KindMapping} {r' : Resource} {answer : Option (Except ClientError Resource)}
    (h : ModifiesAll c change st log result)
    (hlog : log = before ++ ⟨.update mapping r', answer⟩ :: after) :
    ∃ r, IsTurnOf before mapping r ∧ ∃ st, r' = ((change r).run st).1 := by
  cases h with
  | refused | givenUp =>
    obtain ⟨before', -, hrest⟩ := exists_before_of_cons hlog rfl rfl
    exact absurd hrest (by simp)
  | resolved kinds =>
    obtain ⟨before', rfl, hrest⟩ := exists_before_of_cons hlog rfl rfl
    obtain ⟨r, hturn, hsent⟩ := kinds.isTurnOf hrest
    exact ⟨r, hturn.append_left [_], hsent⟩

/-! ### The whole change -/

/-- How all objects of a category are changed. -/
structure ModifiesCategory (c : Category) (change : Resource → StateM σ Resource) (st : σ)
    (log : List LoggedCall) (result : Except ImportError Nat) : Prop where
  /-- The category is resolved, and then its kinds are listed and their objects replaced, one after
  another, up to the first call that is refused or given up. -/
  course : ModifiesAll c change st log result
  stops : StopsAtFailure log result
  ok_iff : ∀ n, result = .ok n ↔ (∀ e ∈ log, e.isAccepted = true) ∧ n = (updates log).length
  /-- The error is that of the last call. -/
  failure : ∀ e, result = .error e → ∃ cause, FailsBy log cause ∧ e = cause.inCategory c.name
  sent : ∀ before mapping r' answer after, log = before ++ ⟨.update mapping r', answer⟩ :: after →
    ∃ r, IsTurnOf before mapping r ∧ ∃ st, r' = ((change r).run st).1
  /-- If it is the pause that is lifted, nothing else becomes of the object that was listed. -/
  unpaused : (∀ r st, ((change r).run st).1 = r.unpause) → ∀ before mapping r' answer after,
    log = before ++ ⟨.update mapping r', answer⟩ :: after →
      ∃ r, IsTurnOf before mapping r ∧ r.IsUnpaused r'

/-- **All objects of a category are changed, one call after another.** However it is answered, and
wherever it is broken off, a change can be led on to its end, and then it has gone as it should. -/
theorem category_is_modified {r : Option (Except ImportError Nat × Memory)}
    (h : (Work.modifyAllBy c change st).Led m ts r) :
    ∃ us result, (Work.modifyAllBy c change st).Led m (ts ++ us) (some (result, m)) ∧
      (∀ p, r = some p → us = [] ∧ p = (result, m)) ∧
        ModifiesCategory c change st (callLog (ts ++ us)) result := by
  obtain ⟨us, ⟨result, m'⟩, hled, hend⟩ := Dialogue.Led.completed h
  obtain ⟨hcourse, rfl⟩ := Work.led_modifyAllBy hled
  refine ⟨us, result, hled, hend, hcourse, hcourse.stops, fun n => hcourse.ok_iff, ?_,
    fun _ _ _ _ _ => hcourse.isTurnOf, ?_⟩
  · rintro e rfl
    exact hcourse.failsBy
  · intro hchange before mapping r' answer after hlog
    obtain ⟨r, hturn, st', rfl⟩ := hcourse.isTurnOf hlog
    rw [hchange]
    exact ⟨r, hturn, r.isUnpaused_unpause⟩

end

namespace Sample

/-- A composite object that is paused. -/
def pausedWidget : Resource :=
  ⟨.ofEntries [("apiVersion", .string "example.io/v1"), ("kind", .string "XWidget"),
    ("metadata", .ofEntries [("name", .string "w1"), ("resourceVersion", .string "7"),
      ("annotations", .ofEntries [("keep", .string "me"), (pausedKey, .string "true")])])]⟩

def compositeKinds : List KindMapping :=
  [⟨"example.io", "v1", "XWidget", "xwidgets", false, ["composite"]⟩,
    ⟨"example.io", "v1", "XGadget", "xgadgets", false, ["composite"]⟩]

/-- A plane with this object, on which the second composite kind cannot be listed. -/
def planeOfComposites : MemoryPlane :=
  ({ MemoryPlane.empty with kinds := compositeKinds }.insert pausedWidget).failLists
    ⟨"example.io", "XGadget"⟩ 1

/-- The pause is lifted there. -/
def lifting : Turns × Except ImportError Nat × Memory :=
  ((Work.modifyAll .composite Resource.unpause).run.run .empty).play (MemoryPlane.reply state)
    planeOfComposites

end Sample

open Sample in
theorem category_is_modified_sample :
    ModifiesCategory .composite (fun r => pure r.unpause) () (callLog lifting.1) lifting.2.1 ∧
      (updates (callLog lifting.1)).length = 1 ∧ lifting.2.1 = .error (.category "composite"
        (.client (.transport "simulated list failure for XGadget.example.io"))) := by
  have hled : (Work.modifyAllBy .composite (fun r => pure r.unpause) ()).Led .empty lifting.1
      (some lifting.2) := Dialogue.led_play _ _ planeOfComposites
  obtain ⟨us, result, -, hend, hmodifies⟩ := category_is_modified hled
  obtain ⟨rfl, hresult⟩ := hend _ rfl
  obtain rfl : lifting.2.1 = result := congrArg Prod.fst hresult
  rw [List.append_nil] at hmodifies
  exact ⟨hmodifies, by decide +kernel, by decide +kernel⟩

end PlaneRestore
