import PlaneRestore.Proofs.Resource
import PlaneRestore.Proofs.Table
import PlaneRestore.Proofs.Trace.Carry
import PlaneRestore.Simulation.MemoryPlane
/-!
What the plane in memory does when it is called.

* `MemoryPlane.Takes p e p'`: the plane `p` takes in the call `e` and is `p'` then. It gives its own
  answer, or the call fails or is given up, with its effect or without. Only one error is not put
  into its mouth: that an object exists already which does not.
* `MemoryPlane.Serves` is a whole log of calls, one after another.
* `Takes.changes` says once and for all what a call may change: the kinds and the conditions of new
  objects stay, and objects are only created in free slots and replaced in their own.
* `MemoryPlane.WellKept`: the objects are in the order of their slots, each under its own key.
  `Reachable.wellKept` finds this in every plane that was set up and called.
-/

namespace PlaneRestore.MemoryPlane

open Words (IsSettled answered)

/-- The slot in which a call puts a resource. -/
def slotFor (m : KindMapping) (r : Resource) : Slot := ⟨m.groupKind, r.key⟩

/-- A call is taken in, or else it fails or is given up. Whoever gets an error, or gives the call
up, does not know whether it took effect. -/
inductive Takes (p : MemoryPlane) : LoggedCall → MemoryPlane → Prop
  | answers (c : Call) : p.Takes ⟨c, some (p.answer c).1⟩ (p.answer c).2
  | fails {c : Call} {e : ClientError} {a : c.Answer} {p' : MemoryPlane}
      (refused : c.refusal? e = some a) (effect : p' = p ∨ p' = (p.answer c).2)
      (honest : ∀ m r k n, c = .create m r → e = .alreadyExists k n →
        (p'.get? (slotFor m r)).isSome) : p.Takes ⟨c, some a⟩ p'
  | givenUp {c : Call} {p' : MemoryPlane} (effect : p' = p ∨ p' = (p.answer c).2) :
      p.Takes ⟨c, none⟩ p'

/-- The calls of a log are taken in, one after another. -/
abbrev Serves (p : MemoryPlane) (log : List LoggedCall) (p' : MemoryPlane) : Prop :=
  Steps Takes p log p'

/-! ### What a call changes -/

/-- What becomes of the objects. -/
inductive Changes (p p' : MemoryPlane) : Call → Prop
  | nothing {c : Call} (h : p'.objects = p.objects) : p.Changes p' c
  | created {m : KindMapping} {r : Resource} (free : p.get? (slotFor m r) = none)
      (h : p'.objects = Table.put (slotFor m r) (p.stored m.groupKind r) p.objects) :
      p.Changes p' (.create m r)
  | replaced {m : KindMapping} {r : Resource} (found : (p.get? (slotFor m r)).isSome)
      (h : p'.objects = Table.put (slotFor m r) r p.objects) : p.Changes p' (.update m r)

/-- The same kinds are served, and objects are the same when they are new. -/
structure SameService (p p' : MemoryPlane) : Prop where
  kinds : p'.kinds = p.kinds
  readyOnCreate : p'.readyOnCreate = p.readyOnCreate

theorem SameService.refl (p : MemoryPlane) : SameService p p := ⟨rfl, rfl⟩

theorem SameService.trans {p q p' : MemoryPlane} (h : SameService p q) (h' : SameService q p') :
    SameService p p' :=
  ⟨h'.kinds.trans h.kinds, h'.readyOnCreate.trans h.readyOnCreate⟩

theorem answer_changes (p : MemoryPlane) (c : Call) :
    SameService p (p.answer c).2 ∧ p.Changes (p.answer c).2 c := by
  cases c with
  | list m =>
    simp only [answer, list]
    split <;> exact ⟨⟨rfl, rfl⟩, .nothing rfl⟩
  -- a creation fails if the kind is not registered, by plan, or if the object is there
  | create m r =>
    simp only [answer, create]
    split
    · exact ⟨⟨rfl, rfl⟩, .nothing rfl⟩
    · split
      · exact ⟨⟨rfl, rfl⟩, .nothing rfl⟩
      · split
        · exact ⟨⟨rfl, rfl⟩, .nothing rfl⟩
        · next hfree => exact ⟨⟨rfl, rfl⟩, .created (Option.not_isSome_iff_eq_none.mp hfree) rfl⟩
  | update m r =>
    simp only [answer, update]
    split
    · next hfound => exact ⟨⟨rfl, rfl⟩, .replaced hfound rfl⟩
    · exact ⟨⟨rfl, rfl⟩, .nothing rfl⟩
  | mappingForKind k => exact ⟨⟨rfl, rfl⟩, .nothing rfl⟩
  | mappingForVersion k v => exact ⟨⟨rfl, rfl⟩, .nothing rfl⟩
  | reset => exact ⟨⟨rfl, rfl⟩, .nothing rfl⟩
  | resolve c => exact ⟨⟨rfl, rfl⟩, .nothing rfl⟩
  | observe => exact ⟨⟨rfl, rfl⟩, .nothing rfl⟩

theorem Takes.changes {p p' : MemoryPlane} {e : LoggedCall} (h : p.Takes e p') :
    SameService p p' ∧ p.Changes p' e.call := by
  have heffect : ∀ c, p' = p ∨ p' = (p.answer c).2 → SameService p p' ∧ p.Changes p' c := by
    rintro c (rfl | rfl)
    · exact ⟨.refl p', .nothing rfl⟩
    · exact p.answer_changes c
  cases h with
  | answers c => exact p.answer_changes c
  | fails _ effect _ => exact heffect _ effect
  | givenUp effect => exact heffect _ effect

/-! ### What an answer says -/

theorem Takes.answered {p p' : MemoryPlane} {c : Call} {a : c.Answer}
    (h : p.Takes ⟨c, some a⟩ p') (ha : ∀ e, c.refusal? e ≠ some a) :
    a = (p.answer c).1 ∧ p' = (p.answer c).2 := by
  cases h with
  | answers => exact ⟨rfl, rfl⟩
  | fails refused => exact absurd refused (ha _)

theorem Takes.listed {p p' : MemoryPlane} {m : KindMapping} {rs : List Resource}
    (h : p.Takes ⟨.list m, some (.ok rs)⟩ p') : rs = p.objectsOf m.groupKind := by
  obtain ⟨ha, -⟩ := h.answered (by simp [Call.refusal?])
  simp only [answer, list] at ha
  split at ha
  · cases ha
  · cases ha
    rfl

theorem Takes.mapped {p p' : MemoryPlane} {k : GroupKind} {version : String} {m : KindMapping}
    (h : p.Takes ⟨.mappingForVersion k version, some (.ok m)⟩ p') : m.groupKind = k := by
  obtain ⟨ha, -⟩ := h.answered (by simp [Call.refusal?])
  simp only [answer, mappingForVersion] at ha
  split at ha
  · cases ha
  · split at ha
    · next hfind =>
      cases ha
      have := List.find?_some hfind
      simp only [Bool.and_eq_true, decide_eq_true_eq] at this
      exact this.1
    · cases ha

theorem Takes.resolved {p p' : MemoryPlane} {c : Category} {ms : List KindMapping}
    (h : p.Takes ⟨.resolve c, some (.ok ms)⟩ p') : ms = p.resolve c := by
  obtain ⟨ha, -⟩ := h.answered (by simp [Call.refusal?])
  cases ha
  rfl

theorem get?_of_put {p p' : MemoryPlane} {x : Slot} {r : Resource}
    (h : p'.objects = Table.put x r p.objects) (y : Slot) :
    p'.get? y = if y = x then some r else p.get? y := by
  rw [get?, h]
  split
  · next hyx => rw [hyx, Table.get?_put_self]
  · next hyx => rw [Table.get?_put_of_ne hyx]; rfl

theorem settled_create {p : MemoryPlane} {m : KindMapping} {r : Resource}
    (h : IsSettled (p.create m r).1) : ((p.create m r).2.get? (slotFor m r)).isSome := by
  obtain ⟨applied, h⟩ := h
  revert h
  simp only [create]
  split
  · simp [Applied.ofAnswer, noMapping]
  · split
    · simp [Applied.ofAnswer]
    · split
      · next hfound => exact fun _ => hfound
      · intro _
        rw [get?_of_put (x := slotFor m r) rfl, if_pos rfl]
        rfl

/-- An object whose creation is settled is there. -/
theorem Takes.settled {p p' : MemoryPlane} {m : KindMapping} {r : Resource}
    {a : Except ClientError Resource} (h : p.Takes ⟨.create m r, some a⟩ p') (ha : IsSettled a) :
    (p'.get? (slotFor m r)).isSome := by
  cases h with
  | answers => exact settled_create ha
  | @fails _ e _ _ refused effect honest =>
    obtain rfl : Except.error e = a := by simpa [Call.refusal?] using refused
    obtain ⟨applied, ha⟩ := ha
    cases e with
    | alreadyExists k n => exact honest m r k n rfl rfl
    | _ => cases ha

/-- An object that was replaced is what it was replaced by. -/
theorem Takes.updated {p p' : MemoryPlane} {m : KindMapping} {r r' : Resource}
    (h : p.Takes ⟨.update m r, some (.ok r')⟩ p') :
    (p.get? (slotFor m r)).isSome ∧ p'.objects = Table.put (slotFor m r) r p.objects := by
  obtain ⟨ha, rfl⟩ := h.answered (by simp [Call.refusal?])
  revert ha
  simp only [answer, update]
  split
  · next hfound => exact fun _ => ⟨hfound, rfl⟩
  · intro ha
    cases ha

/-! ### Well-kept planes -/

/-- The objects are in the order of their slots, and each is under its own key. -/
structure WellKept (p : MemoryPlane) : Prop where
  ordered : Table.Ordered p.objects
  keyed : ∀ x r, p.get? x = some r → r.key = x.key

theorem sameNames_stored (p : MemoryPlane) (k : GroupKind) (r : Resource) :
    Resource.SameNames r (p.stored k r) := by
  rw [stored]
  generalize (Table.get? k p.readyOnCreate).getD [] = conditions
  induction conditions generalizing r with
  | nil => exact ⟨rfl, rfl⟩
  | cons c conditions ih => exact (Resource.sameNames_setCondition r _).trans (ih _)

theorem annotationsValue?_stored (p : MemoryPlane) (k : GroupKind) (r : Resource) :
    (p.stored k r).annotationsValue? = r.annotationsValue? := by
  rw [stored]
  generalize (Table.get? k p.readyOnCreate).getD [] = conditions
  induction conditions generalizing r with
  | nil => rfl
  | cons c conditions ih =>
    rw [List.foldl_cons, ih, Resource.annotationsValue?_setCondition]

theorem WellKept.put {p p' : MemoryPlane} (hp : p.WellKept) {x : Slot} {r : Resource}
    (hr : r.key = x.key) (h : p'.objects = Table.put x r p.objects) : p'.WellKept := by
  refine ⟨?_, fun y r' hy => ?_⟩
  · rw [h]
    exact Table.ordered_put x r hp.ordered
  · rw [get?_of_put h] at hy
    split at hy
    · next hyx =>
      cases hy
      rw [hr, hyx]
    · exact hp.keyed y r' hy

theorem get?_congr {p p' : MemoryPlane} (h : p'.objects = p.objects) (x : Slot) :
    p'.get? x = p.get? x := by rw [get?, h]; rfl

theorem WellKept.congr {p p' : MemoryPlane} (hp : p.WellKept) (h : p'.objects = p.objects) :
    p'.WellKept :=
  ⟨h ▸ hp.ordered, fun x r hx => hp.keyed x r (get?_congr h x ▸ hx)⟩

theorem WellKept.takes {p p' : MemoryPlane} {e : LoggedCall} (hp : p.WellKept)
    (h : p.Takes e p') : p'.WellKept := by
  obtain ⟨-, hchanges⟩ := h.changes
  generalize e.call = c at hchanges
  cases hchanges with
  | nothing h => exact hp.congr h
  | created _ h => exact hp.put (p.sameNames_stored _ _).key h
  | replaced _ h => exact hp.put rfl h

/-- The planes that come from putting in objects, setting up the rest and taking in calls. -/
inductive Reachable : MemoryPlane → Prop
  | empty : Reachable empty
  | insert {p : MemoryPlane} (h : Reachable p) (r : Resource) : Reachable (p.insert r)
  | setUp {p p' : MemoryPlane} (h : Reachable p) (objects : p'.objects = p.objects) : Reachable p'
  | takes {p p' : MemoryPlane} {e : LoggedCall} (h : Reachable p) (taken : p.Takes e p') :
      Reachable p'

theorem Reachable.wellKept {p : MemoryPlane} (h : p.Reachable) : p.WellKept := by
  induction h with
  | empty => exact ⟨Table.ordered_nil, fun _ _ h => nomatch h⟩
  | insert _ r ih => exact ih.put (x := r.slot) rfl rfl
  | setUp _ objects ih => exact ih.congr objects
  | takes _ taken ih => exact ih.takes taken

/-- Nothing is ever deleted. -/
theorem Takes.kept {p p' : MemoryPlane} {e : LoggedCall} (h : p.Takes e p') {x : Slot}
    (hx : (p.get? x).isSome) : (p'.get? x).isSome := by
  obtain ⟨-, hchanges⟩ := h.changes
  generalize e.call = c at hchanges
  cases hchanges with
  | nothing h => rwa [get?_congr h]
  | created _ h =>
    rw [get?_of_put h]
    split
    · rfl
    · exact hx
  | replaced _ h =>
    rw [get?_of_put h]
    split
    · rfl
    · exact hx

/-- The objects of a kind are those in its slots. -/
theorem WellKept.mem_objectsOf {p : MemoryPlane} (hp : p.WellKept) {k : GroupKind} {r : Resource} :
    r ∈ p.objectsOf k ↔ p.get? ⟨k, r.key⟩ = some r := by
  simp only [objectsOf, List.mem_map, List.mem_filter, decide_eq_true_eq, Prod.exists,
    hp.ordered.mem_iff_get?]
  constructor
  · rintro ⟨x, r', ⟨hget, rfl⟩, rfl⟩
    have hkey : r'.key = x.key := hp.keyed x r' hget
    rw [hkey]
    exact hget
  · exact fun h => ⟨⟨k, r.key⟩, r, ⟨h, rfl⟩, rfl⟩

/-- Planes with objects in the same slots have as many of each kind. -/
theorem WellKept.length_objectsOf {p q : MemoryPlane} (hp : p.WellKept) (hq : q.WellKept)
    (h : ∀ x, (p.get? x).isSome = (q.get? x).isSome) (k : GroupKind) :
    (p.objectsOf k).length = (q.objectsOf k).length := by
  have hcount : ∀ p : MemoryPlane,
      (p.objectsOf k).length = ((Table.keys p.objects).filter (·.kind = k)).length := by
    intro p
    rw [objectsOf, Table.keys, List.filter_map, List.length_map, List.length_map]
    rfl
  rw [hcount, hcount, hp.ordered.keys_eq hq.ordered h]

/-! ### Calls that change no object -/

variable {during pre : MemoryPlane → Prop}

/-- A condition that depends on objects and service alone. -/
def Stable (cond : MemoryPlane → Prop) : Prop :=
  ∀ p p', cond p → SameService p p' → p'.objects = p.objects → cond p'

/-- Calls that neither create nor replace an object. -/
def IsQuiet : Call → Prop
  | .create _ _ => False
  | .update _ _ => False
  | _ => True

theorem Takes.quiet {p p' : MemoryPlane} {e : LoggedCall} (h : p.Takes e p')
    (hquiet : IsQuiet e.call) : SameService p p' ∧ p'.objects = p.objects := by
  obtain ⟨hservice, hchanges⟩ := h.changes
  generalize e.call = c at hchanges hquiet
  cases hchanges with
  | nothing h => exact ⟨hservice, h⟩
  | created => exact hquiet.elim
  | replaced => exact hquiet.elim

/-- A call that changes no object leaves all conditions as they are, and may say something. -/
theorem carries_quiet {c : Call} {good : c.Answer → Prop} {F : Prop} (hquiet : IsQuiet c)
    (hpre : ∀ p, pre p → during p) (hstable : Stable pre)
    (hfact : ∀ p a p', pre p → good a → p.Takes ⟨c, some a⟩ p' → F) :
    Carries Takes during pre (answered c good) fun p => pre p ∧ F := by
  have hkept : ∀ p a p', pre p → p.Takes ⟨c, a⟩ p' → pre p' := by
    intro p a p' hp htakes
    obtain ⟨hservice, hobjects⟩ := htakes.quiet hquiet
    exact hstable p p' hp hservice hobjects
  refine carries_answered hpre (fun p a p' hp htakes => hpre p' (hkept p a p' hp htakes)) ?_
  exact fun p a p' hp ha htakes => ⟨hkept p _ p' hp htakes, hfact p a p' hp ha htakes⟩

theorem carries_waiting_of_stable (hpre : ∀ p, pre p → during p) (hstable : Stable pre)
    (gate : Gate) : Carries Takes during pre (Words.waiting gate) pre := by
  have hquiet : ∀ (c : Call) (good : c.Answer → Prop), IsQuiet c →
      Carries Takes during pre (answered c good) pre := fun c good hc =>
    (carries_quiet (F := True) hc hpre hstable fun _ _ _ _ _ _ => trivial).mono
      (fun _ h => h) fun _ h => h.1
  exact carries_waiting gate hpre (fun good => hquiet (.mappingForKind gate.1) good trivial)
    fun m good => hquiet (.list m) good trivial

end PlaneRestore.MemoryPlane
