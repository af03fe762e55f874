import PlaneRestore.Proofs.Import.Terms
import PlaneRestore.Proofs.Plane.Play
/-!
A plane in memory stays in order.

* `MemoryPlane.InOrder`: each object is in the slot that it names itself.
* `Terms.faithful`: who is told of a kind only what is of this kind writes objects only where their
  own kind is served. `Dialogue.Meets.hosted` puts the two together: a plane in order tells nothing
  else, so it stays in order, along any run of work that keeps to these terms.
* `MemoryPlane.InUse` are the planes that come from putting in objects and from running operations
  that succeed, fail or are broken off. `MemoryPlane.InUse.keepsOrder` says what is true of them.
-/

namespace PlaneRestore

/-! ### Operations -/

/-- Something that is run against a control plane. -/
inductive Operation where
  | preflight (o : ImportOptions)
  | importState (o : ImportOptions)
  | importGroup (s : ExportedState) (group : String) (pause : Bool)
  | waitFor (settings : WaitSettings) (kind : GroupKind) (conditions : List String)
  | unpause (c : Category)

namespace Operation

/-- What an operation results in. -/
abbrev Result : Operation → Type
  | preflight _ => List PreflightIssue
  | importState _ => ImportReport
  | importGroup _ _ _ => Nat
  | waitFor _ _ _ => Unit
  | unpause _ => Nat

def work : (op : Operation) → Work op.Result
  | preflight o => Work.preflight o
  | importState o => Work.importState o
  | importGroup s group pause => Work.importGroup s group pause
  | waitFor settings kind conditions => Work.waitFor settings kind conditions
  | unpause c => Work.modifyAll c Resource.unpause

theorem meets (T : Terms) (op : Operation) : op.work.Meets T := by
  cases op with
  | preflight o => exact Work.meets_preflight o
  | importState o => exact Work.meets_importState o
  | importGroup s group pause => exact Work.meets_importGroup s group pause
  | waitFor settings kind conditions => exact Work.meets_waitFor settings kind conditions
  | unpause c => exact Work.meets_modifyAll_unpause c

end Operation

/-! ### What is told of a kind -/

/-- What is listed as of a kind is of this kind, and so is a mapping that is found for it. -/
def LoggedCall.IsFaithful : LoggedCall → Prop
  | ⟨.list m, some (.ok rs)⟩ => ∀ r ∈ rs, r.groupKind = m.groupKind
  | ⟨.mappingForVersion k _, some (.ok m)⟩ => m.groupKind = k
  | _ => True

/-- A call writes a resource where its own kind is served. -/
def Call.IsOwn (c : Call) : Prop := ∀ m r, c.written? = some (m, r) → r.groupKind = m.groupKind

/-- Who is told nothing but what is so writes resources only where their own kinds are served. -/
def Terms.faithful : Terms where
  rely t := ∀ e, LoggedCall.ofTurn? t = some e → e.IsFaithful
  fits m r := r.groupKind = m.groupKind
  fails _ := True
  fits_of_mapped h _ hr := hr.trans (Eq.symm (h _ rfl))
  fits_of_listed h := h _ rfl
  fits_of_sameNames hnames h := hnames.groupKind.trans h
  fails_plain _ := trivial
  fails_outer _ _ := trivial
  fails_cancelled _ _ := trivial
  fails_late _ := trivial
  fails_unread _ := trivial

theorem Terms.isOwn_of_allows {t : Dialogue.Turn Question Question.Answer} {e : LoggedCall}
    (h : Terms.faithful.Allows t.1) (he : LoggedCall.ofTurn? t = some e) : e.call.IsOwn := by
  obtain ⟨q, a⟩ := t
  cases q with
  | call c =>
    cases he
    exact h
  | guarded c deadline =>
    cases a <;>
    · cases he
      exact h
  | now | sleepUntil | report | extract => cases he

namespace MemoryPlane

variable {p p' : MemoryPlane}

/-! ### Planes in order -/

/-- The objects are in the order of their slots, and each is in the slot that it names. -/
structure InOrder (p : MemoryPlane) : Prop extends WellKept p where
  kinded : ∀ x r, p.get? x = some r → r.groupKind = x.kind

theorem InOrder.slot (hp : p.InOrder) {x : Slot} {r : Resource} (h : p.get? x = some r) :
    r.slot = x := by
  rw [Resource.slot, hp.kinded x r h, hp.keyed x r h]

theorem inOrder_empty : InOrder empty :=
  ⟨Reachable.empty.wellKept, fun _ _ h => nomatch h⟩

theorem InOrder.congr (hp : p.InOrder) (h : p'.objects = p.objects) : p'.InOrder :=
  ⟨hp.toWellKept.congr h, fun x r hx => hp.kinded x r (get?_congr h x ▸ hx)⟩

theorem InOrder.put (hp : p.InOrder) {x : Slot} {r : Resource} (hr : r.slot = x)
    (h : p'.objects = Table.put x r p.objects) : p'.InOrder := by
  refine ⟨hp.toWellKept.put (congrArg Slot.key hr) h, fun y r' hy => ?_⟩
  rw [get?_of_put h] at hy
  split at hy
  · next hyx =>
    cases hy
    rw [hyx, ← hr]
    rfl
  · exact hp.kinded y r' hy

theorem InOrder.mem_objectsOf (hp : p.InOrder) {k : GroupKind} {r : Resource} :
    r ∈ p.objectsOf k ↔ r.groupKind = k ∧ ∃ x, p.get? x = some r := by
  rw [hp.toWellKept.mem_objectsOf]
  constructor
  · exact fun h => ⟨hp.kinded _ r h, _, h⟩
  · rintro ⟨rfl, x, h⟩
    rw [← hp.slot h] at h
    exact h

/-- The objects of a kind come in the order of their keys. -/
theorem InOrder.objectsOf_pairwise (hp : p.InOrder) (k : GroupKind) :
    (p.objectsOf k).Pairwise fun a b => compare a.key b.key = .lt := by
  refine List.pairwise_map.mpr (List.pairwise_filter.mpr ?_)
  refine hp.ordered.imp_of_mem fun {a b} ha hb hlt hka hkb => ?_
  -- slots of one kind are compared by their keys
  have hslot : ∀ e ∈ p.objects, e.1.kind = k → e.1 = ⟨k, e.2.key⟩ := by
    rintro ⟨x, r⟩ he rfl
    rw [hp.keyed x r (hp.ordered.mem_iff_get?.mp he)]
  have hcompare : (compare k k).then (compare a.2.key b.2.key) = .lt := by
    rw [hslot a ha (by simpa using hka), hslot b hb (by simpa using hkb)] at hlt
    exact hlt
  rwa [Std.ReflOrd.compare_self, Ordering.eq_then] at hcompare

/-! ### Calls -/

/-- A plane in order says nothing of a kind that is not so. -/
theorem InOrder.isFaithful (hp : p.InOrder) {e : LoggedCall} (h : p.Takes e p') :
    e.IsFaithful := by
  obtain ⟨c, a⟩ := e
  match c, a with
  | .list m, some (.ok rs) =>
    intro r hr
    rw [h.listed] at hr
    exact (hp.mem_objectsOf.mp hr).1
  | .mappingForVersion k version, some (.ok m) => exact h.mapped
  | .list _, some (.error _) | .list _, none => trivial
  | .mappingForVersion _ _, some (.error _) | .mappingForVersion _ _, none => trivial
  | .create _ _, _ | .update _ _, _ | .mappingForKind _, _ | .reset, _ | .resolve _, _
  | .observe, _ => trivial

/-- A plane stays in order if objects are written where their own kinds are served. -/
theorem InOrder.takes (hp : p.InOrder) {e : LoggedCall} (h : p.Takes e p')
    (hown : e.call.IsOwn) : p'.InOrder := by
  obtain ⟨-, hchanges⟩ := h.changes
  generalize e.call = c at hchanges hown
  cases hchanges with
  | nothing h => exact hp.congr h
  | @created m r _ h =>
    -- what is stored may have more in it than what was sent, but has its names
    have hnames := p.sameNames_stored m.groupKind r
    refine hp.put ?_ h
    rw [Resource.slot, slotFor, hnames.groupKind, hnames.key, hown m r rfl]
  | @replaced m r _ h =>
    refine hp.put ?_ h
    rw [Resource.slot, slotFor, hown m r rfl]

/-! ### Runs -/

/-- The calls of some turns are taken in. In between, objects may be put in, and all the rest may be
set up anew. -/
inductive Hosts : MemoryPlane → Turns → MemoryPlane → Prop
  | nil (p : MemoryPlane) : Hosts p [] p
  | insert {p p' : MemoryPlane} {ts : Turns} (r : Resource) (rest : Hosts (p.insert r) ts p') :
      Hosts p ts p'
  | setUp {p p₁ p' : MemoryPlane} {ts : Turns} (objects : p₁.objects = p.objects)
      (rest : Hosts p₁ ts p') : Hosts p ts p'
  | silent {p p' : MemoryPlane} {t : Dialogue.Turn Question Question.Answer} {ts : Turns}
      (nothing : LoggedCall.ofTurn? t = none) (rest : Hosts p ts p') : Hosts p (t :: ts) p'
  | called {p p₁ p' : MemoryPlane} {t : Dialogue.Turn Question Question.Answer} {ts : Turns}
      {e : LoggedCall} (call : LoggedCall.ofTurn? t = some e) (taken : p.Takes e p₁)
      (rest : Hosts p₁ ts p') : Hosts p (t :: ts) p'

theorem Serves.hosts {ts : Turns} (h : p.Serves (callLog ts) p') : p.Hosts ts p' := by
  induction ts generalizing p with
  | nil =>
    cases h
    exact .nil p'
  | cons t ts ih =>
    rw [callLog, List.filterMap_cons] at h
    cases he : LoggedCall.ofTurn? t with
    | none =>
      rw [he] at h
      exact .silent he (ih h)
    | some e =>
      rw [he] at h
      cases h with
      | cons first rest => exact .called he first (ih rest)

end MemoryPlane

/-- A plane in order stays so along a run of what keeps to the terms, and all calls of the run write
objects where their own kinds are served. -/
theorem Dialogue.Meets.hosted {α : Type} {good : α → Prop} {x : Session α} {ts : Turns}
    {r : Option α} {p p' : MemoryPlane} (h : x.Meets .faithful good) (hled : x.Led ts r)
    (hhosts : p.Hosts ts p') (hp : p.InOrder) :
    p'.InOrder ∧ ∀ e ∈ callLog ts, e.call.IsOwn := by
  -- by what the plane is given: in order, it can be relied on, so that the next call keeps it so
  induction hhosts generalizing x with
  | nil p => exact ⟨hp, fun e he => nomatch he⟩
  | insert r _ ih => exact ih h hled (hp.put (x := r.slot) rfl rfl)
  | setUp objects _ ih => exact ih h hled (hp.congr objects)
  | silent nothing _ ih =>
    rw [callLog, List.filterMap_cons_none nothing]
    cases hled with
    | turn a hrest =>
      refine ih (h.2 a fun e he => ?_) hrest hp
      cases nothing.symm.trans he
  | called call taken _ ih =>
    rw [callLog, List.filterMap_cons_some call]
    cases hled with
    | turn a hrest =>
      have hown := Terms.isOwn_of_allows h.1 call
      have hrely : Terms.faithful.rely ⟨_, a⟩ := fun e' he' =>
        Option.some.inj (call.symm.trans he') ▸ hp.isFaithful taken
      obtain ⟨hp', hcalls⟩ := ih (h.2 a hrely) hrest (hp.takes taken hown)
      exact ⟨hp', List.forall_mem_cons.mpr ⟨hown, hcalls⟩⟩

namespace MemoryPlane

variable {p p' : MemoryPlane}

/-- The planes that come from putting in objects, setting up all the rest, and running operations,
which may succeed, fail or be broken off. -/
inductive InUse : MemoryPlane → Prop
  | empty : InUse empty
  | insert {p : MemoryPlane} (h : InUse p) (r : Resource) : InUse (p.insert r)
  | setUp {p p' : MemoryPlane} (h : InUse p) (objects : p'.objects = p.objects) : InUse p'
  | run {p p' : MemoryPlane} (h : InUse p) (op : Operation) {m : Memory} {ts : Turns}
      {r : Option (Except ImportError op.Result × Memory)} (led : op.work.Led m ts r)
      (hosts : p.Hosts ts p') : InUse p'

theorem InUse.inOrder (h : p.InUse) : p.InOrder := by
  induction h with
  | empty => exact inOrder_empty
  | insert _ r ih => exact ih.put (x := r.slot) rfl rfl
  | setUp _ objects ih => exact ih.congr objects
  | run _ op led hosts ih => exact ((op.meets .faithful _).hosted led hosts ih).1

/-! ### What is kept in order -/

/-- Whether a call is written to the log. -/
def isRecorded : Call → Bool
  | .mappingForKind _ | .mappingForVersion _ _ => false
  | .list _ | .create _ _ | .update _ _ | .reset | .resolve _ | .observe => true

/-- A plane whose objects are where they belong, whatever is asked of it and brought to it. -/
structure KeepsOrder (p : MemoryPlane) : Prop where
  /-- Every object is stored under its own kind and key. -/
  own : ∀ x r, p.get? x = some r → r.slot = x
  /-- The objects of a kind are all objects of this kind, and no others. -/
  mem_objectsOf : ∀ k r, r ∈ p.objectsOf k ↔ r.groupKind = k ∧ ∃ x, p.get? x = some r
  /-- They are in the strict order of their keys, so none is there twice. -/
  inKeyOrder : ∀ k, (p.objectsOf k).Pairwise fun a b => compare a.key b.key = .lt
  listed : ∀ m rs, (p.answer (.list m)).1 = .ok rs → rs = p.objectsOf m.groupKind
  /-- A creation alters no object that is there, and adds none but the named one. -/
  created : ∀ m r x, (p.answer (.create m r)).2.get? x = p.get? x ∨ x = slotFor m r ∧
    p.get? x = none ∧ (p.answer (.create m r)).2.get? x = some (p.stored m.groupKind r)
  /-- A replacement adds and removes nothing, and puts the new object in place of the named one. -/
  replaced : ∀ m r x, (p.answer (.update m r)).2.get? x = p.get? x ∨ x = slotFor m r ∧
    (p.get? x).isSome ∧ (p.answer (.update m r)).2.get? x = some r
  /-- Who answers with an error has not changed any object. -/
  refused : ∀ c e, c.refusal? e = some (p.answer c).1 → (p.answer c).2.objects = p.objects
  logged : ∀ c,
    (p.answer c).2.calls = if isRecorded c then p.calls.push c else p.calls

/-- A call that is answered with an error has changed nothing but, perhaps, the plans for failures
and the log. -/
theorem objects_of_refused {c : Call} {e : ClientError}
    (h : c.refusal? e = some (p.answer c).1) : (p.answer c).2.objects = p.objects := by
  cases c with
  | list m =>
    simp only [answer, list]
    split <;> rfl
  | create m r =>
    simp only [Call.refusal?, answer, create, Option.some.injEq] at h ⊢
    -- each of the three ways to fail leaves the objects alone
    split at h
    · next hnew => rw [if_pos hnew]; rfl
    · next hkind =>
      rw [if_neg hkind]
      split at h
      · next hfail => rw [if_pos hfail]; rfl
      · next hfail =>
        rw [if_neg hfail]
        split at h
        · next hthere => rw [if_pos hthere]; rfl
        · cases h
  | update m r =>
    simp only [Call.refusal?, answer, update, Option.some.injEq] at h ⊢
    split at h
    · cases h
    · next hfound => rw [if_neg hfound]; rfl
  | mappingForKind | mappingForVersion | reset | resolve | observe => rfl

theorem get?_answer_create (p : MemoryPlane) (m : KindMapping) (r : Resource) (x : Slot) :
    (p.answer (.create m r)).2.get? x = p.get? x ∨ x = slotFor m r ∧
      p.get? x = none ∧ (p.answer (.create m r)).2.get? x = some (p.stored m.groupKind r) := by
  obtain ⟨-, hchanges⟩ := p.answer_changes (.create m r)
  cases hchanges with
  | nothing h => exact .inl (get?_congr h x)
  | created hfree h =>
    rw [get?_of_put h]
    split
    · next hx => exact .inr ⟨hx, hx ▸ hfree, rfl⟩
    · exact .inl rfl

theorem get?_answer_update (p : MemoryPlane) (m : KindMapping) (r : Resource) (x : Slot) :
    (p.answer (.update m r)).2.get? x = p.get? x ∨ x = slotFor m r ∧
      (p.get? x).isSome ∧ (p.answer (.update m r)).2.get? x = some r := by
  obtain ⟨-, hchanges⟩ := p.answer_changes (.update m r)
  cases hchanges with
  | nothing h => exact .inl (get?_congr h x)
  | replaced hfound h =>
    rw [get?_of_put h]
    split
    · next hx => exact .inr ⟨hx, hx ▸ hfound, rfl⟩
    · exact .inl rfl

theorem calls_answer (p : MemoryPlane) (c : Call) :
    (p.answer c).2.calls = if isRecorded c then p.calls.push c else p.calls := by
  cases c with
  | list m =>
    simp only [answer, list]
    split <;> rfl
  | create m r =>
    simp only [answer, create]
    split
    · rfl
    · split
      · rfl
      · split <;> rfl
  | update m r =>
    simp only [answer, update]
    split <;> rfl
  | mappingForKind | mappingForVersion | reset | resolve | observe => rfl

theorem InOrder.keepsOrder (hp : p.InOrder) : p.KeepsOrder where
  own _ _ h := hp.slot h
  mem_objectsOf _ _ := hp.mem_objectsOf
  inKeyOrder := hp.objectsOf_pairwise
  listed m rs h := by
    have htakes := Takes.answers (p := p) (.list m)
    rw [h] at htakes
    exact htakes.listed
  created := p.get?_answer_create
  replaced := p.get?_answer_update
  refused _ _ := objects_of_refused
  logged := p.calls_answer

end MemoryPlane

/-- **A plane in memory stays in order**, whatever objects are put into it and whatever is run
against it, even if runs fail or are broken off: every object is under its own kind and key, a list
of a kind gives the objects of this kind in the order of their keys, and no call changes more than
what it names. All calls of a run name the objects that they write by the objects' own kinds. -/
theorem plane_stays_in_order {p : MemoryPlane} (h : p.InUse) :
    p.KeepsOrder ∧
      ∀ (op : Operation) (m : Memory) (ts : Turns)
        (r : Option (Except ImportError op.Result × Memory)) (p' : MemoryPlane),
        op.work.Led m ts r → p.Hosts ts p' → p'.KeepsOrder ∧ ∀ e ∈ callLog ts, e.call.IsOwn := by
  refine ⟨h.inOrder.keepsOrder, fun op m ts r p' hled hhosts => ?_⟩
  obtain ⟨hp', hown⟩ := (op.meets .faithful m).hosted hled hhosts h.inOrder
  exact ⟨hp'.keepsOrder, hown⟩

namespace Sample

/-- The small exported state has been imported, and nothing is paused any more. -/
def planeUnpaused : MemoryPlane :=
  plane.after (callLog (plane.playedTurns state { options with unpauseAfterImport := true }))

theorem inUse_planeUnpaused : planeUnpaused.InUse := by
  have hplane : plane.InUse := MemoryPlane.InUse.empty.setUp rfl
  obtain ⟨m, r, -, -, hled, -⟩ := plane.importRun_played state _
  exact hplane.run (.importState _) hled (plane.answers_played state _).serves.hosts

end Sample

theorem plane_stays_in_order_sample :
    Sample.planeUnpaused.InUse ∧ Sample.planeUnpaused.KeepsOrder ∧
      ((Sample.planeUnpaused.objectsOf ⟨"aws.example.io", "Bucket"⟩).map fun r =>
        (r.key, r.isAnnotated pausedKey)) = [(⟨none, "logs"⟩, false)] :=
  ⟨Sample.inUse_planeUnpaused, (plane_stays_in_order Sample.inUse_planeUnpaused).1,
    by decide +kernel⟩

end PlaneRestore
