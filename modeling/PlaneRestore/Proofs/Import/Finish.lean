import PlaneRestore.Proofs.Import.Outcome
/-!
How the calls of an import carry a plane to the outcome.

* `MemoryPlane.Complete s p q`: there are objects in exactly those slots of `q` in which there will
  be objects in the end. This is so once all manifests have been brought.
* `MemoryPlane.Lifted s o p ks q`: all manifests have been brought, and the pause of the kinds `ks`
  has been lifted.
* `MemoryPlane.carries_importing`: a whole import carries a plane that is underway to the outcome.
-/

namespace PlaneRestore.MemoryPlane

open Words

variable {s : ExportedState} {o : ImportOptions} {p : MemoryPlane}

/-! ### The kinds that are created paused -/

theorem carries_resolving {cond : MemoryPlane → Prop} (hcond : ∀ q, cond q → Underway s o p q)
    (hstable : Stable cond) (c : Category) (mappings : List KindMapping) :
    Carries Takes (Underway s o p) cond (resolving c mappings) fun q =>
      cond q ∧ mappings = p.resolve c := by
  refine carries_quiet trivial hcond hstable ?_
  rintro q a q' hq rfl htakes
  rw [htakes.resolved, resolve, resolve, (hcond q hq).service.kinds]

theorem carries_resolvingPausable {cond : MemoryPlane → Prop}
    (hcond : ∀ q, cond q → Underway s o p q) (hstable : Stable cond) (kinds : List GroupKind) :
    Carries Takes (Underway s o p) cond (resolvingPausable kinds) fun q =>
      cond q ∧ kinds = p.pausableKinds := by
  refine carries_iSup fun claims => carries_iSup fun composites => carries_iSup fun managed =>
    carries_iSup fun hkinds => ?_
  rw [mul_assoc]
  refine (carries_resolving hcond hstable .claim claims).mul (carries_and fun hclaims => ?_)
  refine (carries_resolving hcond hstable .composite composites).mul
    (carries_and fun hcomposites => ?_)
  refine (carries_resolving hcond hstable .managed managed).mono (fun _ h => h) ?_
  rintro q ⟨hq, hmanaged⟩
  refine ⟨hq, ?_⟩
  rw [hkinds, hclaims, hcomposites, hmanaged]
  simp [pausableKinds, Category.pausable]

theorem carries_bringingLater :
    Carries Takes (Underway s o p) (Brought s o p (s.baseManifests.map fun m =>
        m.resource.withoutServerFields)) (bringingLater s.laterManifests)
      (Brought s o p (p.submitted s)) := by
  rw [submitted_eq]
  cases hlater : s.laterManifests with
  | nil =>
    rw [List.map_nil, List.append_nil]
    exact carries_one fun q hq => hq.1
  | cons m ms =>
    refine carries_iSup fun kinds => ?_
    refine (carries_resolvingPausable (fun q hq => hq.1) brought_stable kinds).mul
      (carries_and fun hkinds => ?_)
    subst hkinds
    rw [← hlater]
    refine carries_applying_all (pausedIn p.pausableKinds) _ [] ?_
    rw [submitted_eq, List.append_nil]

/-! ### Lifting the pause -/

/-- There are objects where there will be some. -/
structure Complete (s : ExportedState) (p q : MemoryPlane) : Prop where
  wellKept : q.WellKept
  present : ∀ x, (q.get? x).isSome = (p.origin s x).isSome

theorem Brought.complete {q : MemoryPlane} (h : Brought s o p (p.submitted s) q) :
    Complete s p q := by
  refine ⟨h.1.wellKept, fun x => ?_⟩
  rw [Bool.eq_iff_iff]
  constructor
  · intro hx
    obtain ⟨r, hr⟩ := Option.isSome_iff_exists.mp hx
    obtain ⟨r₀, hr₀, -⟩ := h.1.objects x r hr
    simp [hr₀]
  · intro hx
    rw [origin_eq, Option.isSome_or, Bool.or_eq_true, Option.isSome_map] at hx
    rcases hx with hx | hx
    · exact h.1.kept x hx
    · obtain ⟨r, hr⟩ := Option.isSome_iff_exists.mp hx
      obtain rfl : r.slot = x := by simpa using List.find?_some hr
      exact h.2 r (List.mem_of_find?_eq_some hr)

/-- All manifests have been brought, and the pause of some kinds has been lifted. -/
structure Lifted (s : ExportedState) (o : ImportOptions) (p : MemoryPlane) (ks : List GroupKind)
    (q : MemoryPlane) : Prop where
  brought : Brought s o p (p.submitted s) q
  lifted : ∀ x r, x.kind ∈ ks → q.get? x = some r → r.unpause = r

theorem lifted_stable {ks : List GroupKind} : Stable (Lifted s o p ks) := by
  intro q q' h hservice hobjects
  refine ⟨brought_stable q q' h.brought hservice hobjects, fun x r hx hr => ?_⟩
  rw [get?_congr hobjects] at hr
  exact h.lifted x r hx hr

/-- What a list of all objects of a kind says about the outcome. -/
structure Listing (s : ExportedState) (p : MemoryPlane) (k : GroupKind) (rs : List Resource) :
    Prop where
  origins : ∀ r ∈ rs, ∃ r₀, p.origin s ⟨k, r.key⟩ = some r₀ ∧ r.unpause = r₀.unpause
  all : ∀ x, x.kind = k → (p.origin s x).isSome → ∃ r ∈ rs, r.key = x.key
  length : ∀ q, Complete s p q → rs.length = (q.objectsOf k).length

theorem Brought.listing {q : MemoryPlane} (h : Brought s o p (p.submitted s) q) (k : GroupKind) :
    Listing s p k (q.objectsOf k) := by
  have hq := h.complete
  refine ⟨fun r hr => ?_, fun x hx hpresent => ?_, fun q' hq' => ?_⟩
  · obtain ⟨r₀, horigin, hr⟩ := h.1.objects _ r (hq.wellKept.mem_objectsOf.mp hr)
    refine ⟨r₀, horigin, ?_⟩
    rcases hr with rfl | ⟨-, rfl⟩
    · rfl
    · exact r₀.unpause_unpause
  · rw [← hq.present x] at hpresent
    obtain ⟨r, hr⟩ := Option.isSome_iff_exists.mp hpresent
    have hkey := hq.wellKept.keyed x r hr
    refine ⟨r, hq.wellKept.mem_objectsOf.mpr ?_, hkey⟩
    rw [← hx, hkey]
    exact hr
  · exact hq.wellKept.length_objectsOf hq'.wellKept (fun x => by rw [hq.present, hq'.present]) k

/-- One object is replaced by itself without the pause. -/
theorem Lifted.replaced {ks : List GroupKind} {q q' : MemoryPlane} {m : KindMapping} {r : Resource}
    (h : Lifted s o p ks q) (hservice : SameService q q')
    (hobjects : q'.objects = Table.put (slotFor m r.unpause) r.unpause q.objects)
    (hkind : p.isUnpaused o m.groupKind = true)
    (horigin : ∃ r₀, p.origin s ⟨m.groupKind, r.key⟩ = some r₀ ∧ r.unpause = r₀.unpause) :
    Lifted s o p ks q' := by
  obtain ⟨r₀, horigin, hr⟩ := horigin
  have hslot : slotFor m r.unpause = ⟨m.groupKind, r.key⟩ := by
    rw [slotFor, r.sameNames_unpause.key]
  have hunderway := h.brought.1.put hservice hobjects rfl (hslot ▸ horigin) (.inr ⟨hkind, hr⟩)
  -- the slot that was written is paused no more, and the others are as they were
  refine ⟨⟨hunderway, fun r' hr' => ?_⟩, fun x r' hx hr' => ?_⟩
  · rw [get?_of_put hobjects]
    split
    · rfl
    · exact h.brought.2 r' hr'
  · rw [get?_of_put hobjects] at hr'
    split at hr'
    · cases hr'
      exact r.unpause_unpause
    · exact h.lifted x r' hx hr'

/-- The pause of all objects of a kind is lifted. -/
theorem carries_unpausingKind {ks : List GroupKind} {m : KindMapping}
    (hkind : p.isUnpaused o m.groupKind = true) (n : Nat) :
    Carries Takes (Underway s o p) (Lifted s o p ks) (unpausingKind m n) fun q =>
      Lifted s o p (ks ++ [m.groupKind]) q ∧
        ∀ q', Complete s p q' → n = (q'.objectsOf m.groupKind).length := by
  refine carries_iSup fun rs => carries_iSup fun hn => ?_
  refine (carries_quiet (c := .list m) (F := Listing s p m.groupKind rs) trivial
    (fun q hq => hq.brought.1) lifted_stable ?_).mul (carries_and fun hlisting => ?_)
  · rintro q a q' hq rfl htakes
    rw [htakes.listed]
    exact hq.brought.listing m.groupKind
  -- after some updates, the objects that they name are unpaused
  have hloop := carries_prod (R := Takes) (D := Underway s o p) (l := rs)
    (f := fun r => answered (.update m r.unpause) fun a => ∃ r', a = .ok r')
    (fun done q => Lifted s o p ks q ∧
      ∀ r ∈ done, ∀ r', q.get? ⟨m.groupKind, r.key⟩ = some r' → r'.unpause = r')
    (fun _ q hq => hq.1.brought.1) ?_
  · refine hloop.mono (fun q hq => ⟨hq, by simp⟩) ?_
    rintro q ⟨hq, hdone⟩
    -- all objects of the kind are in the list
    refine ⟨⟨hq.brought, fun x r' hx hr' => ?_⟩, fun q' hq' => hn ▸ hlisting.length q' hq'⟩
    rcases List.mem_append.mp hx with hx | hx
    · exact hq.lifted x r' hx hr'
    · obtain ⟨k, key⟩ := x
      obtain rfl : k = m.groupKind := by simpa using hx
      have hpresent : (p.origin s ⟨m.groupKind, key⟩).isSome := by
        rw [← hq.brought.complete.present, hr']
        rfl
      obtain ⟨r, hr, rfl⟩ := hlisting.all _ rfl hpresent
      exact hdone r hr r' hr'
  · rintro done r rest rfl
    have horigin := hlisting.origins r (by simp)
    -- an update that is answered badly may have taken effect all the same
    have htaken : ∀ q a q', Lifted s o p ks q → q.Takes ⟨.update m r.unpause, a⟩ q' →
        Lifted s o p ks q' := by
      intro q a q' hq htakes
      obtain ⟨hservice, hchanges⟩ := htakes.changes
      cases hchanges with
      | nothing h => exact lifted_stable q q' hq hservice h
      | replaced _ h => exact hq.replaced hservice h hkind horigin
    refine carries_answered (fun q hq => hq.1.brought.1)
      (fun q a q' hq htakes => (htaken q a q' hq.1 htakes).brought.1) ?_
    rintro q _ q' ⟨hq, hdone⟩ ⟨r₁, rfl⟩ htakes
    refine ⟨htaken q _ q' hq htakes, fun r₂ hr₂ r' hr' => ?_⟩
    rw [get?_of_put htakes.updated.2] at hr'
    split at hr'
    · cases hr'
      exact r.unpause_unpause
    · next hne =>
      rcases List.mem_append.mp hr₂ with hr₂ | hr₂
      · exact hdone r₂ hr₂ r' hr'
      · obtain rfl := List.mem_singleton.mp hr₂
        rw [slotFor, r₂.sameNames_unpause.key] at hne
        exact absurd rfl hne

/-- How many objects of a category there are; each counts once for every mapping of its kind. -/
def countOf (q : MemoryPlane) (c : Category) : Nat :=
  ((q.resolve c).map fun m => (q.objectsOf m.groupKind).length).foldl (· + ·) 0

/-- The pause of all objects of a category is lifted. -/
theorem carries_unpausing {ks : List GroupKind} {c : Category} (hc : c ∈ unpausedCategories o)
    (n : Nat) :
    Carries Takes (Underway s o p) (Lifted s o p ks) (unpausing c n) fun q =>
      Lifted s o p (ks ++ kindsOf (p.resolve c)) q ∧
        ∀ q', Complete s p q' → SameService p q' → n = q'.countOf c := by
  refine carries_iSup fun mappings => carries_iSup fun ns => carries_iSup fun hns => ?_
  obtain ⟨hlen, hsum⟩ := hns
  refine (carries_resolving (fun q hq => hq.brought.1) lifted_stable c mappings).mul
    (carries_and fun hmappings => ?_)
  have hloop := carries_zipWith (R := Takes) (D := Underway s o p) (f := unpausingKind)
    (fun done => Lifted s o p (ks ++ kindsOf done)) (F := fun m n =>
      ∀ q, Complete s p q → n = (q.objectsOf m.groupKind).length)
    hlen (fun _ q hq => hq.brought.1) ?_
  · refine hloop.mono (fun q hq => by simpa [kindsOf] using hq) ?_
    rintro q ⟨hq, hcounts⟩
    refine ⟨hmappings ▸ hq, fun q' hq' hservice => ?_⟩
    -- the counts are those of any plane with objects in the same slots
    have hns : ns = mappings.map fun m => (q'.objectsOf m.groupKind).length := by
      clear hloop hsum hlen hmappings hq
      induction hcounts with
      | nil => rfl
      | cons hn _ ih => rw [hn q' hq', List.map_cons, ← ih]
    rw [← hsum, hns, countOf, hmappings, resolve, resolve, hservice.kinds]
  · rintro done m rest n hsplit
    have hkind : p.isUnpaused o m.groupKind = true := by
      rw [isUnpaused, List.any_eq_true]
      refine ⟨c, hc, List.any_eq_true.mpr ⟨m, ?_, by simp⟩⟩
      rw [← hmappings, hsplit]
      simp
    have hnext : Carries Takes (Underway s o p) (Lifted s o p (ks ++ kindsOf done))
        (unpausingKind m n) _ := carries_unpausingKind hkind n
    simpa [kindsOf] using hnext

theorem carries_finishing (counts : List Nat) :
    Carries Takes (Underway s o p) (Brought s o p (p.submitted s)) (finishing o counts) fun q =>
      Lifted s o p ((unpausedCategories o).flatMap fun c => kindsOf (p.resolve c)) q ∧
        counts = (unpausedCategories o).map q.countOf := by
  refine carries_iSup fun hlen => ?_
  have hloop := carries_zipWith (R := Takes) (D := Underway s o p) (f := unpausing)
    (fun done => Lifted s o p (done.flatMap fun c => kindsOf (p.resolve c))) (F := fun c n =>
      ∀ q, Complete s p q → SameService p q → n = q.countOf c)
    hlen (fun _ q hq => hq.brought.1) ?_
  -- each count is the same of all planes that are complete, and so also of the last one
  · refine hloop.mono (fun q hq => ⟨hq, by simp⟩) ?_
    rintro q ⟨hq, hcounts⟩
    refine ⟨hq, ?_⟩
    clear hloop hlen
    generalize unpausedCategories o = categories at hcounts
    induction hcounts with
    | nil => rfl
    | cons hn _ ih => rw [hn q hq.brought.complete hq.brought.1.service, List.map_cons, ← ih]
  · rintro done c rest n hsplit
    have hc : c ∈ unpausedCategories o := by simp [hsplit]
    simpa using carries_unpausing hc n

/-- The pause has been lifted wherever it has to be. -/
theorem Lifted.outcome {q : MemoryPlane} (x : Slot)
    (h : Lifted s o p ((unpausedCategories o).flatMap fun c => kindsOf (p.resolve c)) q) :
    q.get? x = p.outcome s o x := by
  rw [MemoryPlane.outcome]
  cases hx : q.get? x with
  | none =>
    have := h.brought.complete.present x
    rw [hx] at this
    simp [Option.isNone_iff_eq_none.mp (by simpa using this.symm)]
  | some r =>
    obtain ⟨r₀, horigin, hr⟩ := h.brought.1.objects x r hx
    rw [horigin, Option.map_some]
    -- what is at the slot comes from its origin, perhaps with the pause lifted
    split
    · next hkind =>
      have hmem : x.kind ∈ (unpausedCategories o).flatMap fun c => kindsOf (p.resolve c) := by
        simpa [isUnpaused, kindsOf] using hkind
      have hlifted := h.lifted x r hmem hx
      rcases hr with rfl | ⟨-, rfl⟩
      · rw [hlifted]
      · rfl
    · next hkind =>
      rcases hr with rfl | ⟨hkind', -⟩
      · rfl
      · exact absurd hkind' hkind

/-- A whole import carries a plane that is underway to the outcome. -/
theorem carries_importing (counts : List Nat) :
    Carries Takes (Underway s o p) (Underway s o p) (importing o s counts) fun q =>
      Underway s o p q ∧ (∀ x, q.get? x = p.outcome s o x) ∧
        counts = (unpausedCategories o).map q.countOf := by
  have hbase : Carries Takes (Underway s o p) (Underway s o p)
      (s.baseManifests.map fun m => applying m.resource).prod
      (Brought s o p (s.baseManifests.map fun m => m.resource.withoutServerFields)) := by
    refine (carries_applying_all (fun r => r) [] _ (submitted_eq s p)).mono ?_ fun _ hq => hq
    exact fun q hq => ⟨hq, fun _ hr => nomatch hr⟩
  -- only creations and updates change the plane, so the waits and the reset keep what was brought
  have hwait := carries_prod (R := Takes) (D := Underway s o p) (l := gates o) (f := waiting)
    (fun _ => Brought s o p (s.baseManifests.map fun m => m.resource.withoutServerFields))
    (fun _ q hq => hq.1) fun _ gate _ _ =>
      carries_waiting_of_stable (fun q hq => hq.1) brought_stable gate
  have hreset : Carries Takes (Underway s o p)
      (Brought s o p (s.baseManifests.map fun m => m.resource.withoutServerFields))
      (answered .reset fun _ => True)
      (Brought s o p (s.baseManifests.map fun m => m.resource.withoutServerFields)) :=
    (carries_quiet (c := .reset) (F := True) trivial (fun q hq => hq.1) brought_stable
      fun _ _ _ _ _ _ => trivial).mono (fun _ hq => hq) fun _ hq => hq.1
  refine ((((hbase.mul hwait).mul hreset).mul carries_bringingLater).mul
    (carries_finishing counts)).mono (fun _ hq => hq) ?_
  rintro q ⟨hq, hcounts⟩
  exact ⟨hq.brought.1, fun x => hq.outcome x, hcounts⟩

end PlaneRestore.MemoryPlane
