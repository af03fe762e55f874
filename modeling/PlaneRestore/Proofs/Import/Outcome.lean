import PlaneRestore.Proofs.Plane.Serve
/-!
What becomes of the objects of a plane.

* `MemoryPlane.outcome s o p x` is the object in the slot `x` after an import of `s` into the plane
  `p`: the one that was there, or else the one that the first manifest for the slot makes, in both
  cases without the pause if the import lifts the pause of its kind.
* `MemoryPlane.Underway s o p q`: the plane `q` is on the way there from `p`. In every slot there is
  nothing new yet, or the object as it was first, or the object as it will be.
-/

namespace PlaneRestore

open Words

/-- The kinds whose objects are created paused. -/
def MemoryPlane.pausableKinds (p : MemoryPlane) : List GroupKind :=
  Category.pausable.flatMap fun c => kindsOf (p.resolve c)

/-- Whether an import lifts the pause of the objects of a kind: some registered mapping of the kind
has one of the categories to be unpaused. -/
def MemoryPlane.isUnpaused (o : ImportOptions) (p : MemoryPlane) (k : GroupKind) : Bool :=
  (unpausedCategories o).any fun c => (p.resolve c).any (·.groupKind = k)

/-- The manifests in the order in which they are brought to a plane. Those that come after the reset
are marked. -/
def ExportedState.plan (s : ExportedState) : List (Manifest × Bool) :=
  s.baseManifests.map (·, false) ++ s.laterManifests.map (·, true)

/-- A manifest as it is brought: after the reset, objects of some kinds are paused. -/
def asBrought (kinds : List GroupKind) (task : Manifest × Bool) : Resource :=
  if task.2 then pausedIn kinds task.1.resource else task.1.resource

theorem sameNames_asBrought (kinds : List GroupKind) (task : Manifest × Bool) :
    Resource.SameNames task.1.resource (asBrought kinds task) := by
  rw [asBrought, pausedIn]
  split
  · split
    · exact Resource.sameNames_pause _
    · exact ⟨rfl, rfl⟩
  · exact ⟨rfl, rfl⟩

namespace MemoryPlane

/-- A manifest as it is submitted. -/
def submission (p : MemoryPlane) (task : Manifest × Bool) : Resource :=
  (asBrought p.pausableKinds task).withoutServerFields

/-- The object in a slot as it is before its pause is lifted: the one that is there, or the one that
the first manifest for the slot makes. -/
def origin (s : ExportedState) (p : MemoryPlane) (x : Slot) : Option Resource :=
  (p.get? x).or ((s.plan.find? (·.1.resource.slot = x)).map fun task =>
    p.stored x.kind (p.submission task))

/-- The object in a slot after an import. -/
def outcome (s : ExportedState) (o : ImportOptions) (p : MemoryPlane) (x : Slot) :
    Option Resource :=
  (p.origin s x).map fun r => if p.isUnpaused o x.kind then r.unpause else r

/-- A plane on the way from `p` to the outcome of an import. -/
structure Underway (s : ExportedState) (o : ImportOptions) (p q : MemoryPlane) : Prop where
  wellKept : q.WellKept
  service : SameService p q
  kept : ∀ x, (p.get? x).isSome → (q.get? x).isSome
  objects : ∀ x r, q.get? x = some r → ∃ r₀, p.origin s x = some r₀ ∧
    (r = r₀ ∨ p.isUnpaused o x.kind = true ∧ r = r₀.unpause)

variable {s : ExportedState} {o : ImportOptions} {p : MemoryPlane}

/-! ### What is submitted -/

/-- All that is submitted, in its order. -/
def submitted (s : ExportedState) (p : MemoryPlane) : List Resource := s.plan.map p.submission

theorem submitted_eq (s : ExportedState) (p : MemoryPlane) :
    p.submitted s = (s.baseManifests.map fun m => m.resource.withoutServerFields)
      ++ s.laterManifests.map fun m =>
        (pausedIn p.pausableKinds m.resource).withoutServerFields := by
  simp [submitted, ExportedState.plan, submission, asBrought, Function.comp_def]

theorem slot_submission (p : MemoryPlane) (task : Manifest × Bool) :
    (p.submission task).slot = task.1.resource.slot := by
  have hnames := (sameNames_asBrought p.pausableKinds task).trans
    (Resource.sameNames_withoutServerFields _)
  rw [submission, Resource.slot, Resource.slot, hnames.groupKind, hnames.key]

/-- The object in a slot before its pause is lifted, by what is submitted. -/
theorem origin_eq (s : ExportedState) (p : MemoryPlane) (x : Slot) :
    p.origin s x = (p.get? x).or (((p.submitted s).find? (·.slot = x)).map (p.stored x.kind)) := by
  have hslot : ((fun r : Resource => decide (r.slot = x)) ∘ p.submission)
      = fun task => decide (task.1.resource.slot = x) := by
    funext task
    simp [slot_submission]
  rw [origin, submitted, List.find?_map, hslot, Option.map_map]
  rfl

/-! ### On the way -/

theorem Underway.refl (hp : p.WellKept) : Underway s o p p := by
  refine ⟨hp, .refl p, fun _ h => h, fun x r hx => ⟨r, ?_, .inl rfl⟩⟩
  rw [origin, hx, Option.some_or]

theorem underway_stable : Stable (Underway s o p) := by
  intro q q' h hservice hobjects
  refine ⟨h.wellKept.congr hobjects, h.service.trans hservice, fun x hx => ?_, fun x r hx => ?_⟩
  · rw [get?_congr hobjects]
    exact h.kept x hx
  · rw [get?_congr hobjects] at hx
    exact h.objects x r hx

/-- An object may be put into its slot, as it is first or as it will be. -/
theorem Underway.put {q q' : MemoryPlane} {x : Slot} {r r₀ : Resource} (h : Underway s o p q)
    (hservice : SameService q q') (hobjects : q'.objects = Table.put x r q.objects)
    (hkey : r.key = x.key) (horigin : p.origin s x = some r₀)
    (hr : r = r₀ ∨ p.isUnpaused o x.kind = true ∧ r = r₀.unpause) : Underway s o p q' := by
  refine ⟨h.wellKept.put hkey hobjects, h.service.trans hservice, fun y hy => ?_, fun y r' hy => ?_⟩
  · rw [get?_of_put hobjects]
    split
    · rfl
    · exact h.kept y hy
  · rw [get?_of_put hobjects] at hy
    split at hy
    · next hyx =>
      cases hy
      rw [hyx]
      exact ⟨r₀, horigin, hr⟩
    · exact h.objects y r' hy

/-! ### Bringing manifests -/

/-- The manifests of a list have been brought to the plane. -/
def Brought (s : ExportedState) (o : ImportOptions) (p : MemoryPlane) (done : List Resource)
    (q : MemoryPlane) : Prop :=
  Underway s o p q ∧ ∀ r ∈ done, (q.get? r.slot).isSome

theorem brought_stable {done : List Resource} : Stable (Brought s o p done) := by
  intro q q' h hservice hobjects
  refine ⟨underway_stable q q' h.1 hservice hobjects, fun r hr => ?_⟩
  rw [get?_congr hobjects]
  exact h.2 r hr

theorem stored_congr {q : MemoryPlane} (h : SameService p q) (k : GroupKind) (r : Resource) :
    q.stored k r = p.stored k r := by
  rw [stored, stored, h.readyOnCreate]

/-- A slot that is free when its manifest's turn has come is free for the first time. -/
theorem Brought.origin_of_free {done rest : List Resource} {q : MemoryPlane} {r : Resource}
    (h : Brought s o p done q) (hplan : p.submitted s = done ++ r :: rest)
    (hfree : q.get? r.slot = none) : p.origin s r.slot = some (p.stored r.groupKind r) := by
  -- neither was there an object at first, nor has an earlier manifest made one
  have hp : p.get? r.slot = none := by
    rw [Option.eq_none_iff_forall_ne_some]
    intro r' hr'
    have := h.1.kept r.slot (by simp [hr'])
    simp [hfree] at this
  have hdone : done.find? (·.slot = r.slot) = none := by
    rw [List.find?_eq_none]
    intro r' hr' heq
    have := h.2 r' hr'
    rw [of_decide_eq_true heq, hfree] at this
    cases this
  rw [origin_eq, hp, Option.none_or, hplan, List.find?_append, hdone, Option.none_or,
    List.find?_cons_of_pos (by simp)]
  rfl

/-- One manifest is brought to the plane. -/
theorem carries_applying {done rest : List Resource} {r : Resource}
    (hplan : p.submitted s = done ++ r.withoutServerFields :: rest) :
    Carries Takes (Underway s o p) (Brought s o p done) (applying r)
      (Brought s o p (done ++ [r.withoutServerFields])) := by
  refine carries_iSup fun mapping => ?_
  refine Carries.mul (I := fun q => Brought s o p done q ∧ mapping.groupKind = r.groupKind) ?_ ?_
  · refine carries_quiet trivial (fun q hq => hq.1) brought_stable ?_
    rintro q a q' - rfl htakes
    exact htakes.mapped
  refine carries_and fun hmapping => ?_
  have hslot : slotFor mapping r.withoutServerFields = r.withoutServerFields.slot := by
    rw [slotFor, Resource.slot, hmapping, r.sameNames_withoutServerFields.groupKind]
  -- whether or not it takes effect, the creation does no harm
  have htaken : ∀ q a q', Brought s o p done q →
      q.Takes ⟨.create mapping r.withoutServerFields, a⟩ q' → Underway s o p q' := by
    intro q a q' hq htakes
    obtain ⟨hservice, hchanges⟩ := htakes.changes
    cases hchanges with
    | nothing h => exact underway_stable q q' hq.1 hservice h
    | created hfree h =>
      rw [hslot] at hfree h
      have hkind : mapping.groupKind = r.withoutServerFields.groupKind := congrArg Slot.kind hslot
      have horigin := hq.origin_of_free hplan hfree
      refine hq.1.put hservice h (q.sameNames_stored _ _).key horigin (.inl ?_)
      rw [hkind, stored_congr hq.1.service]
  refine carries_answered (fun q hq => hq.1) htaken fun q a q' hq ha htakes => ?_
  refine ⟨htaken q _ q' hq htakes, fun r' hr' => ?_⟩
  rcases List.mem_append.mp hr' with hr' | hr'
  · exact htakes.kept (hq.2 r' hr')
  · obtain rfl := List.mem_singleton.mp hr'
    rw [← hslot]
    exact htakes.settled ha

/-- Some manifests are brought to the plane, each as `f` makes it. -/
theorem carries_applying_all {ms : List Manifest} (f : Resource → Resource)
    (done rest : List Resource)
    (hplan : p.submitted s = done ++ ms.map (fun m => (f m.resource).withoutServerFields) ++ rest) :
    Carries Takes (Underway s o p) (Brought s o p done)
      (ms.map fun m => applying (f m.resource)).prod
      (Brought s o p (done ++ ms.map fun m => (f m.resource).withoutServerFields)) := by
  have hloop := carries_prod (R := Takes) (D := Underway s o p) (l := ms)
    (f := fun m => applying (f m.resource))
    (fun first => Brought s o p (done ++ first.map fun m => (f m.resource).withoutServerFields))
    (fun _ q hq => hq.1) ?_
  · simpa using hloop
  · rintro first m others rfl
    have hnext : p.submitted s = (done ++ first.map fun m => (f m.resource).withoutServerFields)
        ++ (f m.resource).withoutServerFields
          :: (others.map (fun m => (f m.resource).withoutServerFields) ++ rest) := by
      simp [hplan]
    simpa using carries_applying (o := o) hnext

end MemoryPlane

end PlaneRestore
