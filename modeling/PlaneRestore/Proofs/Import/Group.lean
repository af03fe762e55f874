import PlaneRestore.Proofs.Import.Words
import PlaneRestore.Proofs.Trace.Speech
/-!
What is said to bring groups of manifests to the control plane.

* `Work.speaks_answered` is the rule for a call whose error fails the work.
* `Work.Brings` says what is said for a list of manifests, whatever is known about the kinds that
  are created paused; `Brings.mem_of_asIs` and `Brings.mem_bringingLater` are the two ways in which
  groups are brought.
* `Work.speaks_importGroups`: the groups are brought one after another, and all of a group before
  anything of the next.
-/

namespace PlaneRestore

open Words

namespace Work

variable {s : ExportedState} {m : Memory}

/-! ### Answers that fail the work -/

theorem orClient_eq {α : Type} (a : Except ClientError α) :
    (orClient a : Work α) = orThrow (a.mapError .client) := by
  cases a <;> rfl

theorem orApply_eq {α : Type} (r : Resource) (a : Except ClientError α) :
    (orApply r a : Work α) = orThrow (a.mapError (.apply r.display)) := by
  cases a <;> rfl

/-- A call is made, and its answer or error is read. -/
theorem speaks_answered {α : Type} (c : Call) (read : c.Answer → Except ClientError α)
    (wrap : ClientError → ImportError) (a₀ : c.Answer) {b₀ : α} (h₀ : read a₀ = .ok b₀) :
    Speaks s (call c >>= fun a => orThrow ((read a).mapError wrap)) m fun b m' w =>
      m' = m ∧ w ∈ answered c fun a => read a = .ok b := by
  refine (speaks_request _ a₀ (mapError_eq_ok_iff.mpr h₀)).mono fun b m' w hw => ?_
  obtain ⟨hm, a, ha, rfl⟩ := hw
  exact ⟨hm, a, mapError_eq_ok_iff.mp ha, rfl⟩

theorem orThrow_wrapping {α : Type} (f : ImportError → ImportError) (x : Except ImportError α) :
    (orThrow x).wrapping f = orThrow (x.mapError f) := by
  cases x <;> rfl

theorem speaks_orThrow_bind {α β : Type} {x : Except ImportError α} {f : α → Work β}
    {post : β → Memory → List LoggedCall → Prop} (hpossible : ∃ b m' w, post b m' w)
    (hf : ∀ a, x = .ok a → Speaks s (f a) m post) : Speaks s (orThrow x >>= f) m post := by
  cases x with
  | error e => exact .throw hpossible
  | ok a => exact hf a rfl

/-! ### One manifest -/

theorem speaks_apply (r : Resource) :
    Speaks s (apply r) m fun _ m' w => m' = m ∧ w ∈ applying r := by
  simp only [apply, orApply_eq]
  rw [← bind_assoc]
  refine (speaks_answered (.mappingForVersion r.groupKind r.version) id _
    (.ok default) rfl).bind fun mapping m' u hu => ?_
  obtain ⟨rfl, hu⟩ := hu
  refine (speaks_answered (.create mapping r.withoutServerFields) Applied.ofAnswer _
    (.ok default) rfl).mono fun applied m' v hv => ?_
  obtain ⟨rfl, b, hb, rfl⟩ := hv
  exact ⟨rfl, Language.mem_iSup.mpr ⟨mapping, Language.append_mem_mul hu ⟨b, ⟨applied, hb⟩, rfl⟩⟩⟩

/-! ### Groups -/

/-- What is said to find out which kinds are created paused. -/
def finding : Option (List GroupKind) → List GroupKind → Language LoggedCall
  | some known, kinds => ⨆ (_ : kinds = known), 1
  | none, kinds => resolvingPausable kinds

theorem speaks_kindsOf (c : Category) :
    Speaks s (kindsOf c) m fun kinds m' w => m' = m ∧
      w ∈ ⨆ (mappings) (_ : kinds = Words.kindsOf mappings), resolving c mappings := by
  simp only [kindsOf, orClient_eq]
  refine Speaks.wrapping ?_ _
  rw [← bind_assoc]
  refine (speaks_answered (.resolve c) id _ (.ok []) rfl).bind fun mappings m' u hu => ?_
  obtain ⟨rfl, hu⟩ := hu
  refine .pure ⟨rfl, ?_⟩
  rw [List.append_nil]
  exact Language.mem_iSup.mpr ⟨mappings, Language.mem_iSup.mpr ⟨rfl, hu⟩⟩

theorem speaks_pausableKinds :
    Speaks s pausableKinds m fun kinds m' w =>
      m' = { m with pausable := some kinds } ∧ w ∈ finding m.pausable kinds := by
  refine Speaks.get_bind ?_
  cases hknown : m.pausable with
  | some kinds =>
    refine .pure ⟨?_, Language.mem_iSup.mpr ⟨rfl, Language.nil_mem_one⟩⟩
    rw [← hknown]
  | none =>
    refine (Speaks.mapM fun c _ => speaks_kindsOf c).bind fun found m' u hu => ?_
    obtain ⟨rfl, hlen, hu⟩ := hu
    have hkept : Speaks s (modify fun m => { m with pausable := some found.flatten } : Work Unit)
        m' fun _ m'' w => m'' = { m' with pausable := some found.flatten } ∧ w = [] :=
      Speaks.pure (m := { m' with pausable := some found.flatten }) ⟨rfl, rfl⟩
    refine hkept.bind fun _ m'' w hw => ?_
    obtain ⟨rfl, rfl⟩ := hw
    refine .pure ⟨rfl, ?_⟩
    match found, hlen, hu with
    | [claims, composites, managed], _, hu =>
      -- each of the three categories has been resolved, and the product has three factors
      simp only [Category.pausable, List.zipWith_cons_cons, List.zipWith_nil_right, List.prod_cons,
        List.prod_nil, mul_one, Language.mem_mul, Language.mem_iSup] at hu
      obtain ⟨u₁, ⟨ms₁, rfl, h₁⟩, -, ⟨u₂, ⟨ms₂, rfl, h₂⟩, u₃, ⟨ms₃, rfl, h₃⟩, rfl⟩, rfl⟩ := hu
      simp only [List.append_nil, finding, resolvingPausable, Language.mem_iSup]
      refine ⟨ms₁, ms₂, ms₃, by simp, ?_⟩
      rw [mul_assoc]
      exact Language.append_mem_mul h₁ (Language.append_mem_mul h₂ h₃)

/-- Manifests are brought to the control plane one after another. If they may have to be paused, the
kinds that are created paused are found out for the first of them, unless they are known. -/
inductive Brings : Bool → Option (List GroupKind) → List Manifest → Option (List GroupKind) →
    List LoggedCall → Prop
  | nil (pause : Bool) (known : Option (List GroupKind)) : Brings pause known [] known []
  | asIs {known known' : Option (List GroupKind)} {man : Manifest} {ms : List Manifest}
      {u v : List LoggedCall} (hu : u ∈ applying man.resource)
      (rest : Brings false known ms known' v) : Brings false known (man :: ms) known' (u ++ v)
  | paused {known known' : Option (List GroupKind)} {kinds : List GroupKind} {man : Manifest}
      {ms : List Manifest} {t u v : List LoggedCall} (ht : t ∈ finding known kinds)
      (hu : u ∈ applying (pausedIn kinds man.resource))
      (rest : Brings true (some kinds) ms known' v) :
      Brings true known (man :: ms) known' (t ++ u ++ v)

namespace Brings

variable {pause : Bool} {known known' known'' : Option (List GroupKind)} {ms ms' : List Manifest}
  {u v w : List LoggedCall}

theorem append (h : Brings pause known ms known' u) (h' : Brings pause known' ms' known'' v) :
    Brings pause known (ms ++ ms') known'' (u ++ v) := by
  induction h with
  | nil => exact h'
  | asIs hu _ ih =>
    rw [List.append_assoc]
    exact .asIs hu (ih h')
  | paused ht hu _ ih =>
    rw [List.append_assoc]
    exact .paused ht hu (ih h')

theorem possible (pause : Bool) (known : Option (List GroupKind)) (ms : List Manifest) :
    ∃ known' w, Brings pause known ms known' w := by
  induction ms generalizing known with
  | nil => exact ⟨known, [], .nil pause known⟩
  | cons man ms ih =>
    cases pause with
    | false =>
      obtain ⟨-, -, u, -, hu⟩ := (speaks_apply (s := .empty) (m := .empty) man.resource).possible
      obtain ⟨known', v, hv⟩ := ih known
      exact ⟨known', _, .asIs hu hv⟩
    | true =>
      obtain ⟨kinds, -, t, -, ht⟩ :=
        (speaks_pausableKinds (s := .empty) (m := ⟨none, known⟩)).possible
      obtain ⟨-, -, u, -, hu⟩ :=
        (speaks_apply (s := .empty) (m := .empty) (pausedIn kinds man.resource)).possible
      obtain ⟨known', v, hv⟩ := ih (some kinds)
      exact ⟨known', _, .paused ht hu hv⟩

theorem mem_of_asIs (h : Brings false known ms known' w) :
    known' = known ∧ w ∈ (ms.map fun man => applying man.resource).prod := by
  generalize hp : false = pause at h
  induction h with
  | nil => exact ⟨rfl, Language.nil_mem_one⟩
  | asIs hu _ ih =>
    obtain ⟨rfl, hv⟩ := ih rfl
    exact ⟨rfl, by simpa using Language.append_mem_mul hu hv⟩
  | paused => cases hp

theorem mem_of_known {kinds : List GroupKind} (h : Brings true (some kinds) ms known' w) :
    known' = some kinds ∧ w ∈ (ms.map fun man => applying (pausedIn kinds man.resource)).prod := by
  generalize hp : true = pause at h
  generalize hk : some kinds = known at h
  induction h with
  | nil =>
    subst hk
    exact ⟨rfl, Language.nil_mem_one⟩
  | asIs => cases hp
  | paused ht hu _ ih =>
    subst hk
    -- nothing is said about kinds that are known
    obtain ⟨rfl, rfl⟩ := Language.mem_iSup.mp ht
    obtain ⟨rfl, hv⟩ := ih rfl rfl
    exact ⟨rfl, by simpa using Language.append_mem_mul hu hv⟩

/-- The kinds are found out before the first manifest, if there is one. -/
theorem mem_bringingLater (h : Brings true none ms known' w) : w ∈ bringingLater ms := by
  cases h with
  | nil => exact Language.nil_mem_one
  | @paused _ _ kinds man ms t u v ht hu rest =>
    obtain ⟨-, hv⟩ := rest.mem_of_known
    refine Language.mem_iSup.mpr ⟨kinds, ?_⟩
    rw [List.append_assoc, List.map_cons, List.prod_cons]
    exact Language.append_mem_mul ht (Language.append_mem_mul hu hv)

end Brings

theorem speaks_importManifest (pause : Bool) (man : Manifest) :
    Speaks s (importManifest pause man) m fun _ m' w =>
      Brings pause m.pausable [man] m'.pausable w := by
  cases pause with
  -- a group that is not paused resolves nothing
  | false =>
    refine Speaks.bind_silent (P := fun r m' => r = man.resource ∧ m' = m)
      (.pure ⟨rfl, rfl, rfl⟩) ?_
    rintro _ _ ⟨rfl, rfl⟩
    refine ((speaks_apply man.resource).wrapping _).mono fun _ m' w hw => ?_
    obtain ⟨rfl, hw⟩ := hw
    simpa using Brings.asIs hw (.nil false m'.pausable)
  -- the first manifest finds the kinds out, and the memory keeps them for the others
  | true =>
    refine Speaks.bind (P := fun r m' w => ∃ kinds, r = pausedIn kinds man.resource ∧
      m' = { m with pausable := some kinds } ∧ w ∈ finding m.pausable kinds) ?_ ?_
    · refine speaks_pausableKinds.bind fun kinds m' w hw => ?_
      refine .pure ⟨kinds, rfl, ?_⟩
      rwa [List.append_nil]
    · rintro _ _ t ⟨kinds, rfl, rfl, ht⟩
      refine ((speaks_apply _).wrapping _).mono fun _ m' u hu => ?_
      obtain ⟨rfl, hu⟩ := hu
      simpa using Brings.paused ht hu (.nil true (some kinds))

theorem speaks_importGroup (hs : s.WellFormed) {group : String} (hgroup : Path.IsEntryName group)
    (pause : Bool) :
    Speaks s (importGroup s group pause) m fun count m' w =>
      count = (s.manifestsIn group).length ∧
        Brings pause m.pausable (s.manifestsIn group) m'.pausable w := by
  obtain ⟨known, w, hw⟩ := Brings.possible pause m.pausable (s.manifestsIn group)
  refine Speaks.wrapping (speaks_orThrow_bind ⟨_, { m with pausable := known }, w, rfl, hw⟩ ?_) _
  intro manifests hread
  rw [hs.manifestsIn_of_readGroup hgroup hread]
  -- the loop is about every memory, as each manifest may leave another one
  have hloop : ∀ (ms : List Manifest) (m : Memory),
      Speaks s (ms.forM fun man => discard (importManifest pause man)) m fun _ m' w =>
        Brings pause m.pausable ms m'.pausable w := by
    intro ms
    induction ms with
    | nil => exact fun m => .pure (.nil pause m.pausable)
    | cons man ms ih =>
      intro m
      refine Speaks.bind (P := fun _ m' w => Brings pause m.pausable [man] m'.pausable w)
        ?_ fun _ m' u hu => ?_
      · refine (speaks_importManifest pause man).bind fun _ m' w hw => .pure ?_
        rwa [List.append_nil]
      · exact (ih m').mono fun _ m'' v hv => hu.append hv
  refine (hloop manifests m).bind fun _ m' w hw => .pure ⟨rfl, ?_⟩
  rwa [List.append_nil]

theorem speaks_importGroups (hs : s.WellFormed) {groups : List String}
    (hgroups : ∀ g ∈ groups, Path.IsEntryName g) (pause : Bool) :
    Speaks s (importGroups s groups pause) m fun counts m' w =>
      counts = groups.map (fun g => (g, (s.manifestsIn g).length)) ∧
        Brings pause m.pausable (groups.flatMap s.manifestsIn) m'.pausable w := by
  -- the news count all groups, so the induction is on those that are left, with any news
  have hloop : ∀ (news : Nat → String → String) (gs : List String) (i : Nat) (m : Memory),
      (∀ g ∈ gs, Path.IsEntryName g) →
      Speaks s ((gs.zipIdx i).mapM fun entry => do
          let count ← importGroup s entry.1 pause
          report (.update (news entry.2 entry.1))
          return (entry.1, count)) m fun counts m' w =>
        counts = gs.map (fun g => (g, (s.manifestsIn g).length)) ∧
          Brings pause m.pausable (gs.flatMap s.manifestsIn) m'.pausable w := by
    intro news gs
    induction gs with
    | nil => exact fun i m _ => .pure ⟨rfl, .nil pause m.pausable⟩
    | cons g gs ih =>
      intro i m hnames
      rw [List.zipIdx_cons, List.mapM_cons]
      refine Speaks.bind (P := fun c m' w => c = (g, (s.manifestsIn g).length) ∧
        Brings pause m.pausable (s.manifestsIn g) m'.pausable w) ?_ ?_
      · refine (speaks_importGroup hs (hnames g List.mem_cons_self) pause).bind ?_
        rintro _ m' u ⟨rfl, hu⟩
        refine speaks_report.bind_silent fun _ m'' hm => ?_
        cases hm
        refine .pure ⟨rfl, ?_⟩
        rwa [List.append_nil]
      · rintro _ m' u ⟨rfl, hu⟩
        refine (ih (i + 1) m' fun g' hg => hnames g' (List.mem_cons_of_mem g hg)).bind ?_
        rintro _ m'' v ⟨rfl, hv⟩
        refine .pure ⟨rfl, ?_⟩
        rw [List.append_nil, List.flatMap_cons]
        exact hu.append hv
  exact hloop (fun i group => "(" ++ toString i ++ " / " ++ toString groups.length
    ++ ") Importing " ++ group ++ "...") groups 1 m hgroups

end Work

end PlaneRestore
