import PlaneRestore.Proofs.Import.Wait
/-!
What each phase of an import says to the control plane.

* `Work.speaks_importState` puts the phases together: what an import says is the start of a word of
  `importing`, and a whole word if it succeeds.
* `ImportRun s o ts result`: an import of the exported state `s` was led for the turns `ts`.
  `ImportRun.starts` and `ImportRun.whole` say the same of such a run.
-/

namespace PlaneRestore

open Words

namespace Work

variable {s : ExportedState} {m : Memory}

/-! ### The groups -/

theorem speaks_importBase (hs : s.WellFormed) :
    Speaks s (importBase s) m fun counts m' w => m'.pausable = m.pausable ∧
      counts = baseGroups.map (fun g => (g, (s.manifestsIn g).length)) ∧
        w ∈ (s.baseManifests.map fun man => applying man.resource).prod := by
  refine Speaks.step (Speaks.wrapping ?_ _) _ _ _
  refine (speaks_importGroups hs (fun _ => ExportedState.isEntryName_of_mem_baseGroups)
    false).mono fun counts m' w hw => ?_
  obtain ⟨hm, hmem⟩ := hw.2.mem_of_asIs
  exact ⟨hm, hw.1, hmem⟩

theorem speaks_importRemaining (hs : s.WellFormed) (hm : m.pausable = none) :
    Speaks s (importRemaining s) m fun counts _ w =>
      counts = s.laterGroups.map (fun g => (g, (s.manifestsIn g).length)) ∧
        w ∈ bringingLater s.laterManifests := by
  have hpossible : ∃ counts, ∃ (_ : Memory) (w : List LoggedCall),
      counts = s.laterGroups.map (fun g => (g, (s.manifestsIn g).length)) ∧
        w ∈ bringingLater s.laterManifests := by
    obtain ⟨known, w, hw⟩ := Brings.possible true none s.laterManifests
    exact ⟨_, m, w, rfl, hw.mem_bringingLater⟩
  refine Speaks.step ?_ _ _ _
  -- reading the names of the groups makes no call, so its failures say nothing
  rw [inPhase, orThrow_wrapping]
  refine speaks_orThrow_bind hpossible fun items hitems => Speaks.wrapping ?_ _
  refine speaks_orThrow_bind hpossible fun groups hgroups => ?_
  have hlater := ExportedState.laterGroups_of_remainingGroups (mapError_eq_ok_iff.mp hitems) hgroups
  subst hlater
  refine (speaks_importGroups hs (fun _ => hs.isEntryName_of_mem_laterGroups) true).mono ?_
  rintro counts m' w ⟨hcounts, hw⟩
  rw [hm] at hw
  exact ⟨hcounts, hw.mem_bringingLater⟩

/-! ### Lifting the pause -/

theorem speaks_replace (mapping : KindMapping) (r : Resource) :
    Speaks s (replace mapping r) m fun _ m' w =>
      m' = m ∧ w ∈ answered (.update mapping r) fun a => ∃ r', a = .ok r' := by
  have hdiscard : ∀ x : Work Resource, discard x = x >>= fun _ => pure () := fun _ => rfl
  simp only [replace, orClient_eq, hdiscard]
  rw [← bind_assoc]
  refine (speaks_answered (.update mapping r) id _ (.ok default) rfl).bind fun r' m' w hw => ?_
  obtain ⟨rfl, a, ha, rfl⟩ := hw
  exact .pure ⟨rfl, a, ⟨r', ha⟩, rfl⟩

theorem speaks_replaceAll (mapping : KindMapping) (rs : List Resource) :
    Speaks s (replaceAll (fun r => pure r.unpause) mapping rs ()) m fun _ m' w =>
      m' = m ∧ w ∈ (rs.map fun r =>
        answered (.update mapping r.unpause) fun a => ∃ r', a = .ok r').prod := by
  induction rs with
  | nil => exact .pure ⟨rfl, Language.nil_mem_one⟩
  | cons r rs ih =>
    refine (speaks_replace mapping r.unpause).bind fun _ m' u hu => ?_
    obtain ⟨rfl, hu⟩ := hu
    refine ih.mono fun _ m'' v hv => ?_
    obtain ⟨rfl, hv⟩ := hv
    refine ⟨rfl, ?_⟩
    rw [List.map_cons, List.prod_cons]
    exact Language.append_mem_mul hu hv

theorem speaks_modifyKinds (mappings : List KindMapping) :
    Speaks s (modifyKinds (fun r => pure r.unpause) mappings ()) m fun n m' w =>
      m' = m ∧ ∃ ns : List Nat, ns.length = mappings.length ∧ ns.sum = n ∧
        w ∈ (List.zipWith unpausingKind mappings ns).prod := by
  induction mappings with
  | nil => exact .pure ⟨rfl, [], rfl, rfl, Language.nil_mem_one⟩
  | cons mapping mappings ih =>
    simp only [modifyKinds, orClient_eq]
    rw [← bind_assoc]
    refine (speaks_answered (.list mapping) id _ (.ok []) rfl).bind fun rs m' u hu => ?_
    obtain ⟨rfl, hu⟩ := hu
    refine (speaks_replaceAll mapping rs).bind fun _ m'' v hv => ?_
    obtain ⟨rfl, hv⟩ := hv
    refine ih.bind fun n m' w hw => .pure ?_
    obtain ⟨rfl, ns, hlen, rfl, hw⟩ := hw
    -- one kind is listed, and then each object of the list is replaced
    have hkind : u ++ v ∈ unpausingKind mapping rs.length :=
      Language.mem_iSup.mpr ⟨rs, Language.mem_iSup.mpr ⟨rfl, Language.append_mem_mul hu hv⟩⟩
    refine ⟨rfl, rs.length :: ns, by simp [hlen], by simp, ?_⟩
    rw [List.append_nil, List.zipWith_cons_cons, List.prod_cons, ← List.append_assoc]
    exact Language.append_mem_mul hkind hw

theorem speaks_modifyAll (c : Category) :
    Speaks s (modifyAll c Resource.unpause) m fun n m' w => m' = m ∧ w ∈ unpausing c n := by
  simp only [modifyAll, modifyAllBy, orClient_eq]
  refine Speaks.wrapping ?_ _
  rw [← bind_assoc]
  refine (speaks_answered (.resolve c) id _ (.ok []) rfl).bind fun mappings m' u hu => ?_
  obtain ⟨rfl, hu⟩ := hu
  refine (speaks_modifyKinds mappings).mono fun n m'' v hv => ?_
  obtain ⟨rfl, ns, hlen, hsum, hv⟩ := hv
  refine ⟨rfl, ?_⟩
  simp only [unpausing, Language.mem_iSup]
  exact ⟨mappings, ns, ⟨hlen, by rw [← hsum, List.sum_eq_foldl]⟩, Language.append_mem_mul hu hv⟩

theorem speaks_unpauseAll (c : Category) (shown : String) :
    Speaks s (unpauseAll c shown) m fun counted m' w =>
      m' = m ∧ ∃ n, counted = (c.name, n) ∧ w ∈ unpausing c n := by
  refine ((speaks_modifyAll c).wrapping _).bind fun n m' w hw => ?_
  obtain ⟨rfl, hw⟩ := hw
  refine .pure ⟨rfl, n, rfl, ?_⟩
  rwa [List.append_nil]

/-! ### The whole import -/

theorem speaks_waitForDefinitions (o : ImportOptions) :
    Speaks s (waitForDefinitions o) m fun _ m' w => m' = m ∧
      w ∈ waiting (⟨"apiextensions.example.io", "CompositeResourceDefinition"⟩, ["Established"]) :=
  ((speaks_waitFor _ _ _).wrapping _).step _ _ _

theorem gates_prod (o : ImportOptions) :
    ((gates o).map waiting).prod =
      waiting (⟨"apiextensions.example.io", "CompositeResourceDefinition"⟩, ["Established"])
        * ((packageKinds.map fun kind =>
            waiting (⟨"pkg.example.io", kind⟩, [installed, healthy])).prod
          * if o.legacyRevisionWait then
              (revisionKinds.map fun kind => waiting (⟨"pkg.example.io", kind⟩, [healthy])).prod
            else 1) := by
  have hkinds : revisionKinds =
      ["ProviderRevision", "FunctionRevision", "ConfigurationRevision"] := by decide
  rw [hkinds, gates]
  split <;> simp [packageKinds, installed, healthy, mul_assoc]

theorem speaks_waitForPackages (o : ImportOptions) :
    Speaks s (waitForPackages o) m fun _ m' w => m' = m ∧
      w ∈ (packageKinds.map fun kind =>
          waiting (⟨"pkg.example.io", kind⟩, [installed, healthy])).prod
        * if o.legacyRevisionWait then
            (revisionKinds.map fun kind => waiting (⟨"pkg.example.io", kind⟩, [healthy])).prod
          else 1 := by
  refine Speaks.step ?_ _ _ _
  refine (Speaks.forM fun kind _ => (speaks_waitFor _ _ _).wrapping _).bind fun _ m' u hu => ?_
  obtain ⟨rfl, hu⟩ := hu
  split
  · refine (Speaks.forM fun kind _ => (speaks_waitFor _ _ _).wrapping _).mono fun _ m'' v hv => ?_
    exact ⟨hv.1, Language.append_mem_mul hu hv.2⟩
  · exact .pure ⟨rfl, Language.append_mem_mul hu Language.nil_mem_one⟩

theorem speaks_heldState (archive : String) (hm : ∀ s', m.state = some s' → s' = s) :
    Speaks s (heldState archive) m fun s' _ w => w = [] ∧ s' = s := by
  refine Speaks.get_bind ?_
  cases hstate : m.state with
  | some s' => exact .pure ⟨rfl, hm s' hstate⟩
  | none =>
    refine speaks_extract.bind_silent ?_
    rintro a m' ⟨rfl, ha⟩
    refine speaks_orThrow_bind ⟨s, m', [], rfl, rfl⟩ fun s' hs' => ?_
    exact Speaks.pure (m := { m' with state := some s' }) ⟨rfl, ha s' hs'⟩

theorem speaks_unpauseComposites :
    Speaks s unpauseComposites m fun unpaused _ w => ∃ n k,
      unpaused = [(Category.composite.name, n), (Category.claim.name, k)] ∧
        w ∈ unpausing .composite n * unpausing .claim k := by
  refine Speaks.step ?_ _ _ _
  refine (speaks_unpauseAll _ _).bind ?_
  rintro _ _ u ⟨-, n, rfl, hu⟩
  refine (speaks_unpauseAll _ _).bind ?_
  rintro _ _ v ⟨-, k, rfl, hv⟩
  refine .pure ⟨n, k, rfl, ?_⟩
  rw [List.append_nil]
  exact Language.append_mem_mul hu hv

theorem speaks_unpauseManaged (o : ImportOptions) :
    Speaks s (unpauseManaged o) m fun unpaused _ w => ∃ ns : List Nat,
      ns.length = (managedCategories o).length ∧
        unpaused = List.zipWith (fun c n => (c.name, n)) (managedCategories o) ns ∧
          w ∈ (List.zipWith unpausing (managedCategories o) ns).prod := by
  rw [unpauseManaged, managedCategories]
  split
  · refine Speaks.step ?_ _ _ _
    refine (speaks_unpauseAll _ _).bind ?_
    rintro _ _ u ⟨-, n, rfl, hu⟩
    refine .pure ⟨[n], rfl, rfl, ?_⟩
    simpa using hu
  · exact .pure ⟨[], rfl, rfl, Language.nil_mem_one⟩

end Work

/-- How many manifests there are in each of some groups. -/
def ExportedState.countsOf (s : ExportedState) (groups : List String) : List (String × Nat) :=
  groups.map fun g => (g, (s.manifestsIn g).length)

/-- The report of an import that has unpaused that many objects of each category. -/
def importReport (o : ImportOptions) (s : ExportedState) (counts : List Nat) : ImportReport :=
  ⟨Table.ofList (s.countsOf baseGroups), Table.ofList (s.countsOf s.laterGroups),
    Table.ofList (List.zipWith (fun c n => (c.name, n)) (unpausedCategories o) counts)⟩

/-- An import of `s` is led for some turns. The result is none if it is still going on, or if it was
broken off. -/
def ImportRun (s : ExportedState) (o : ImportOptions) (ts : Turns)
    (result : Option (Except ImportError ImportReport)) : Prop :=
  ∃ (m : Memory) (r : Option (Except ImportError ImportReport × Memory)),
    (∀ s', m.state = some s' → s' = s) ∧ Turns.Finds s ts ∧ (Work.importState o).Led m ts r ∧
      result = r.map (·.1)

theorem Work.speaks_importState {s : ExportedState} {m : Memory} (hs : s.WellFormed)
    (o : ImportOptions) (hm : ∀ s', m.state = some s' → s' = s) :
    Speaks s (importState o) m fun report _ w =>
      ∃ counts, report = importReport o s counts ∧ w ∈ importing o s counts := by
  refine Speaks.bind_silent (P := fun s' _ => s' = s) ?_ ?_
  · exact ((speaks_heldState _ hm).wrapping _).step _ _ _
  rintro _ m' rfl
  -- what an earlier import has found out about kinds is forgotten
  refine Speaks.bind_silent (P := fun _ m'' => m''.pausable = none)
    (Speaks.pure (m := { m' with pausable := none }) ⟨rfl, rfl⟩) fun _ m hm => ?_
  refine (speaks_importBase hs).bind ?_
  rintro _ m₁ w₁ ⟨hm₁, rfl, h₁⟩
  refine (speaks_waitForDefinitions o).bind ?_
  rintro _ m₂ w₂ ⟨rfl, h₂⟩
  refine (speaks_waitForPackages o).bind ?_
  rintro _ m₃ w₃ ⟨rfl, h₃⟩
  refine (speaks_call_through .reset ()).bind ?_
  rintro _ m₄ w₄ ⟨rfl, rfl⟩
  refine (speaks_importRemaining hs (hm₁.trans hm)).bind ?_
  rintro _ m₅ w₅ ⟨rfl, h₅⟩
  refine (speaks_unpauseComposites).bind ?_
  rintro _ m₆ w₆ ⟨n, k, rfl, h₆⟩
  refine (speaks_unpauseManaged o).bind ?_
  rintro _ m₇ w₇ ⟨ns, hlen, rfl, h₇⟩
  -- what the phases have said, put together, is a word of the language
  refine .pure ⟨n :: k :: ns, rfl, ?_⟩
  have hfinal : w₆ ++ w₇ ∈ finishing o (n :: k :: ns) := by
    refine Language.mem_iSup.mpr ⟨by simp [unpausedCategories, hlen], ?_⟩
    have := Language.append_mem_mul h₆ h₇
    simpa [unpausedCategories, mul_assoc] using this
  have hwait : w₂ ++ w₃ ∈ ((gates o).map waiting).prod := by
    rw [gates_prod]
    exact Language.append_mem_mul h₂ h₃
  have hreset : [⟨.reset, some ()⟩] ∈ answered .reset fun _ => True := ⟨(), trivial, rfl⟩
  have := Language.append_mem_mul (Language.append_mem_mul (Language.append_mem_mul
    (Language.append_mem_mul h₁ hwait) hreset) h₅) hfinal
  simpa [importing] using this

namespace ImportRun

variable {s : ExportedState} {o : ImportOptions} {ts : Turns}
  {result : Option (Except ImportError ImportReport)}

/-- The calls are those of the start of some import that succeeds. -/
theorem starts (h : ImportRun s o ts result) (hs : s.WellFormed) :
    ∃ counts, ∃ w ∈ importing o s counts, Starts (callLog ts) w := by
  obtain ⟨m, r, hm, hfinds, hled, -⟩ := h
  obtain ⟨⟨-, -, w, ⟨counts, -, hw⟩, hstarts⟩, -⟩ :=
    Work.speaks_importState hs o hm ts r hfinds hled
  exact ⟨counts, w, hw, hstarts⟩

/-- An import that succeeds makes all of its calls. -/
theorem whole {report : ImportReport} (h : ImportRun s o ts (some (.ok report)))
    (hs : s.WellFormed) :
    ∃ counts, report = importReport o s counts ∧ callLog ts ∈ importing o s counts := by
  obtain ⟨m, r, hm, hfinds, hled, hr⟩ := h
  obtain ⟨⟨-, m'⟩, rfl, rfl⟩ := Option.map_eq_some_iff.mp hr.symm
  exact (Work.speaks_importState hs o hm ts _ hfinds hled).2 report m' rfl

end ImportRun

end PlaneRestore
