import PlaneRestore.Proofs.Import.Careful
/-!
What the calls of an import create and replace, taken together.

* `accounted ms n` are the logs in which exactly the manifests `ms` are created, one after another,
  and `n` objects are replaced. `mul_le_accounted` and `prod_le_accounted` add this up.
* `importing_le_accounted`: of these are the logs of the imports that succeed. The manifests are all
  of those in the exported state, and the number is that of the objects counted in the end.
-/

namespace PlaneRestore

open Words
open scoped Computability

def Call.isUpdate : Call → Bool
  | .update _ _ => true
  | _ => false

def updates (log : List LoggedCall) : List LoggedCall := log.filter (·.call.isUpdate)

/-- The call creates the object of a manifest, which may have got the pause before, and has been
answered. -/
def Resource.IsSubmittedBy (manifest : Resource) (e : LoggedCall) : Prop :=
  ∃ mapping r a, (r = manifest ∨ r = manifest.pause) ∧
    e = ⟨.create mapping r.withoutServerFields, some a⟩

/-- The logs in which some manifests are created and some number of objects is replaced. -/
def accounted (ms : List Manifest) (n : Nat) : Language LoggedCall :=
  {w | List.Forall₂ (fun man e => man.resource.IsSubmittedBy e) ms (creations w) ∧
    (updates w).length = n}

variable {ms ms' : List Manifest} {n n' : Nat} {L M : Language LoggedCall}

/-! ### How accounts add up -/

theorem one_le_accounted : 1 ≤ accounted [] 0 := by
  intro w hw
  obtain rfl : w = [] := hw
  exact ⟨.nil, rfl⟩

/-- What is accounted for in two parts is accounted for in the whole. -/
theorem mul_le_accounted (hL : L ≤ accounted ms n) (hM : M ≤ accounted ms' n') :
    L * M ≤ accounted (ms ++ ms') (n + n') := by
  intro w hw
  obtain ⟨u, hu, v, hv, rfl⟩ := Language.mem_mul.mp hw
  obtain ⟨hcreated, hcount⟩ := hL hu
  obtain ⟨hcreated', hcount'⟩ := hM hv
  refine ⟨?_, ?_⟩
  · rw [creations, List.filter_append]
    exact List.rel_append hcreated hcreated'
  · rw [updates, List.filter_append, List.length_append, ← hcount, ← hcount']
    rfl

/-- The factors of a product account for `g` and `k` each. -/
theorem prod_le_accounted {α : Type} {l : List α} {f : α → Language LoggedCall}
    (g : α → List Manifest) (k : α → Nat) (h : ∀ a ∈ l, f a ≤ accounted (g a) (k a)) :
    (l.map f).prod ≤ accounted (l.flatMap g) (l.map k).sum := by
  induction l with
  | nil => exact one_le_accounted
  | cons a l ih =>
    rw [List.map_cons, List.prod_cons, List.flatMap_cons, List.map_cons, List.sum_cons]
    exact mul_le_accounted (h a List.mem_cons_self)
      (ih fun b hb => h b (List.mem_cons_of_mem a hb))

/-- The same for factors that create nothing. -/
theorem prod_le_accounted_nil {α : Type} {l : List α} {f : α → Language LoggedCall} (k : α → Nat)
    (h : ∀ a ∈ l, f a ≤ accounted [] (k a)) : (l.map f).prod ≤ accounted [] (l.map k).sum := by
  have hnone : (l.flatMap fun _ => []) = ([] : List Manifest) :=
    List.flatMap_eq_nil_iff.mpr fun _ _ => rfl
  rw [← hnone]
  exact prod_le_accounted _ k h

theorem zipWith_le_accounted {α : Type} {l : List α} {ns : List Nat}
    {f : α → Nat → Language LoggedCall} (hlen : ns.length = l.length)
    (h : ∀ a k, f a k ≤ accounted [] k) :
    (List.zipWith f l ns).prod ≤ accounted [] ns.sum := by
  have hprod := prod_le_accounted_nil (l := l.zip ns) (f := fun p => f p.1 p.2) (·.2)
    fun p _ => h p.1 p.2
  rw [List.map_snd_zip hlen.le] at hprod
  simpa [List.zip, List.map_zipWith] using hprod

/-- What creates and replaces nothing may come first. -/
theorem quiet_mul_le_accounted (hL : L ≤ accounted [] 0) (hM : M ≤ accounted ms n) :
    L * M ≤ accounted ms n := by
  simpa using mul_le_accounted hL hM

theorem kstar_le_accounted (h : L ≤ accounted [] 0) : L∗ ≤ accounted [] 0 := by
  -- the quiet logs hold the empty one, and one more round of `L` does not lead out of them
  have hround : L * accounted [] 0 ≤ accounted [] 0 := quiet_mul_le_accounted h le_rfl
  exact kstar_le_of_mul_le_right one_le_accounted hround

/-! ### The phases -/

/-- A call that neither creates nor replaces anything. -/
theorem answered_le_accounted {c : Call} {good : c.Answer → Prop} (hcreation : c.isCreation = false)
    (hupdate : c.isUpdate = false) : answered c good ≤ accounted [] 0 := by
  rintro w ⟨a, -, rfl⟩
  simp [accounted, creations, updates, hcreation, hupdate]

theorem applying_le_accounted {man : Manifest} {r : Resource}
    (h : r = man.resource ∨ r = man.resource.pause) : applying r ≤ accounted [man] 0 := by
  refine iSup_le fun mapping => ?_
  -- the kind is looked up before
  refine quiet_mul_le_accounted (answered_le_accounted rfl rfl) ?_
  rintro w ⟨a, -, rfl⟩
  exact ⟨.cons ⟨mapping, r, a, h, rfl⟩ .nil, rfl⟩

theorem waiting_le_accounted (gate : Gate) : waiting gate ≤ accounted [] 0 :=
  iSup_le fun _ => quiet_mul_le_accounted
    (quiet_mul_le_accounted (answered_le_accounted rfl rfl)
      (kstar_le_accounted (answered_le_accounted rfl rfl)))
    (answered_le_accounted rfl rfl)

theorem resolvingPausable_le_accounted (kinds : List GroupKind) :
    resolvingPausable kinds ≤ accounted [] 0 :=
  iSup_le fun _ => iSup_le fun _ => iSup_le fun _ =>
    iSup_le fun _ => quiet_mul_le_accounted
      (quiet_mul_le_accounted (answered_le_accounted rfl rfl) (answered_le_accounted rfl rfl))
      (answered_le_accounted rfl rfl)

theorem applying_all_le_accounted (ms : List Manifest) {f : Resource → Resource}
    (hf : ∀ r, f r = r ∨ f r = r.pause) :
    (ms.map fun man => applying (f man.resource)).prod ≤ accounted ms 0 := by
  have hall := prod_le_accounted (l := ms) (fun man => [man]) (fun _ => 0)
    fun man _ => applying_le_accounted (hf man.resource)
  simpa using hall

theorem bringingLater_le_accounted (ms : List Manifest) :
    bringingLater ms ≤ accounted ms 0 := by
  cases ms with
  | nil => exact one_le_accounted
  | cons man ms =>
    refine iSup_le fun kinds => ?_
    refine quiet_mul_le_accounted (resolvingPausable_le_accounted kinds)
      (applying_all_le_accounted (man :: ms) fun r => ?_)
    rw [pausedIn]
    split
    · exact .inr rfl
    · exact .inl rfl

theorem unpausingKind_le_accounted (mapping : KindMapping) (n : Nat) :
    unpausingKind mapping n ≤ accounted [] n := by
  refine iSup_le fun rs => iSup_le fun hlen => ?_
  have hreplaced := prod_le_accounted_nil (l := rs)
    (f := fun r => answered (.update mapping r.unpause) fun a => ∃ r', a = .ok r') (fun _ => 1) ?_
  · rw [List.map_const', List.sum_replicate, smul_eq_mul, mul_one, hlen] at hreplaced
    exact quiet_mul_le_accounted (answered_le_accounted rfl rfl) hreplaced
  · rintro r - w ⟨a, -, rfl⟩
    exact ⟨.nil, rfl⟩

theorem unpausing_le_accounted (c : Category) (n : Nat) : unpausing c n ≤ accounted [] n := by
  refine iSup_le fun mappings => iSup_le fun ns => iSup_le fun h => ?_
  obtain ⟨hlen, rfl⟩ := h
  rw [← List.sum_eq_foldl]
  exact quiet_mul_le_accounted (answered_le_accounted rfl rfl)
    (zipWith_le_accounted hlen unpausingKind_le_accounted)

theorem finishing_le_accounted (o : ImportOptions) (counts : List Nat) :
    finishing o counts ≤ accounted [] counts.sum :=
  iSup_le fun hlen => zipWith_le_accounted hlen unpausing_le_accounted

/-- **The imports that succeed create the object of every manifest once**, and replace as many
objects as they count in the end. -/
theorem importing_le_accounted (o : ImportOptions) (s : ExportedState) (counts : List Nat) :
    importing o s counts ≤ accounted (s.baseManifests ++ s.laterManifests) counts.sum := by
  have hbase := applying_all_le_accounted s.baseManifests (f := id) fun _ => .inl rfl
  have hwait := prod_le_accounted_nil (l := gates o) (fun _ => 0)
    fun gate _ => waiting_le_accounted gate
  have hreset : answered .reset (fun _ => True) ≤ accounted [] 0 := answered_le_accounted rfl rfl
  have hlater := bringingLater_le_accounted s.laterManifests
  have hall := mul_le_accounted (mul_le_accounted (mul_le_accounted
    (mul_le_accounted hbase hwait) hreset) hlater) (finishing_le_accounted o counts)
  simpa [importing] using hall

theorem length_of_mem_importing {o : ImportOptions} {s : ExportedState} {counts : List Nat}
    {w : List LoggedCall} (h : w ∈ importing o s counts) :
    counts.length = (unpausedCategories o).length := by
  obtain ⟨-, -, v, hv, -⟩ := Language.mem_mul.mp h
  obtain ⟨hlen, -⟩ := Language.mem_iSup.mp hv
  exact hlen

end PlaneRestore
