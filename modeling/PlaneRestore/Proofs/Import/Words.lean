import Mathlib
import PlaneRestore.Import.Run
import PlaneRestore.Proofs.State.Manifests
import PlaneRestore.Proofs.Trace.Log
/-!
The calls of a successful import, as a language.

* `applying` is what is said to bring one manifest to the control plane, `waiting` what is said in a
  wait, `resolvingPausable` what finds out the kinds that are created paused, and `modifying` what
  lifts the pause of a category.
* `importing o s counts` puts them together: base groups, waits, one reset, the other groups, and
  the categories to be unpaused, of which `counts` says how many objects were found.

The words are those of an import that succeeds. One that does not makes the calls of the start of
some word, and stops at an answer that is not in it.
-/

namespace PlaneRestore

open scoped Computability

/-- A kind, and the conditions that its objects have to satisfy. -/
abbrev Gate : Type := GroupKind × List String

namespace Words

/-- One call with one of the good answers. -/
def answered (c : Call) (good : c.Answer → Prop) : Language LoggedCall :=
  {w | ∃ a, good a ∧ w = [⟨c, some a⟩]}

/-- Whether an object is there after its creation was answered so. -/
def IsSettled (answer : Except ClientError Resource) : Prop :=
  ∃ applied, Applied.ofAnswer answer = .ok applied

/-- A manifest is brought to the control plane. -/
def applying (r : Resource) : Language LoggedCall :=
  ⨆ mapping, answered (.mappingForVersion r.groupKind r.version) (· = .ok mapping)
    * answered (.create mapping r.withoutServerFields) IsSettled

/-! ### Waiting -/

/-- Whether an answer lists objects of which all satisfy the conditions. -/
def AllSatisfy (conditions : List String) (answer : Except ClientError (List Resource)) : Prop :=
  ∃ rs, answer = .ok rs ∧ ∀ r ∈ rs, r.satisfies conditions = .ok true

/-- A wait for the objects of a kind: lists, of which the last is the first good one. -/
def waiting (gate : Gate) : Language LoggedCall :=
  ⨆ mapping, answered (.mappingForKind gate.1) (· = .ok mapping)
    * (answered (.list mapping) (¬AllSatisfy gate.2 ·))∗
    * answered (.list mapping) (AllSatisfy gate.2)

/-- What is waited for, in its order. -/
def gates (o : ImportOptions) : List Gate :=
  [(⟨"apiextensions.example.io", "CompositeResourceDefinition"⟩, ["Established"]),
    (⟨"pkg.example.io", "Provider"⟩, ["Installed", "Healthy"]),
    (⟨"pkg.example.io", "Function"⟩, ["Installed", "Healthy"]),
    (⟨"pkg.example.io", "Configuration"⟩, ["Installed", "Healthy"])]
  ++ if o.legacyRevisionWait then
    [(⟨"pkg.example.io", "ProviderRevision"⟩, ["Healthy"]),
      (⟨"pkg.example.io", "FunctionRevision"⟩, ["Healthy"]),
      (⟨"pkg.example.io", "ConfigurationRevision"⟩, ["Healthy"])]
  else []

/-! ### Pausing -/

/-- A category is resolved into the mappings of its kinds. -/
def resolving (c : Category) (mappings : List KindMapping) : Language LoggedCall :=
  answered (.resolve c) (· = .ok mappings)

/-- The kinds of some mappings. -/
def kindsOf (mappings : List KindMapping) : List GroupKind := mappings.map (·.groupKind)

/-- The kinds that are created paused are found out. -/
def resolvingPausable (kinds : List GroupKind) : Language LoggedCall :=
  ⨆ (claims) (composites) (managed)
    (_ : kinds = kindsOf claims ++ kindsOf composites ++ kindsOf managed),
    resolving .claim claims * resolving .composite composites * resolving .managed managed

/-- A manifest as it is created, once the kinds that are created paused are known. -/
def pausedIn (kinds : List GroupKind) (r : Resource) : Resource :=
  if kinds.contains r.groupKind then r.pause else r

/-- The groups that are no base groups are brought to the control plane. If there is anything in
them, the kinds that are created paused are found out first. -/
def bringingLater : List Manifest → Language LoggedCall
  | [] => 1
  | ms => ⨆ kinds, resolvingPausable kinds
      * (ms.map fun m => applying (pausedIn kinds m.resource)).prod

/-! ### Lifting the pause -/

/-- All objects of a kind are unpaused; there are `n`. -/
def unpausingKind (mapping : KindMapping) (n : Nat) : Language LoggedCall :=
  ⨆ (rs : List Resource) (_ : rs.length = n),
    answered (.list mapping) (· = .ok rs)
      * (rs.map fun r => answered (.update mapping r.unpause) fun a => ∃ r', a = .ok r').prod

/-- All objects of a category are unpaused; there are `n`. -/
def unpausing (c : Category) (n : Nat) : Language LoggedCall :=
  ⨆ (mappings : List KindMapping) (ns : List Nat)
    (_ : ns.length = mappings.length ∧ ns.foldl (· + ·) 0 = n),
    resolving c mappings * (List.zipWith unpausingKind mappings ns).prod

/-- The categories to be unpaused only if that is asked for. -/
def managedCategories (o : ImportOptions) : List Category :=
  if o.unpauseAfterImport then [.managed] else []

/-- The categories to be unpaused, in their order. -/
def unpausedCategories (o : ImportOptions) : List Category :=
  .composite :: .claim :: managedCategories o

/-- The pause is lifted; `counts` says how many objects there are of each category. -/
def finishing (o : ImportOptions) (counts : List Nat) : Language LoggedCall :=
  ⨆ (_ : counts.length = (unpausedCategories o).length),
    (List.zipWith unpausing (unpausedCategories o) counts).prod

end Words

open Words

/-- The logs of the imports that succeed; `counts` says how many objects were unpaused of each
category. -/
def importing (o : ImportOptions) (s : ExportedState) (counts : List Nat) : Language LoggedCall :=
  (s.baseManifests.map fun m => applying m.resource).prod
    * ((gates o).map waiting).prod
    * answered .reset (fun _ => True)
    * bringingLater s.laterManifests
    * finishing o counts

end PlaneRestore
