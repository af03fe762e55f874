import PlaneRestore.Proofs.Json
import PlaneRestore.Proofs.Outcome
import PlaneRestore.Resource
/-!
What changing a resource leaves as it is.

* `Resource.SameNames`: two resources name the same object. Pausing, lifting the pause, dropping
  what a server fills in and setting a condition keep the names.
* `Resource.HasMetadata`: the metadata are an object, as they are in everything that is read as a
  resource. `HasMetadata.annotation?_pause` says that pausing is then never in vain.
* `Resource.unpause_unpause`: lifting the pause twice is lifting it once.
-/

namespace PlaneRestore

namespace Resource

/-- Two resources name the same object. -/
structure SameNames (r r' : Resource) : Prop where
  groupKind : r'.groupKind = r.groupKind
  key : r'.key = r.key

theorem SameNames.trans {r r' r'' : Resource} (h : SameNames r r') (h' : SameNames r' r'') :
    SameNames r r'' :=
  ⟨h'.groupKind.trans h.groupKind, h'.key.trans h.key⟩

/-- Metadata may be changed anywhere but in the names. -/
theorem sameNames_modify (r : Resource) {f : Json → Json}
    (hname : ∀ m, Json.step? "name" (f m) = Json.step? "name" m)
    (hspace : ∀ m, Json.step? "namespace" (f m) = Json.step? "namespace" m) :
    SameNames r ⟨r.object.modifyMember "metadata" f⟩ := by
  have htop : ∀ n, n ≠ "metadata" →
      Json.textAt [n] (r.object.modifyMember "metadata" f) = Json.textAt [n] r.object := by
    intro n hn
    simp [Json.textAt, Json.at?, Json.step?_modifyMember_of_ne hn]
  constructor
  · simp only [groupKind, apiVersion, kind]
    rw [htop "apiVersion" (by decide), htop "kind" (by decide)]
  · simp only [key, space?, name]
    rw [Json.textAt_modifyMember _ hname, Json.textAt_modifyMember _ hspace]

theorem sameNames_pause (r : Resource) : SameNames r r.pause :=
  sameNames_modify r (fun m => Json.step?_setMember_of_ne (by decide) m _)
    fun m => Json.step?_setMember_of_ne (by decide) m _

theorem sameNames_unpause (r : Resource) : SameNames r r.unpause :=
  sameNames_modify r (fun m => Json.step?_modifyMember_of_ne (by decide) m _)
    fun m => Json.step?_modifyMember_of_ne (by decide) m _

theorem sameNames_withoutServerFields (r : Resource) : SameNames r r.withoutServerFields :=
  sameNames_modify r (Json.step?_removeMembers (by decide)) (Json.step?_removeMembers (by decide))

theorem sameNames_setCondition (r : Resource) (c : Condition) : SameNames r (r.setCondition c) := by
  have hstep : ∀ n, n ≠ "status" → Json.step? n (r.setCondition c).object = Json.step? n r.object :=
    fun n hn => Json.step?_setMember_of_ne hn _ _
  have htop : ∀ n rest, n ≠ "status" →
      Json.textAt (n :: rest) (r.setCondition c).object = Json.textAt (n :: rest) r.object := by
    intro n rest hn
    simp [Json.textAt, Json.at?, hstep n hn]
  constructor
  · simp only [groupKind, apiVersion, kind]
    rw [htop "apiVersion" [] (by decide), htop "kind" [] (by decide)]
  · simp only [key, space?, name]
    rw [htop "metadata" ["name"] (by decide), htop "metadata" ["namespace"] (by decide)]

/-- Lifting the pause twice is lifting it once. -/
theorem unpause_unpause (r : Resource) : r.unpause.unpause = r.unpause := by
  simp only [unpause, unannotate, Json.modifyMember_modifyMember, Function.comp_def,
    Json.removeMember_removeMember]

/-! ### Annotations -/

theorem annotationsValue?_withoutServerFields (r : Resource) :
    r.withoutServerFields.annotationsValue? = r.annotationsValue? := by
  simp only [annotationsValue?, withoutServerFields, Json.member?_modifyMember, if_true]
  cases r.object.member? "metadata" with
  | none => rfl
  | some m => exact Json.member?_removeMembers (by decide) m

theorem annotationsValue?_setCondition (r : Resource) (c : Condition) :
    (r.setCondition c).annotationsValue? = r.annotationsValue? := by
  rw [annotationsValue?, setCondition, Json.member?_setMember_of_ne (by decide)]
  rfl

/-- The metadata are an object. -/
def HasMetadata (r : Resource) : Prop := ∃ ms, r.object.member? "metadata" = some (.object ms)

theorem hasMetadata_of_ofJson {v : Json} {r : Resource} (h : ofJson v = .ok r) : r.HasMetadata := by
  simp only [ofJson] at h
  split at h
  · cases h
  · split at h
    · cases h
    · split at h
      · cases h
      · next hobject _ hname =>
        cases h
        cases v with
        | object ms =>
          -- a name can be read from an object only: it is no index of an array
          have hindex : Json.index? "name" = none := by decide +kernel
          simp only [name, Json.textAt, Json.at?, List.foldlM_cons, List.foldlM_nil, Json.step?,
            Option.bind_eq_bind] at hname
          cases hm : Table.get? "metadata" ms with
          | none => simp [hm] at hname
          | some m =>
            cases m with
            | object metadata => exact ⟨metadata, hm⟩
            | _ => simp [hm, hindex] at hname
        | _ => simp [Json.isObject] at hobject

theorem hasMetadata_of_ofYaml {bytes : List UInt8} {r : Resource} (h : ofYaml bytes = .ok r) :
    r.HasMetadata := by
  rw [ofYaml] at h
  split at h
  · exact hasMetadata_of_ofJson h
  · cases h

theorem HasMetadata.annotationsValue?_set {r : Resource} (h : r.HasMetadata)
    (key value : String) : ∃ ms, (r.annotate key value).annotationsValue? = some (.object ms) ∧
      Table.get? key ms = some (.string value) ∧
        ∀ k, k ≠ key → Table.get? k ms = r.annotationsValue?.bind (Json.member? k) := by
  obtain ⟨metadata, hm⟩ := h
  -- whatever stands in place of the annotations, an object is made of it before one is set
  obtain ⟨as, has, hother⟩ : ∃ as, objectMember "annotations" (.object metadata) = .object as ∧
      ∀ k, Table.get? k as = r.annotationsValue?.bind (Json.member? k) := by
    have hvalue : r.annotationsValue? = Table.get? "annotations" metadata := by
      rw [annotationsValue?, hm]
      rfl
    rw [hvalue]
    simp only [objectMember, Json.member?]
    cases Table.get? "annotations" metadata with
    | none => exact ⟨[], rfl, fun _ => rfl⟩
    | some a =>
      cases a with
      | object as => exact ⟨as, rfl, fun _ => rfl⟩
      | _ => exact ⟨[], rfl, fun _ => rfl⟩
  refine ⟨Table.put key (.string value) as, ?_, Table.get?_put_self _ _ _, ?_⟩
  · simp only [annotate, annotationsValue?, Json.member?_modifyMember, hm, if_true,
      Option.map_some, Option.bind_some, has, Json.setMember]
    exact Table.get?_put_self _ _ _
  · intro k hk
    rw [Table.get?_put_of_ne hk, hother]

/-- Setting an annotation is never in vain. -/
theorem HasMetadata.annotation?_set {r : Resource} (h : r.HasMetadata)
    (key value : String) : (r.annotate key value).annotation? key = some value := by
  obtain ⟨ms, hms, hvalue, -⟩ := h.annotationsValue?_set key value
  simp [annotation?, hms, Json.member?, hvalue, Json.string?]

/-- Pausing is never in vain. -/
theorem HasMetadata.annotation?_pause {r : Resource} (h : r.HasMetadata) :
    r.pause.annotation? pausedKey = some "true" :=
  h.annotation?_set pausedKey "true"

theorem annotationsValue?_remove (r : Resource) (key : String) :
    (r.unannotate key).annotationsValue?
      = r.annotationsValue?.map (·.removeMember key) := by
  simp only [annotationsValue?, unannotate, Json.member?_modifyMember, if_true]
  cases r.object.member? "metadata" with
  | none => rfl
  | some m => simp [Json.member?_modifyMember]

theorem annotation?_remove_of_ne (r : Resource) {j key : String} (h : j ≠ key) :
    (r.unannotate key).annotation? j = r.annotation? j := by
  rw [annotation?, annotation?, annotationsValue?_remove, Option.bind_map]
  refine congrArg (Option.bind · _) (Option.bind_congr fun v _ => ?_)
  exact Json.member?_removeMember_of_ne h v

/-- An annotation that was removed is not there. -/
theorem isAnnotated_unannotate (r : Resource) (key : String) :
    isAnnotated (r.unannotate key) key = false := by
  rw [isAnnotated, annotationsValue?_remove]
  cases r.annotationsValue? with
  | none => rfl
  | some v => simp [Json.member?_removeMember_self]

end Resource

end PlaneRestore
