import PlaneRestore.Proofs.Json.Ordered
import PlaneRestore.Proofs.Resource.Identity
import PlaneRestore.Proofs.Yaml.Reading
/-!
The laws of annotations.

Whatever sets, removes or drops something in the metadata is a change of the metadata alone
(`Resource.inMetadata`), and two such changes are the same if they do the same to an object with its
keys in order. So the laws are found for the value of the annotations first, then for the metadata,
and `Resource.annotations_obey_laws` puts them together for resources. That the keys are in order is
no restriction: `Resource.isOrdered_of_ofYaml` and `Resource.isOrdered_of_ofItem` find it in what is
read, and each change keeps it.
-/

namespace PlaneRestore

namespace Resource

open Json (memberAt?)

variable {r : Resource} {m : Json} {k l v w : String}

/-! ### Changes of the metadata -/

/-- Changes the metadata. -/
def inMetadata (f : Json → Json) (r : Resource) : Resource := ⟨r.object.modifyMember "metadata" f⟩

theorem inMetadata_inMetadata (f g : Json → Json) (r : Resource) :
    (r.inMetadata f).inMetadata g = r.inMetadata (g ∘ f) :=
  congrArg mk (Json.modifyMember_modifyMember r.object f g)

/-- Changes of the metadata are the same if they do the same to the metadata that are there: these
are an object with ordered keys. -/
theorem IsValid.inMetadata_congr (h : r.IsValid) (ho : r.object.isOrdered = true)
    {f g : Json → Json} (hfg : ∀ m : Json, r.object.member? "metadata" = some m →
      m.isObject = true → m.isOrdered = true → f m = g m) : r.inMetadata f = r.inMetadata g := by
  obtain ⟨md, hmd⟩ := h.hasMetadata
  have hsame := hfg (.object md) hmd rfl (Json.isOrdered_of_member? ho hmd)
  have hobject := h.isObject
  cases hr : r.object with
  | object ms =>
    rw [hr] at ho hmd
    have hordered := (Json.isOrdered_object_iff.mp ho).1
    -- only the member with this name is changed at all
    have hmap : ms.map (fun e => (e.1, if e.1 = "metadata" then f e.2 else e.2))
        = ms.map fun e => (e.1, if e.1 = "metadata" then g e.2 else e.2) := by
      refine List.map_congr_left fun e he => ?_
      by_cases hkey : e.1 = "metadata"
      · -- there is one member of this name
        have hvalue : Table.get? e.1 ms = some e.2 := hordered.mem_iff_get?.mp he
        rw [hkey] at hvalue
        have hmeta : e.2 = .object md := Option.some.inj (hvalue.symm.trans hmd)
        simp [hkey, hmeta, hsame]
      · simp [hkey]
    rw [inMetadata, inMetadata, hr]
    exact congrArg (fun ms => Resource.mk (.object ms)) hmap
  | _ =>
    rw [hr] at hobject
    cases hobject

theorem IsValid.inMetadata_id (h : r.IsValid) : r.inMetadata id = r := by
  have hobject := h.isObject
  obtain ⟨v⟩ := r
  cases v with
  | object ms => simp [inMetadata, Json.modifyMember]
  | _ => cases hobject

/-- Sets an annotation in the metadata. -/
def annotateIn (key value : String) (m : Json) : Json :=
  m.setMember "annotations" ((objectMember "annotations" m).setMember key (.string value))

/-- Removes an annotation from the metadata. -/
def unannotateIn (key : String) (m : Json) : Json :=
  m.modifyMember "annotations" fun a => a.removeMember key

/-- Drops what a server fills in from the metadata. -/
def withoutFields (m : Json) : Json := serverFields.foldl (fun m f => m.removeMember f) m

theorem annotate_eq (r : Resource) (k v : String) :
    r.annotate k v = r.inMetadata (annotateIn k v) := rfl

theorem unannotate_eq (r : Resource) (k : String) :
    r.unannotate k = r.inMetadata (unannotateIn k) := rfl

theorem withoutServerFields_eq (r : Resource) :
    r.withoutServerFields = r.inMetadata withoutFields := rfl

/-! ### Metadata with ordered keys -/

theorem isObject_objectMember (name : String) (m : Json) :
    (objectMember name m).isObject = true := by
  rw [objectMember]
  split <;> rfl

theorem isOrdered_objectMember (ho : m.isOrdered = true) (name : String) :
    (objectMember name m).isOrdered = true := by
  rw [objectMember]
  split
  · next ms hms => exact Json.isOrdered_of_member? ho hms
  · rfl

theorem objectMember_setMember (hm : m.isObject = true) {x : Json} (hx : x.isObject = true)
    (name : String) : objectMember name (m.setMember name x) = x := by
  rw [objectMember, Json.member?_setMember hm, if_pos rfl]
  cases x with
  | object ms => rfl
  | _ => cases hx

theorem objectMember_congr {m' : Json} {name : String} (h : m.member? name = m'.member? name) :
    objectMember name m = objectMember name m' := by
  rw [objectMember, objectMember, h]

theorem objectMember_unannotateIn (k : String) (m : Json) :
    objectMember "annotations" (unannotateIn k m)
      = (objectMember "annotations" m).removeMember k := by
  rw [objectMember, objectMember, unannotateIn, Json.member?_modifyMember]
  cases m.member? "annotations" with
  | none => rfl
  | some a => cases a <;> rfl

theorem isOrdered_annotateIn (ho : m.isOrdered = true) (k v : String) :
    (annotateIn k v m).isOrdered = true :=
  Json.isOrdered_setMember ho
    (Json.isOrdered_setMember (isOrdered_objectMember ho "annotations") (x := .string v) rfl k) _

theorem isOrdered_unannotateIn (ho : m.isOrdered = true) (k : String) :
    (unannotateIn k m).isOrdered = true :=
  Json.isOrdered_modifyMember ho (fun _ ha => Json.isOrdered_removeMember ha k) _

theorem isOrdered_withoutFields (ho : m.isOrdered = true) : (withoutFields m).isOrdered = true := by
  rw [withoutFields]
  induction serverFields generalizing m with
  | nil => exact ho
  | cons f fields ih => exact ih (Json.isOrdered_removeMember ho f)

theorem isObject_withoutFields (hm : m.isObject = true) : (withoutFields m).isObject = true := by
  rw [withoutFields]
  induction serverFields generalizing m with
  | nil => exact hm
  | cons f fields ih => exact ih (by simpa using hm)

theorem member?_withoutFields (m : Json) (j : String) :
    (withoutFields m).member? j = if j ∈ serverFields then none else m.member? j := by
  split
  · next hj => exact Json.member?_removeMembers_of_mem hj m
  · next hj => exact Json.member?_removeMembers hj m

section Laws

variable (hm : m.isObject = true) (ho : m.isOrdered = true)

include hm ho

theorem annotateIn_annotateIn (k v l w : String) :
    annotateIn l w (annotateIn k v m) = m.setMember "annotations"
    (((objectMember "annotations" m).setMember k (.string v)).setMember l (.string w)) := by
  have hold := isOrdered_objectMember ho "annotations"
  have hset := Json.isOrdered_setMember hold (x := .string v) rfl k
  have hobject : ((objectMember "annotations" m).setMember k (.string v)).isObject = true := by
    rw [Json.isObject_setMember, isObject_objectMember]
  have hsecond := Json.isOrdered_setMember hset (x := .string w) rfl l
  rw [annotateIn, annotateIn, objectMember_setMember hm hobject,
    Json.setMember_setMember hm ho hset hsecond]

theorem annotateIn_same (k v w : String) :
    annotateIn k w (annotateIn k v m) = annotateIn k w m := by
  have hold := isOrdered_objectMember ho "annotations"
  have hobject := isObject_objectMember "annotations" m
  rw [annotateIn_annotateIn hm ho, annotateIn, Json.setMember_setMember hobject hold rfl rfl]

theorem annotateIn_comm (hkl : k ≠ l) (v w : String) :
    annotateIn l w (annotateIn k v m) = annotateIn k v (annotateIn l w m) := by
  have hold := isOrdered_objectMember ho "annotations"
  have hobject := isObject_objectMember "annotations" m
  rw [annotateIn_annotateIn hm ho, annotateIn_annotateIn hm ho,
    Json.setMember_comm hobject hold hkl rfl rfl]

theorem unannotateIn_annotateIn (k v l : String) :
    unannotateIn l (annotateIn k v m) = m.setMember "annotations"
    (((objectMember "annotations" m).setMember k (.string v)).removeMember l) := by
  have hset := Json.isOrdered_setMember (isOrdered_objectMember ho "annotations")
    (x := .string v) rfl k
  rw [unannotateIn, annotateIn,
    Json.modifyMember_setMember hm ho hset fun _ ha => Json.isOrdered_removeMember ha l]

theorem annotateIn_unannotateIn (k v l : String) :
    annotateIn k v (unannotateIn l m) = m.setMember "annotations"
    (((objectMember "annotations" m).removeMember l).setMember k (.string v)) := by
  have hremoved := Json.isOrdered_removeMember (isOrdered_objectMember ho "annotations") l
  have hset := Json.isOrdered_setMember hremoved (x := .string v) rfl k
  rw [annotateIn, objectMember_unannotateIn, unannotateIn,
    Json.setMember_modifyMember hm ho hset fun _ ha => Json.isOrdered_removeMember ha l]

theorem unannotateIn_annotateIn_comm (hkl : k ≠ l) (v : String) :
    unannotateIn l (annotateIn k v m) = annotateIn k v (unannotateIn l m) := by
  have hold := isOrdered_objectMember ho "annotations"
  have hobject := isObject_objectMember "annotations" m
  rw [unannotateIn_annotateIn hm ho, annotateIn_unannotateIn hm ho,
    Json.removeMember_setMember_of_ne hobject hold hkl rfl]

/-- An annotation that is new leaves nothing behind when it is removed. -/
theorem unannotateIn_annotateIn_self {as : List (String × Json)}
    (has : m.member? "annotations" = some (.object as)) (hk : Table.get? k as = none) (v : String) :
    unannotateIn k (annotateIn k v m) = m := by
  have hvalue : objectMember "annotations" m = .object as := by rw [objectMember, has]
  have hold := isOrdered_objectMember ho "annotations"
  rw [hvalue] at hold
  rw [unannotateIn_annotateIn hm ho, hvalue, Json.removeMember_setMember_self rfl hold rfl hk,
    Json.setMember_of_member? hm ho has]

theorem withoutFields_withoutFields : withoutFields (withoutFields m) = withoutFields m := by
  have hobject := isObject_withoutFields hm
  have hordered := isOrdered_withoutFields ho
  refine Json.eq_of_member? (isObject_withoutFields hobject) (isOrdered_withoutFields hordered)
    hobject hordered fun j => ?_
  rw [member?_withoutFields, member?_withoutFields]
  split <;> rfl

theorem withoutFields_annotateIn (k v : String) :
    withoutFields (annotateIn k v m) = annotateIn k v (withoutFields m) := by
  have hobject := isObject_withoutFields hm
  have hordered := isOrdered_withoutFields ho
  have hset : (annotateIn k v m).isObject = true := by rw [annotateIn, Json.isObject_setMember, hm]
  -- the same member under each key
  refine Json.eq_of_member? (isObject_withoutFields hset)
    (isOrdered_withoutFields (isOrdered_annotateIn ho k v)) ?_ (isOrdered_annotateIn hordered k v)
    fun j => ?_
  · rw [annotateIn, Json.isObject_setMember, hobject]
  · -- the annotations are none of the fields that are dropped
    have hkept : "annotations" ∉ serverFields := by decide
    have hsame : objectMember "annotations" (withoutFields m) = objectMember "annotations" m := by
      refine objectMember_congr ?_
      rw [member?_withoutFields, if_neg hkept]
    rw [member?_withoutFields, annotateIn, annotateIn, Json.member?_setMember hm,
      Json.member?_setMember hobject, member?_withoutFields, hsame]
    by_cases hj : j = "annotations"
    · simp [hj, hkept]
    · simp [hj]

theorem withoutFields_unannotateIn (k : String) :
    withoutFields (unannotateIn k m) = unannotateIn k (withoutFields m) := by
  have hobject := isObject_withoutFields hm
  have hordered := isOrdered_withoutFields ho
  have hremoved : (unannotateIn k m).isObject = true := by
    rw [unannotateIn, Json.isObject_modifyMember, hm]
  refine Json.eq_of_member? (isObject_withoutFields hremoved)
    (isOrdered_withoutFields (isOrdered_unannotateIn ho k)) ?_ (isOrdered_unannotateIn hordered k)
    fun j => ?_
  · rw [unannotateIn, Json.isObject_modifyMember, hobject]
  · rw [member?_withoutFields, unannotateIn, unannotateIn, Json.member?_modifyMember,
      Json.member?_modifyMember, member?_withoutFields]
    split <;> rfl

end Laws

theorem unannotateIn_unannotateIn (k : String) (m : Json) :
    unannotateIn k (unannotateIn k m) = unannotateIn k m := by
  simp only [unannotateIn, Json.modifyMember_modifyMember, Function.comp_def,
    Json.removeMember_removeMember]

theorem unannotateIn_comm (k l : String) (m : Json) :
    unannotateIn l (unannotateIn k m) = unannotateIn k (unannotateIn l m) := by
  simp only [unannotateIn, Json.modifyMember_modifyMember, Function.comp_def]
  refine congrArg (Json.modifyMember m _) (funext fun a => ?_)
  exact Json.removeMember_comm a k l

/-! ### Reading annotations -/

/-- One annotation is found among all of them, if their keys are in order. -/
theorem annotation?_eq_get? (ho : ∀ a, r.annotationsValue? = some a → a.isOrdered = true)
    (k : String) : r.annotation? k = Table.get? k r.annotations := by
  rw [annotation?, annotations]
  cases ha : r.annotationsValue? with
  | none => rfl
  | some a =>
    have hordered := ho a ha
    cases a with
    | object as =>
      exact ((Json.isOrdered_object_iff.mp hordered).1.get?_filterMap Json.string? k).symm
    | _ => rfl

theorem ordered_annotations (ho : ∀ a, r.annotationsValue? = some a → a.isOrdered = true) :
    Table.Ordered r.annotations := by
  rw [annotations]
  cases ha : r.annotationsValue? with
  | none => exact Table.ordered_nil
  | some a =>
    have hordered := ho a ha
    cases a with
    | object as => exact (Json.isOrdered_object_iff.mp hordered).1.filterMap Json.string?
    | _ => exact Table.ordered_nil

theorem isOrdered_of_annotationsValue? (ho : r.object.isOrdered = true) {a : Json}
    (ha : r.annotationsValue? = some a) : a.isOrdered = true := by
  obtain ⟨m, hm, ha⟩ := Option.bind_eq_some_iff.mp ha
  exact Json.isOrdered_of_member? (Json.isOrdered_of_member? ho hm) ha

theorem isOrdered_inMetadata (ho : r.object.isOrdered = true) {f : Json → Json}
    (hf : ∀ m : Json, m.isOrdered = true → (f m).isOrdered = true) :
    (r.inMetadata f).object.isOrdered = true :=
  Json.isOrdered_modifyMember ho hf "metadata"

theorem isOrdered_annotate (ho : r.object.isOrdered = true) (k v : String) :
    (r.annotate k v).object.isOrdered = true :=
  isOrdered_inMetadata ho fun _ hm => isOrdered_annotateIn hm k v

theorem isOrdered_unannotate (ho : r.object.isOrdered = true) (k : String) :
    (r.unannotate k).object.isOrdered = true :=
  isOrdered_inMetadata ho fun _ hm => isOrdered_unannotateIn hm k

/-! A manifest, a value and an item of a list are read with their keys in order. -/

theorem isOrdered_of_ofJson {v : Json} (hv : v.isOrdered = true) (h : ofJson v = .ok r) :
    r.object.isOrdered = true := by
  rw [(ofJson_eq_ok_iff.mp h).1]
  exact hv

theorem isOrdered_of_ofYaml {bytes : List UInt8} (h : ofYaml bytes = .ok r) :
    r.object.isOrdered = true := by
  rw [ofYaml] at h
  split at h
  · next v hread => exact isOrdered_of_ofJson (Yaml.isOrdered_of_ofYamlText hread) h
  · cases h

theorem isOrdered_of_ofItem {apiVersion kind : String} {v : Json} (hv : v.isOrdered = true)
    (h : ofItem apiVersion kind v = .ok r) : r.object.isOrdered = true := by
  have fill : ∀ (name text : String) (w : Json), w.isOrdered = true →
      (fillMember name (.string text) w).isOrdered = true := by
    intro name text w hw
    rw [fillMember]
    split
    · exact hw
    · exact Json.isOrdered_setMember hw rfl name
  exact isOrdered_of_ofJson (fill _ _ _ (fill _ _ _ hv)) h

theorem HasMetadata.annotation?_set_eq (h : r.HasMetadata) (k v j : String) :
    (r.annotate k v).annotation? j = if j = k then some v else r.annotation? j := by
  by_cases hj : j = k
  · rw [hj, if_pos rfl, h.annotation?_set]
  · obtain ⟨ms, hms, -, hothers⟩ := h.annotationsValue?_set k v
    rw [if_neg hj, annotation?, annotation?, hms, ← hothers j hj]
    rfl

theorem annotation?_remove_eq (r : Resource) (k j : String) :
    (r.unannotate k).annotation? j = if j = k then none else r.annotation? j := by
  by_cases hj : j = k
  · rw [hj, if_pos rfl, annotation?, annotationsValue?_remove]
    cases r.annotationsValue? with
    | none => rfl
    | some a => simp [Json.member?_removeMember_self]
  · rw [if_neg hj, annotation?_remove_of_ne r hj]

/-! ### The laws -/

/-- The laws of annotations. -/
structure ObeysAnnotationLaws (r : Resource) : Prop where
  annotations_set : ∀ k v, (r.annotate k v).annotations = Table.put k v r.annotations
  annotations_remove : ∀ k, (r.unannotate k).annotations = Table.remove k r.annotations
  annotation : ∀ k, r.annotation? k = Table.get? k r.annotations
  set_set : ∀ k v w, annotate k w (r.annotate k v) = r.annotate k w
  set_set_comm : ∀ k l v w, k ≠ l →
    annotate l w (r.annotate k v) = annotate k v (r.annotate l w)
  set_remove_comm : ∀ k l v, k ≠ l →
    unannotate l (r.annotate k v) = annotate k v (r.unannotate l)
  remove_remove_comm : ∀ k l,
    unannotate l (r.unannotate k) = unannotate k (r.unannotate l)
  remove_remove : ∀ k, unannotate k (r.unannotate k) = r.unannotate k
  /-- Only where an annotation is added to an object it can be taken away again without a trace. -/
  remove_set : ∀ k v, unannotate k (r.annotate k v) = r ↔
    ∃ as, r.annotationsValue? = some (.object as) ∧ Table.get? k as = none
  drop_drop : r.withoutServerFields.withoutServerFields = r.withoutServerFields
  drop_set : ∀ k v, (r.annotate k v).withoutServerFields
    = r.withoutServerFields.annotate k v
  drop_remove : ∀ k, (r.unannotate k).withoutServerFields
    = r.withoutServerFields.unannotate k

section

variable (h : r.IsValid) (ho : r.object.isOrdered = true)

include h ho

theorem IsValid.annotations_set (k v : String) :
    (r.annotate k v).annotations = Table.put k v r.annotations := by
  have hold : ∀ a, r.annotationsValue? = some a → a.isOrdered = true :=
    fun a ha => isOrdered_of_annotationsValue? ho ha
  have hnew : ∀ a, (r.annotate k v).annotationsValue? = some a → a.isOrdered = true :=
    fun a ha => isOrdered_of_annotationsValue? (isOrdered_annotate ho k v) ha
  refine (ordered_annotations hnew).ext
    (Table.ordered_put k v (ordered_annotations hold)) fun j => ?_
  rw [← annotation?_eq_get? hnew, h.hasMetadata.annotation?_set_eq]
  by_cases hj : j = k
  · rw [if_pos hj, hj, Table.get?_put_self]
  · rw [if_neg hj, Table.get?_put_of_ne hj, annotation?_eq_get? hold]

theorem IsValid.remove_set_iff (k v : String) : unannotate k (r.annotate k v) = r ↔
    ∃ as, r.annotationsValue? = some (.object as) ∧ Table.get? k as = none := by
  constructor
  · intro heq
    obtain ⟨as, has, -, -⟩ := h.hasMetadata.annotationsValue?_set k v
    have hvalue := annotationsValue?_remove (r.annotate k v) k
    rw [heq, has] at hvalue
    exact ⟨Table.remove k as, hvalue, Table.get?_remove_self k as⟩
  · rintro ⟨as, has, hk⟩
    -- the metadata are as they were, and so is the rest
    have hsame : r.inMetadata (unannotateIn k ∘ annotateIn k v) = r.inMetadata id := by
      refine h.inMetadata_congr ho fun m hmeta hm hmo => ?_
      rw [annotationsValue?, hmeta] at has
      exact unannotateIn_annotateIn_self hm hmo has hk v
    rw [annotate_eq, unannotate_eq, inMetadata_inMetadata, hsame, h.inMetadata_id]

/-- **Annotations are a map from keys to texts.** Setting and removing them is writing to this map
and removing from it, whatever stands in the place of the annotations before; as changes of the
object they obey the laws of such a map, and they do not interfere with what is dropped for a
server. -/
theorem annotations_obey_laws : ObeysAnnotationLaws r where
  annotations_set := h.annotations_set ho
  annotations_remove k := by
    have hold : ∀ a, r.annotationsValue? = some a → a.isOrdered = true :=
      fun a ha => isOrdered_of_annotationsValue? ho ha
    have hnew : ∀ a, (r.unannotate k).annotationsValue? = some a → a.isOrdered = true :=
      fun a ha => isOrdered_of_annotationsValue? (isOrdered_unannotate ho k) ha
    -- two ordered tables with the same look-ups
    refine (ordered_annotations hnew).ext ((ordered_annotations hold).remove k) fun j => ?_
    rw [← annotation?_eq_get? hnew, annotation?_remove_eq]
    by_cases hj : j = k
    · rw [if_pos hj, hj, Table.get?_remove_self]
    · rw [if_neg hj, Table.get?_remove_of_ne hj, annotation?_eq_get? hold]
  annotation := annotation?_eq_get? fun a ha => isOrdered_of_annotationsValue? ho ha
  set_set k v w := by
    simp only [annotate_eq, inMetadata_inMetadata]
    exact h.inMetadata_congr ho fun m _ hm hmo => annotateIn_same hm hmo k v w
  set_set_comm k l v w hkl := by
    simp only [annotate_eq, inMetadata_inMetadata]
    exact h.inMetadata_congr ho fun m _ hm hmo => annotateIn_comm hm hmo hkl v w
  set_remove_comm k l v hkl := by
    simp only [annotate_eq, unannotate_eq, inMetadata_inMetadata]
    exact h.inMetadata_congr ho fun m _ hm hmo => unannotateIn_annotateIn_comm hm hmo hkl v
  remove_remove_comm k l := by
    simp only [unannotate_eq, inMetadata_inMetadata]
    exact h.inMetadata_congr ho fun m _ _ _ => unannotateIn_comm k l m
  remove_remove k := by
    simp only [unannotate_eq, inMetadata_inMetadata]
    exact h.inMetadata_congr ho fun m _ _ _ => unannotateIn_unannotateIn k m
  remove_set := h.remove_set_iff ho
  drop_drop := by
    simp only [withoutServerFields_eq, inMetadata_inMetadata]
    exact h.inMetadata_congr ho fun m _ hm hmo => withoutFields_withoutFields hm hmo
  drop_set k v := by
    simp only [annotate_eq, withoutServerFields_eq, inMetadata_inMetadata]
    exact h.inMetadata_congr ho fun m _ hm hmo => withoutFields_annotateIn hm hmo k v
  drop_remove k := by
    simp only [unannotate_eq, withoutServerFields_eq, inMetadata_inMetadata]
    exact h.inMetadata_congr ho fun m _ hm hmo => withoutFields_unannotateIn hm hmo k

end

namespace Sample

/-- A resource with an annotation that is no text. -/
def annotated : Resource :=
  ⟨.ofEntries [("apiVersion", .string "example.io/v1"), ("kind", .string "Widget"),
    ("metadata", .ofEntries [("name", .string "w1"), ("uid", .string "0a4a1c0e"),
      ("annotations", .ofEntries [("count", .ofNat 3), ("team", .string "platform")])])]⟩

end Sample

/-- An annotation that is no text is not seen, but it is lost when one is set in its place. -/
theorem annotations_obey_laws_sample :
    Sample.annotated.IsValid ∧ Sample.annotated.object.isOrdered = true ∧
      (Sample.annotated.annotate "count" "4").annotations
        = [("count", "4"), ("team", "platform")] ∧
      unannotate "count" (Sample.annotated.annotate "count" "4") ≠ Sample.annotated ∧
      unannotate "zone" (Sample.annotated.annotate "zone" "a") = Sample.annotated := by
  have hvalid : Sample.annotated.IsValid :=
    ⟨⟨"example.io/v1", by decide, rfl⟩, ⟨"Widget", by decide, rfl⟩, _, rfl, "w1", by decide, rfl⟩
  have hordered : Sample.annotated.object.isOrdered = true := by decide +kernel
  have hlaws := annotations_obey_laws hvalid hordered
  have hold : Sample.annotated.annotations = [("team", "platform")] := by decide +kernel
  have hvalue : Sample.annotated.annotationsValue?
      = some (.object [("count", .ofNat 3), ("team", .string "platform")]) := rfl
  refine ⟨hvalid, hordered, ?_, fun h => ?_, ?_⟩
  · rw [hlaws.annotations_set, hold]
    decide +kernel
  · obtain ⟨as, has, hcount⟩ := (hlaws.remove_set "count" "4").mp h
    rw [hvalue] at has
    obtain rfl := Json.object.inj (Option.some.inj has)
    exact absurd hcount (by decide)
  · exact (hlaws.remove_set "zone" "a").mpr ⟨_, hvalue, by decide⟩

end Resource

end PlaneRestore
