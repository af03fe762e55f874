import Mathlib.Data.List.Induction
import PlaneRestore.Proofs.Resource
/-!
The identity of a resource, which no change to it touches.

* `Resource.IsValid` says what was checked when a resource was read: `Resource.ofJson_eq_ok_iff`.
* `Resource.Edit` are the changes that can be made to a resource, and `Resource.Edit.Effect` says
  what each of them is for, and what it leaves as it is.
* `Resource.identity_is_kept`: whatever is changed in a resource that was read, it stays valid and
  keeps its identity, and every further change takes effect.
-/

namespace PlaneRestore.Resource

open Json (memberAt? IsApart SameBut)

variable {r r' : Resource}

/-- An object with an API version, a kind, and metadata with a name. -/
structure IsValid (r : Resource) : Prop where
  apiVersion : ∃ s, s ≠ "" ∧ r.object.member? "apiVersion" = some (.string s)
  kind : ∃ s, s ≠ "" ∧ r.object.member? "kind" = some (.string s)
  metadata : ∃ ms, r.object.member? "metadata" = some (.object ms) ∧
    ∃ s, s ≠ "" ∧ Table.get? "name" ms = some (.string s)

/-- Where the texts are that a resource must have. -/
def requiredPaths : List (List String) := [["apiVersion"], ["kind"], ["metadata", "name"]]

/-- Where the identity of a resource is written. -/
def identityPaths : List (List String) := requiredPaths ++ [["metadata", "namespace"]]

/-- What a resource is, among all resources. -/
structure SameIdentity (r r' : Resource) : Prop where
  groupKind : r'.groupKind = r.groupKind
  version : r'.version = r.version
  key : r'.key = r.key
  display : r'.display = r.display

theorem SameIdentity.trans {r'' : Resource} (h : SameIdentity r r') (h' : SameIdentity r' r'') :
    SameIdentity r r'' :=
  ⟨h'.groupKind.trans h.groupKind, h'.version.trans h.version, h'.key.trans h.key,
    h'.display.trans h.display⟩

/-! ### What is checked -/

theorem textOf_ne_empty_iff {o : Option Json} :
    (o.bind Json.string?).getD "" ≠ "" ↔ ∃ s, s ≠ "" ∧ o = some (.string s) := by
  rcases o with - | v
  · simp
  · cases v <;> simp [Json.string?]

/-- In an object with metadata, the identity is written in members. -/
theorem textAt_eq (hobject : r.object.isObject = true) (hmeta : r.HasMetadata) {path : List String}
    (hpath : path ∈ identityPaths) :
    Json.textAt path r.object = ((memberAt? path r.object).bind Json.string?).getD "" := by
  obtain ⟨v⟩ := r
  obtain ⟨md, hmd⟩ := hmeta
  cases v with
  | object ms =>
    replace hmd : Table.get? "metadata" ms = some (.object md) := hmd
    simp only [identityPaths, requiredPaths, List.cons_append, List.nil_append, List.mem_cons,
      List.not_mem_nil, or_false] at hpath
    rcases hpath with rfl | rfl | rfl | rfl <;>
      simp [Json.textAt, Json.at?, Json.step?, memberAt?, Json.member?, hmd]
  | _ => cases hobject

theorem IsValid.isObject (h : r.IsValid) : r.object.isObject = true := by
  obtain ⟨s, -, hs⟩ := h.apiVersion
  obtain ⟨v⟩ := r
  cases v with
  | object ms => rfl
  | _ => cases hs

theorem IsValid.hasMetadata (h : r.IsValid) : r.HasMetadata :=
  let ⟨ms, hms, _⟩ := h.metadata
  ⟨ms, hms⟩

/-- To be valid is to have the required texts. -/
theorem isValid_iff_memberAt? : r.IsValid ↔
    ∀ p ∈ requiredPaths, ∃ s, s ≠ "" ∧ memberAt? p r.object = some (.string s) := by
  simp only [requiredPaths, List.forall_mem_cons, List.not_mem_nil, false_implies, implies_true,
    and_true, memberAt?]
  constructor
  · rintro ⟨hversion, hkind, ms, hms, s, hs, hname⟩
    refine ⟨by simpa using hversion, by simpa using hkind, s, hs, ?_⟩
    rw [hms, Option.bind_some, Json.member?, hname, Option.bind_some]
  · rintro ⟨hversion, hkind, s, hs, hname⟩
    refine ⟨by simpa using hversion, by simpa using hkind, ?_⟩
    obtain ⟨m, hm, hname⟩ := Option.bind_eq_some_iff.mp hname
    cases m with
    | object ms => exact ⟨ms, hm, s, hs, by simpa [Json.member?] using hname⟩
    | _ => cases hname

/-- For an object with metadata, the texts may be asked for in the way in which they are checked. -/
theorem isValid_iff_textAt (hobject : r.object.isObject = true) (hmeta : r.HasMetadata) :
    r.IsValid ↔ ∀ p ∈ requiredPaths, Json.textAt p r.object ≠ "" := by
  rw [isValid_iff_memberAt?]
  refine forall₂_congr fun p hp => ?_
  rw [textAt_eq hobject hmeta (List.mem_append_left _ hp), textOf_ne_empty_iff]

/-- A value is a resource if, and only if, it is an object with what makes up the identity. -/
theorem ofJson_eq_ok_iff {v : Json} : ofJson v = .ok r ↔ r.object = v ∧ r.IsValid := by
  constructor
  · intro h
    have hmeta := hasMetadata_of_ofJson h
    simp only [ofJson] at h
    split at h
    · cases h
    · next hobject =>
      split at h
      · cases h
      · next htypes =>
        split at h
        · cases h
        · next hname =>
          cases h
          -- all checks have been passed, so no text of the identity is empty
          obtain ⟨hversion, hkind⟩ := not_or.mp htypes
          refine ⟨rfl, (isValid_iff_textAt (by simpa using hobject) hmeta).mpr ?_⟩
          simpa [requiredPaths, apiVersion, kind, name] using
            And.intro hversion (And.intro hkind hname)
  · rintro ⟨rfl, h⟩
    have htexts := (isValid_iff_textAt h.isObject h.hasMetadata).mp h
    have htypes : ¬(r.apiVersion = "" ∨ r.kind = "") :=
      not_or.mpr ⟨htexts _ (by simp [requiredPaths]), htexts _ (by simp [requiredPaths])⟩
    have hname : ¬r.name = "" := htexts _ (by simp [requiredPaths])
    rw [ofJson]
    simp only [h.isObject, Bool.not_true, Bool.false_eq_true, if_false]
    rw [if_neg htypes, if_neg hname]
    rfl

/-- The resources that are read: values, manifests, and items of lists. -/
inductive IsRead : Resource → Prop
  | json {v : Json} {r : Resource} (read : ofJson v = .ok r) : IsRead r
  | yaml {bytes : List UInt8} {r : Resource} (read : ofYaml bytes = .ok r) : IsRead r
  | item {apiVersion kind : String} {v : Json} {r : Resource}
      (read : ofItem apiVersion kind v = .ok r) : IsRead r

theorem IsRead.isValid (h : r.IsRead) : r.IsValid := by
  cases h with
  | json read => exact (ofJson_eq_ok_iff.mp read).2
  | yaml read =>
    rw [ofYaml] at read
    split at read
    · exact (ofJson_eq_ok_iff.mp read).2
    · cases read
  | item read => exact (ofJson_eq_ok_iff.mp read).2

/-- The identity, and whether a resource is valid, depend on some members only. -/
theorem IsValid.of_memberAt? (h : r.IsValid)
    (hsame : ∀ p ∈ identityPaths, memberAt? p r'.object = memberAt? p r.object) :
    r'.IsValid ∧ SameIdentity r r' := by
  have hvalid : r'.IsValid := by
    refine isValid_iff_memberAt?.mpr fun p hp => ?_
    rw [hsame p (List.mem_append_left _ hp)]
    exact isValid_iff_memberAt?.mp h p hp
  -- the texts of the identity are those of the members
  have htext : ∀ p ∈ identityPaths, Json.textAt p r'.object = Json.textAt p r.object := by
    intro p hp
    rw [textAt_eq hvalid.isObject hvalid.hasMetadata hp, textAt_eq h.isObject h.hasMetadata hp,
      hsame p hp]
  have hversion : r'.apiVersion = r.apiVersion := htext ["apiVersion"] (by decide)
  have hkind : r'.kind = r.kind := htext ["kind"] (by decide)
  have hname : r'.name = r.name := htext ["metadata", "name"] (by decide)
  have hspace : r'.space? = r.space? := by
    rw [space?, space?, htext ["metadata", "namespace"] (by decide)]
  have hgroupKind : r'.groupKind = r.groupKind := by
    rw [Resource.groupKind, Resource.groupKind, hversion, hkind]
  have hkey : r'.key = r.key := by
    rw [Resource.key, Resource.key, hspace, hname]
  refine ⟨hvalid, hgroupKind, ?_, hkey, ?_⟩
  · rw [Resource.version, Resource.version, hversion]
  · rw [Resource.display, Resource.display, hgroupKind, hkey]

/-! ### Changes -/

/-- A change to a resource. -/
inductive Edit where
  | annotate (key value : String)
  | unannotate (key : String)
  | setCondition (c : Condition)
  | dropServerFields
deriving DecidableEq, Repr

def Edit.apply (r : Resource) : Edit → Resource
  | .annotate key value => r.annotate key value
  | .unannotate key => r.unannotate key
  | .setCondition c => r.setCondition c
  | .dropServerFields => r.withoutServerFields

/-- A resource after some changes. -/
def edited (r : Resource) (edits : List Edit) : Resource := edits.foldl Edit.apply r

/-- What a change is for, and that nothing else is changed by it. -/
def Edit.Effect (r r' : Resource) : Edit → Prop
  | .annotate key value =>
    r'.annotation? key = some value ∧ SameBut ["metadata", "annotations", key] r.object r'.object
  | .unannotate key =>
    r'.isAnnotated key = false ∧
      r'.annotationsValue? = r.annotationsValue?.map (·.removeMember key) ∧
        SameBut ["metadata", "annotations", key] r.object r'.object
  | .setCondition c =>
    -- other conditions stay where they are, and so does whatever else is in the list
    memberAt? ["status", "conditions"] r'.object = some (.array
        (((((memberAt? ["status", "conditions"] r.object).bind Json.array?).getD []).filter
          fun v => !isConditionOf c.type v) ++ [c.toJson])) ∧
      SameBut ["status", "conditions"] r.object r'.object
  | .dropServerFields =>
    (∀ f ∈ serverFields, memberAt? ["metadata", f] r'.object = none) ∧
      ∀ p, (∀ f ∈ serverFields, IsApart p ["metadata", f]) →
        memberAt? p r'.object = memberAt? p r.object

theorem memberAt?_objectMember {p : List String} (hp : p ≠ []) (name : String) (v : Json) :
    memberAt? p (objectMember name v) = (v.member? name).bind (memberAt? p) := by
  obtain ⟨key, p, rfl⟩ := List.exists_cons_of_ne_nil hp
  rw [objectMember]
  cases v.member? name with
  | none => rfl
  | some m => cases m <;> rfl

theorem sameBut_set (r : Resource) (key value : String) :
    SameBut ["metadata", "annotations", key] r.object (r.annotate key value).object := by
  refine Json.sameBut_modifyMember (f := fun m => m.setMember "annotations"
    ((objectMember "annotations" m).setMember key (.string value))) (fun m => ?_) r.object
  refine Json.sameBut_setMember fun p hp => ?_
  have hne : p ≠ [] := fun hnil => Json.not_isApart_nil (hnil ▸ hp)
  rw [Json.sameBut_setMember_self _ _ p hp, memberAt?_objectMember hne]

theorem sameBut_remove (r : Resource) (key : String) :
    SameBut ["metadata", "annotations", key] r.object (r.unannotate key).object :=
  Json.sameBut_modifyMember (Json.sameBut_modifyMember Json.sameBut_removeMember) r.object

theorem sameBut_setCondition (r : Resource) (c : Condition) :
    SameBut ["status", "conditions"] r.object (r.setCondition c).object := by
  refine Json.sameBut_setMember fun p hp => ?_
  have hne : p ≠ [] := fun hnil => Json.not_isApart_nil (hnil ▸ hp)
  rw [Json.sameBut_setMember_self _ _ p hp, memberAt?_objectMember hne]

theorem memberAt?_withoutServerFields {p : List String}
    (h : ∀ f ∈ serverFields, IsApart p ["metadata", f]) (r : Resource) :
    memberAt? p r.withoutServerFields.object = memberAt? p r.object := by
  cases p with
  | nil => exact absurd (h "uid" (by decide)) Json.not_isApart_nil
  | cons key p =>
    rw [withoutServerFields, memberAt?, memberAt?, Json.member?_modifyMember]
    by_cases hkey : key = "metadata"
    · have hp : ∀ f ∈ serverFields, IsApart p [f] := fun f hf =>
        (Json.isApart_cons_iff.mp (h f hf)).resolve_left (not_not_intro hkey)
      cases r.object.member? key with
      | none => rfl
      | some m => simpa [hkey] using Json.memberAt?_removeMembers hp m
    · simp [hkey]

/-- No change touches the identity. -/
theorem Edit.memberAt?_apply (e : Edit) (r : Resource) :
    ∀ p ∈ identityPaths, memberAt? p (e.apply r).object = memberAt? p r.object := by
  intro p hp
  have hpaths : p = ["apiVersion"] ∨ p = ["kind"] ∨ p = ["metadata", "name"] ∨
      p = ["metadata", "namespace"] := by
    simpa [identityPaths, requiredPaths] using hp
  -- each change stays on a path that ends somewhere else
  cases e with
  | annotate key value =>
    refine sameBut_set r key value p ?_
    rcases hpaths with rfl | rfl | rfl | rfl <;> simp
  | unannotate key =>
    refine sameBut_remove r key p ?_
    rcases hpaths with rfl | rfl | rfl | rfl <;> simp
  | setCondition c =>
    refine sameBut_setCondition r c p ?_
    rcases hpaths with rfl | rfl | rfl | rfl <;> simp
  | dropServerFields =>
    refine memberAt?_withoutServerFields ?_ r
    rcases hpaths with rfl | rfl | rfl | rfl <;> simp [serverFields]

/-- A valid resource stays valid, and stays what it is. -/
theorem IsValid.edited (h : r.IsValid) (edits : List Edit) :
    (r.edited edits).IsValid ∧ SameIdentity r (r.edited edits) := by
  induction edits using List.reverseRecOn with
  | nil => exact ⟨h, rfl, rfl, rfl, rfl⟩
  | append_singleton edits e ih =>
    obtain ⟨hvalid, hsame⟩ := ih
    have hlast : r.edited (edits ++ [e]) = e.apply (r.edited edits) := by
      rw [Resource.edited, List.foldl_append]
      rfl
    obtain ⟨hvalid', hsame'⟩ := hvalid.of_memberAt? (e.memberAt?_apply (r.edited edits))
    rw [hlast]
    exact ⟨hvalid', hsame.trans hsame'⟩

/-! ### What changes are for -/

/-- A condition that was set is the last one, and the only one of its type. -/
theorem IsValid.conditions_setCondition (h : r.IsValid) (c : Condition) :
    memberAt? ["status", "conditions"] (r.setCondition c).object = some (.array
      (((((memberAt? ["status", "conditions"] r.object).bind Json.array?).getD []).filter
        fun v => !isConditionOf c.type v) ++ [c.toJson])) := by
  have hold : memberAt? ["status", "conditions"] r.object
      = (objectMember "status" r.object).member? "conditions" := by
    have hinside := memberAt?_objectMember (p := ["conditions"]) (by simp) "status" r.object
    rw [memberAt?, ← hinside]
    simp [memberAt?]
  -- the status is made an object before anything is written to it
  obtain ⟨status, hstatus⟩ : ∃ status, objectMember "status" r.object = .object status := by
    rw [objectMember]
    split <;> exact ⟨_, rfl⟩
  obtain ⟨ms, hms⟩ : ∃ ms, r.object = .object ms := by
    have hobject := h.isObject
    cases hv : r.object with
    | object ms => exact ⟨ms, rfl⟩
    | _ =>
      rw [hv] at hobject
      cases hobject
  rw [hold, setCondition]
  simp only [hstatus, memberAt?]
  simp only [hms, Json.setMember, Json.member?, Table.get?_put_self, Option.bind_some, arrayMember]

/-- Fields that a server fills in are dropped. -/
theorem memberAt?_serverField (r : Resource) {f : String} (hf : f ∈ serverFields) :
    memberAt? ["metadata", f] r.withoutServerFields.object = none := by
  rw [withoutServerFields, memberAt?, Json.member?_modifyMember]
  cases r.object.member? "metadata" with
  | none => rfl
  | some m => simp [memberAt?, Json.member?_removeMembers_of_mem hf]

theorem IsValid.effect (h : r.IsValid) (e : Edit) : e.Effect r (e.apply r) := by
  cases e with
  | annotate key value =>
    exact ⟨h.hasMetadata.annotation?_set key value, sameBut_set r key value⟩
  | unannotate key =>
    exact ⟨isAnnotated_unannotate r key, annotationsValue?_remove r key,
      sameBut_remove r key⟩
  | setCondition c => exact ⟨h.conditions_setCondition c, sameBut_setCondition r c⟩
  | dropServerFields =>
    exact ⟨fun f hf => memberAt?_serverField r hf, fun p hp => memberAt?_withoutServerFields hp r⟩

/-- What is the case after any changes to a resource. -/
structure IsKept (r r' : Resource) : Prop where
  valid : r'.IsValid
  identity : SameIdentity r r'
  /-- Read again, it is the same resource. -/
  reread : ofJson r'.object = .ok r'
  /-- No further change is in vain, and none goes too far. -/
  effect : ∀ e : Edit, e.Effect r' (e.apply r')

theorem identity_is_kept (h : r.IsRead) (edits : List Edit) : IsKept r (r.edited edits) :=
  have ⟨hvalid, hsame⟩ := h.isValid.edited edits
  ⟨hvalid, hsame, ofJson_eq_ok_iff.mpr ⟨rfl, hvalid⟩, hvalid.effect⟩

namespace Sample

/-- A resource with texts in place of its annotations and its status. -/
def widget : Resource :=
  ⟨.ofEntries [("apiVersion", .string "example.io/v1"), ("kind", .string "Widget"),
    ("metadata", .ofEntries [("name", .string "w1"), ("uid", .string "0a4a1c0e"),
      ("annotations", .string "none")]), ("status", .string "unknown")]⟩

def edits : List Edit :=
  [.annotate "team" "platform", .dropServerFields, .setCondition (.plain "Ready" true),
    .unannotate "team"]

end Sample

theorem identity_is_kept_sample :
    ofJson Sample.widget.object = .ok Sample.widget ∧
      (Sample.widget.edited Sample.edits).display = "Widget.example.io w1" ∧
        ofJson (Sample.widget.edited Sample.edits).object
          = .ok (Sample.widget.edited Sample.edits) := by
  have hread : ofJson Sample.widget.object = .ok Sample.widget := rfl
  have hdisplay : Sample.widget.display = "Widget.example.io w1" := by decide +kernel
  have hkept := identity_is_kept (.json hread) Sample.edits
  exact ⟨hread, hkept.identity.display.trans hdisplay, hkept.reread⟩

end PlaneRestore.Resource
