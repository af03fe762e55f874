import PlaneRestore.Proofs.Resource.Identity
import PlaneRestore.Proofs.Shape
import PlaneRestore.Simulation.MemoryPlane
/-!
Setting conditions, and asking for them.

* `Resource.conditionItems` are the values in the list of conditions. A condition is written there
  as an object, or as the array of its fields; `Resource.WritesOut` says that all conditions of a
  type are written as objects.
* `Resource.IsValid.satisfies_setCondition`: what the conditions of a resource satisfy after one was
  set. Whatever is said by an array stays.
* `Resource.setCondition_replaces_iff`: the new condition stands in place of those of its type if,
  and only if, these are written as objects.
-/

namespace PlaneRestore

open Json (memberAt?)

/-! ### How a condition is written -/

namespace Condition

variable {v : Json} {c : Condition}

/-- A condition reads back as it is. -/
theorem ofJson_toJson (c : Condition) : shape.ofJson c.toJson = .ok c := by
  obtain ⟨type, status, reason | _, message | _, time | _⟩ := c <;> rfl

/-- The type of a condition that is written as an object is the text of a member. -/
theorem get?_type_of_ofJson {ms : List (String × Json)} (h : shape.ofJson (.object ms) = .ok c) :
    Table.get? "type" ms = some (.string c.type) := by
  obtain ⟨j, type, others, hget, htype, rfl⟩ := Fields.get?_of_ofJson_object h
  rw [hget, Shape.text_ofJson_eq_ok_iff.mp htype]

/-- Of the values that are read as conditions, those are taken to be of a type that are so and are
written as objects. -/
theorem isConditionOf_of_ofJson (h : shape.ofJson v = .ok c) (type : String) :
    Resource.isConditionOf type v = (v.isObject && decide (c.type = type)) := by
  cases v with
  | object ms =>
    simp [Resource.isConditionOf, Json.member?, get?_type_of_ofJson h, Json.string?, Json.isObject]
  | _ => rfl

end Condition

/-- Whether a condition of a type that holds is written as an array. -/
def Json.isTrueListed (type : String) (v : Json) : Bool :=
  !v.isObject && (Condition.shape.ofJson v).toOption.any fun c => c.type = type && c.isTrue

namespace Resource

variable {r : Resource} {cs : List Condition} {c : Condition} {type : String}

/-- The values in the list of conditions. -/
def conditionItems (r : Resource) : List Json :=
  ((memberAt? ["status", "conditions"] r.object).bind Json.array?).getD []

/-- All conditions of a type are written as objects. -/
def WritesOut (r : Resource) (type : String) : Prop :=
  ∀ v ∈ r.conditionItems, ∀ c, Condition.shape.ofJson v = .ok c → c.type = type → v.isObject = true

/-! ### Reading the conditions -/

/-- No condition is found inside an array: the name of the list is no index. -/
theorem IsValid.at?_conditions (h : r.IsValid) :
    r.object.at? ["status", "conditions"] = memberAt? ["status", "conditions"] r.object := by
  have hindex : Json.index? "conditions" = none := by decide +kernel
  have hobject := h.isObject
  cases hr : r.object with
  | object ms =>
    cases hstatus : Table.get? "status" ms with
    | none => simp [Json.at?, Json.step?, memberAt?, Json.member?, hstatus]
    | some status =>
      cases status <;> simp [Json.at?, Json.step?, memberAt?, Json.member?, hstatus, hindex]
  | _ =>
    rw [hr] at hobject
    cases hobject

/-- The conditions that are read are those of the list, one after another. -/
theorem IsValid.forall₂_of_conditions (h : r.IsValid) (hcs : r.conditions = .ok cs) :
    List.Forall₂ (fun v c => Condition.shape.ofJson v = .ok c) r.conditionItems cs := by
  rw [Resource.conditions, h.at?_conditions] at hcs
  rw [conditionItems]
  cases hlist : memberAt? ["status", "conditions"] r.object with
  | none =>
    rw [hlist] at hcs
    cases hcs
    exact .nil
  | some v =>
    rw [hlist] at hcs
    cases v with
    | null =>
      cases hcs
      exact .nil
    | array items => exact mapM_eq_ok_iff.mp hcs
    | _ => cases hcs

theorem IsValid.conditions_of_items (h : r.IsValid) {items : List Json}
    (hitems : memberAt? ["status", "conditions"] r.object = some (.array items)) :
    r.conditions = items.mapM Condition.shape.ofJson := by
  rw [Resource.conditions, h.at?_conditions, hitems]
  rfl

theorem satisfies_of_conditions (hcs : r.conditions = .ok cs) (types : List String) :
    r.satisfies types = .ok (types.all fun type => cs.any fun c => c.type = type && c.isTrue) := by
  rw [satisfies, hcs]
  rfl

/-! ### What is left after a condition was set -/

theorem IsValid.setCondition (h : r.IsValid) (c : Condition) : (r.setCondition c).IsValid :=
  (h.edited [.setCondition c]).1

theorem IsValid.conditionItems_setCondition (h : r.IsValid) (c : Condition) :
    (r.setCondition c).conditionItems
      = r.conditionItems.filter (fun v => !isConditionOf c.type v) ++ [c.toJson] := by
  rw [conditionItems, h.conditions_setCondition]
  rfl

/-- The conditions that are not taken to be of the type of the one that is set. -/
def remaining (r : Resource) (cs : List Condition) (type : String) : List Condition :=
  ((r.conditionItems.zip cs).filter fun p => !isConditionOf type p.1).map (·.2)

theorem forall₂_filter {R : Json → Condition → Prop} {items : List Json} {p : Json → Bool}
    (h : List.Forall₂ R items cs) :
    List.Forall₂ R (items.filter p) (((items.zip cs).filter fun e => p e.1).map (·.2)) := by
  induction h with
  | nil => exact .nil
  | @cons v c items cs hfirst _ ih =>
    rw [List.zip_cons_cons]
    cases hp : p v with
    | true =>
      rw [List.filter_cons_of_pos hp, List.filter_cons_of_pos (by exact hp)]
      exact .cons hfirst ih
    | false =>
      rw [List.filter_cons_of_neg (by simp [hp]), List.filter_cons_of_neg (by simp [hp])]
      exact ih

/-- After a condition was set, there are those that remain, and the new one at the end. -/
theorem IsValid.conditions_setCondition_eq (h : r.IsValid) (hcs : r.conditions = .ok cs)
    (c : Condition) :
    (r.setCondition c).conditions = .ok (r.remaining cs c.type ++ [c]) := by
  have hlist := h.conditions_setCondition c
  rw [(h.setCondition c).conditions_of_items hlist, mapM_eq_ok_iff]
  exact List.rel_append (forall₂_filter (h.forall₂_of_conditions hcs))
    (.cons c.ofJson_toJson .nil)

/-- What remains of a list of conditions are those of other types, and those of the type that are
written as arrays. -/
theorem IsValid.any_remaining (h : r.IsValid) (hcs : r.conditions = .ok cs) (type u : String) :
    ((r.remaining cs type).any fun c => c.type = u && c.isTrue) =
      if u = type then r.conditionItems.any (Json.isTrueListed u)
      else cs.any fun c => c.type = u && c.isTrue := by
  have hread := h.forall₂_of_conditions hcs
  clear hcs
  rw [remaining]
  generalize r.conditionItems = items at hread
  -- item by item: a condition of the type remains if it is no object, every other one in any case
  induction hread with
  | nil => simp
  | @cons v c items cs hv _ ih =>
    have hkept := Condition.isConditionOf_of_ofJson hv type
    have hlisted : v.isTrueListed u = (!v.isObject && (decide (c.type = u) && c.isTrue)) := by
      simp [Json.isTrueListed, hv, Except.toOption]
    rw [List.zip_cons_cons, List.filter_cons, List.any_cons, List.any_cons, hlisted, hkept]
    by_cases hu : u = type
    · subst hu
      rw [if_pos rfl] at ih ⊢
      rw [← ih]
      cases v.isObject <;> by_cases hc : c.type = u <;> simp [hc]
    · rw [if_neg hu] at ih ⊢
      rw [← ih]
      by_cases hc : c.type = type
      · cases v.isObject <;> simp [hc, Ne.symm hu]
      · simp [hc]

/-- No condition of a type remains if, and only if, all of them are written as objects. -/
theorem IsValid.remaining_eq_filter_iff (h : r.IsValid) (hcs : r.conditions = .ok cs)
    (type : String) :
    r.remaining cs type = cs.filter (fun c => c.type ≠ type) ↔ r.WritesOut type := by
  have hread := h.forall₂_of_conditions hcs
  clear hcs
  rw [remaining, WritesOut]
  generalize r.conditionItems = items at hread
  induction hread with
  | nil => simp
  | @cons v c items cs hv _ ih =>
    have hkept := Condition.isConditionOf_of_ofJson hv type
    simp only [List.forall_mem_cons, hv, Except.ok.injEq, forall_eq', ← ih]
    rw [List.zip_cons_cons, List.filter_cons, List.filter_cons, hkept]
    by_cases hc : c.type = type
    · cases v.isObject with
      | true => simp [hc]
      | false =>
        -- the condition is left, which is not among those of other types
        simp only [hc, Bool.false_and, Bool.not_false, if_true, List.map_cons, ne_eq,
          not_true_eq_false, decide_false, Bool.false_eq_true, if_false, forall_const, false_and,
          iff_false]
        intro heq
        have hmem := heq ▸ List.mem_cons_self
        simp [hc] at hmem
    · simp [hc]

/-! ### What is satisfied after a condition was set -/

/-- Whether conditions hold after one was set: for its own type this is what the new one says,
unless an array says that the condition holds. -/
theorem IsValid.satisfies_setCondition (h : r.IsValid) (hcs : r.conditions = .ok cs) (c : Condition)
    (types : List String) :
    (r.setCondition c).satisfies types = .ok (types.all fun u =>
      if u = c.type then c.isTrue || r.conditionItems.any (Json.isTrueListed u)
      else cs.any fun d => d.type = u && d.isTrue) := by
  rw [satisfies_of_conditions (h.conditions_setCondition_eq hcs c)]
  congr 2
  funext u
  rw [List.any_append, h.any_remaining hcs, List.any_cons, List.any_nil, Bool.or_false]
  by_cases hu : u = c.type
  · simp [hu, Bool.or_comm]
  · simp [hu, Ne.symm hu]

/-- What is listed in arrays stays. -/
theorem IsValid.any_isTrueListed_setCondition (h : r.IsValid) (c : Condition) (u : String) :
    (r.setCondition c).conditionItems.any (Json.isTrueListed u)
      = r.conditionItems.any (Json.isTrueListed u) := by
  have hnew : c.toJson.isTrueListed u = false := rfl
  rw [h.conditionItems_setCondition, List.any_append, List.any_filter, List.any_cons, hnew,
    List.any_nil, Bool.or_false, Bool.or_false]
  congr 1
  funext v
  cases v with
  | object ms => simp [Json.isTrueListed, Json.isObject]
  | _ => simp [isConditionOf, Json.member?]

theorem WritesOut.any_isTrueListed (h : r.WritesOut type) :
    r.conditionItems.any (Json.isTrueListed type) = false := by
  rw [List.any_eq_false]
  intro v hv
  cases hread : Condition.shape.ofJson v with
  | error e => simp [Json.isTrueListed, hread, Except.toOption]
  | ok c =>
    by_cases hc : c.type = type
    · simp [Json.isTrueListed, h v hv c hread hc]
    · simp [Json.isTrueListed, hread, Except.toOption, hc]

/-- A condition that holds goes on to hold when others are set to hold. -/
theorem IsValid.satisfies_foldl (h : r.IsValid) (hcs : r.conditions = .ok cs)
    (types : List String) :
    (types.foldl (fun r type => r.setCondition (.plain type true)) r).satisfies types
      = .ok true := by
  -- whatever has been set before the last one holds still, since only `True` is set
  suffices hall : ∃ ds, (types.foldl (fun r type => r.setCondition (.plain type true)) r).conditions
      = .ok ds ∧ ∀ type ∈ types, (ds.any fun d => d.type = type && d.isTrue) = true by
    obtain ⟨ds, hds, hany⟩ := hall
    rw [satisfies_of_conditions hds, List.all_eq_true.mpr hany]
  suffices hvalid : (types.foldl (fun r type => r.setCondition (.plain type true)) r).IsValid ∧
      ∃ ds, (types.foldl (fun r type => r.setCondition (.plain type true)) r).conditions = .ok ds ∧
        ∀ type ∈ types, (ds.any fun d => d.type = type && d.isTrue) = true from hvalid.2
  induction types using List.reverseRecOn with
  | nil => exact ⟨h, cs, hcs, by simp⟩
  | append_singleton types last ih =>
    obtain ⟨hvalid, ds, hds, hany⟩ := ih
    rw [List.foldl_append, List.foldl_cons, List.foldl_nil]
    refine ⟨hvalid.setCondition _, _, hvalid.conditions_setCondition_eq hds _, ?_⟩
    intro type htype
    rw [List.any_append, hvalid.any_remaining hds]
    by_cases hlast : type = last
    · subst hlast
      simp [Condition.plain, Condition.isTrue]
    · have hbefore : type ∈ types := by simpa [hlast] using htype
      simp [Condition.plain, hlast, hany type hbefore]

/-- An object that a plane stores is as ready as the plane makes the objects of its kind. -/
theorem IsValid.satisfies_stored (h : r.IsValid) (hcs : r.conditions = .ok cs) (p : MemoryPlane)
    (k : GroupKind) :
    (p.stored k r).satisfies ((Table.get? k p.readyOnCreate).getD []) = .ok true :=
  h.satisfies_foldl hcs _

/-! ### What it is to replace a condition -/

/-- A condition that is set stands in place of those of its type, and is seen to. -/
structure Replaces (r : Resource) (cs : List Condition) (c : Condition) : Prop where
  conditions : (r.setCondition c).conditions = .ok (cs.filter (fun d => d.type ≠ c.type) ++ [c])
  /-- The answer for the type is what the new condition says. -/
  own : (r.setCondition c).satisfies [c.type] = .ok c.isTrue
  others (types : List String) (hothers : c.type ∉ types) :
    (r.setCondition c).satisfies types = r.satisfies types
  commutes (d : Condition) (hd : d.type ≠ c.type) (types : List String) :
    ((r.setCondition c).setCondition d).satisfies types
      = ((r.setCondition d).setCondition c).satisfies types
  ready (types : List String) :
    (types.foldl (fun r type => r.setCondition (.plain type true)) r).satisfies types = .ok true

theorem IsValid.satisfies_setCondition_of_notMem (h : r.IsValid) (hcs : r.conditions = .ok cs)
    {types : List String} (hothers : c.type ∉ types) :
    (r.setCondition c).satisfies types = r.satisfies types := by
  rw [h.satisfies_setCondition hcs, satisfies_of_conditions hcs]
  refine congrArg Except.ok (Bool.eq_iff_iff.mpr ?_)
  rw [List.all_eq_true, List.all_eq_true]
  refine forall₂_congr fun u hu => ?_
  have hne : u ≠ c.type := fun heq => hothers (heq ▸ hu)
  rw [if_neg hne]

/-- It does not matter which of two conditions is set first. -/
theorem IsValid.satisfies_setCondition_comm (h : r.IsValid) (hcs : r.conditions = .ok cs)
    {d : Condition} (hd : d.type ≠ c.type) (types : List String) :
    ((r.setCondition c).setCondition d).satisfies types
      = ((r.setCondition d).setCondition c).satisfies types := by
  have hc := h.conditions_setCondition_eq hcs c
  have hd' := h.conditions_setCondition_eq hcs d
  rw [(h.setCondition c).satisfies_setCondition hc, (h.setCondition d).satisfies_setCondition hd']
  congr 2
  funext u
  simp only [h.any_isTrueListed_setCondition, List.any_append, h.any_remaining hcs]
  by_cases huc : u = c.type
  · subst huc
    simp [Ne.symm hd, Bool.or_comm]
  · by_cases hud : u = d.type
    · subst hud
      simp [hd, Bool.or_comm]
    · simp [huc, hud, Ne.symm huc, Ne.symm hud]

/-- A condition that is set replaces those of its type if, and only if, all of them are written as
objects: the others are not recognized, and stay. -/
theorem setCondition_replaces_iff (h : r.IsValid) (hcs : r.conditions = .ok cs) (c : Condition) :
    Replaces r cs c ↔ r.WritesOut c.type := by
  have hset := h.conditions_setCondition_eq hcs c
  constructor
  · rintro ⟨hconditions, -, -, -, -⟩
    rw [hset, Except.ok.injEq, List.append_cancel_right_eq] at hconditions
    exact (h.remaining_eq_filter_iff hcs c.type).mp hconditions
  · intro hout
    constructor
    case conditions => rw [hset, (h.remaining_eq_filter_iff hcs c.type).mpr hout]
    case own =>
      rw [h.satisfies_setCondition hcs]
      simp [hout.any_isTrueListed]
    case others => exact fun types hothers => h.satisfies_setCondition_of_notMem hcs hothers
    case commutes => exact fun d hd types => h.satisfies_setCondition_comm hcs hd types
    case ready => exact h.satisfies_foldl hcs

namespace Sample

/-- A widget with some conditions in its status. -/
def widgetWith (conditions : List Json) : Resource :=
  ⟨.ofEntries [("apiVersion", .string "example.io/v1"), ("kind", .string "XWidget"),
    ("metadata", .ofEntries [("name", .string "w1")]),
    ("status", .ofEntries [("conditions", .array conditions)])]⟩

/-- One condition is written as an object, the other one as an array. -/
def mixed : Resource :=
  widgetWith [.ofEntries [("type", .string "Ready"), ("status", .string "True")],
    .array [.string "Healthy", .string "True"]]

def unready : Condition := .plain "Ready" false

def unhealthy : Condition := .plain "Healthy" false

end Sample

theorem isValid_widgetWith (conditions : List Json) : (Sample.widgetWith conditions).IsValid :=
  ⟨⟨"example.io/v1", by decide, rfl⟩, ⟨"XWidget", by decide, rfl⟩, _, rfl, "w1", by decide, rfl⟩

theorem setCondition_replaces_iff_sample :
    Replaces Sample.mixed [.plain "Ready" true, .plain "Healthy" true] Sample.unready ∧
      ¬Replaces Sample.mixed [.plain "Ready" true, .plain "Healthy" true] Sample.unhealthy := by
  have hvalid : Sample.mixed.IsValid := isValid_widgetWith _
  have hcs : Sample.mixed.conditions = .ok [.plain "Ready" true, .plain "Healthy" true] := rfl
  have hitems : Sample.mixed.conditionItems =
      [.ofEntries [("type", .string "Ready"), ("status", .string "True")],
        .array [.string "Healthy", .string "True"]] := rfl
  refine ⟨(setCondition_replaces_iff hvalid hcs Sample.unready).mpr ?_, fun h => ?_⟩
  · rw [WritesOut, hitems, List.forall_mem_cons, List.forall_mem_singleton]
    refine ⟨fun _ _ _ => rfl, fun c hc htype => ?_⟩
    -- the condition in the array is of the other type
    cases hc
    exact absurd htype (by decide)
  · have hout := (setCondition_replaces_iff hvalid hcs Sample.unhealthy).mp h
    rw [WritesOut, hitems, List.forall_mem_cons, List.forall_mem_singleton] at hout
    cases hout.2 _ rfl rfl

/-- A condition that is written as an array outlives the one that was set in its place, and the
object passes for healthy. -/
theorem setCondition_keeps_array :
    let r := Sample.widgetWith [.array [.string "Healthy", .string "True"]]
    r.IsValid ∧ r.conditions = .ok [.plain "Healthy" true] ∧
      (r.setCondition Sample.unhealthy).conditions
        = .ok [.plain "Healthy" true, .plain "Healthy" false] ∧
      (r.setCondition Sample.unhealthy).satisfies ["Healthy"] = .ok true ∧
      ¬Replaces r [.plain "Healthy" true] Sample.unhealthy := by
  refine ⟨isValid_widgetWith _, rfl, rfl, rfl, fun h => ?_⟩
  cases h.own

end Resource

end PlaneRestore
