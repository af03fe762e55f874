import PlaneRestore.Proofs.Json.Ordered
import PlaneRestore.Proofs.Outcome
import PlaneRestore.Shape
/-!
What is read from a document.

`Gives P x`: whatever the reading `x` gives is in `P`. There is a rule for each way to put readings
together; by these, `isOrdered_of_ofYamlText`: a value that is read from a text is ordered.
-/

namespace PlaneRestore.Yaml

variable {α β : Type}

/-- Whatever a reading gives is in `P`. -/
def Gives (P : α → Prop) (x : Read α) : Prop := ∀ s a s', x s = .ok (a, s') → P a

namespace Gives

variable {P : α → Prop} {Q : β → Prop}

theorem pure {a : α} (h : P a) : Gives P (pure a : Read α) := by
  rintro s _ _ ⟨⟩
  exact h

theorem throw (e : Error) : Gives P (throw e : Read α) := by
  rintro s _ _ ⟨⟩

theorem bind {x : Read α} {f : α → Read β} (hx : Gives P x) (hf : ∀ a, P a → Gives Q (f a)) :
    Gives Q (x >>= f) := by
  intro s b s' h
  have hrun : (x s >>= fun p => f p.1 p.2) = .ok (b, s') := h
  cases hxs : x s with
  | error e =>
    rw [hxs] at hrun
    cases hrun
  | ok p =>
    rw [hxs] at hrun
    exact hf p.1 (hx s p.1 p.2 hxs) p.2 b s' hrun

/-- Whatever comes first, if nothing is said about it. -/
theorem after {x : Read α} {f : α → Read β} (hf : ∀ a, Gives Q (f a)) : Gives Q (x >>= f) :=
  bind (P := fun _ => True) (fun _ _ _ _ => trivial) fun a _ => hf a

theorem locate {x : Read α} (r : Reading) (mark : Mark) (hx : Gives P x) :
    Gives P (r.locate mark x) := by
  intro s a s' h
  refine hx s a s' ?_
  rw [Reading.locate] at h
  split at h
  · cases h
  · exact h

theorem items {read : Reading → Node → Read α} (h : ∀ r n, Gives P (read r n)) (r : Reading)
    (i : Nat) (ns : List Node) : Gives (fun vs => ∀ v ∈ vs, P v) (r.items read i ns) := by
  induction ns generalizing i with
  | nil => exact pure fun v hv => nomatch hv
  | cons n ns ih =>
    rw [Reading.items]
    refine bind (h _ n) fun v hv => bind (ih (i + 1)) fun vs hvs => pure ?_
    exact List.forall_mem_cons.mpr ⟨hv, hvs⟩

theorem entries {next : α → String → Reading × Node → Read α}
    (h : ∀ acc name v, P acc → Gives P (next acc name v)) (r : Reading) (expected : String)
    {acc : α} (hacc : P acc) (es : List (Node × Node)) :
    Gives P (r.entries expected next acc es) := by
  induction es generalizing acc with
  | nil => exact pure hacc
  | cons e es ih =>
    obtain ⟨k, v⟩ := e
    have step : Gives P (do
        let name ← Reading.text expected Except.ok r k
        let acc ← next acc name (r.valueOf k, v)
        Reading.entries r expected next acc es) :=
      .after fun name => .bind (h acc name _ hacc) fun acc hacc => ih hacc
    unfold Reading.entries
    cases k with
    | cut => exact .throw _
    | _ => exact step

end Gives

/-- The values of scalars have no keys. -/
theorem isOrdered_of_jsonOf {s : Scalar} {v : Json} (h : Reading.jsonOf s = .ok v) :
    v.isOrdered = true := by
  cases s with
  | wide n => cases h
  | float x =>
    rw [Reading.jsonOf] at h
    cases h
    split <;> rfl
  | _ =>
    cases h
    rfl

/-- One level of a value, if the levels below are ordered. -/
theorem gives_value_of {depth : Nat}
    (ih : ∀ d, depth = d + 1 →
      ∀ r n, Gives (fun v => v.isOrdered = true) (Reading.value d r n))
    (r : Reading) (n : Node) : Gives (fun v => v.isOrdered = true) (Reading.value depth r n) := by
  rw [Reading.value]
  refine .after fun n => .locate _ _ ?_
  cases n with
  | scalar m a tag t style =>
    dsimp only
    split
    · exact .throw _
    · cases h : Reading.scalarValue tag t style >>= Reading.jsonOf with
      | error e => exact .throw _
      | ok v =>
        obtain ⟨s, -, hs⟩ := bind_eq_ok_iff.mp h
        exact .pure (isOrdered_of_jsonOf hs)
  | sequence m a tag ns =>
    dsimp only
    split
    · exact .throw _
    · cases depth with
      | zero => exact .throw _
      | succ depth =>
        exact .bind (.items (ih depth rfl) r 0 ns) fun vs hvs =>
          .pure (Json.isOrdered_array_iff.mpr hvs)
  | mapping m a tag es =>
    dsimp only
    split
    · exact .throw _
    · cases depth with
      | zero => exact .throw _
      | succ depth =>
        -- entries are put into a table one by one, whose keys stay in order
        have put : ∀ (ms : List (String × Json)) (name : String) (v : Reading × Node),
            (Json.object ms).isOrdered = true →
            Gives (fun ms => (Json.object ms).isOrdered = true) (do
              let v ← Reading.value depth v.1 v.2
              return Table.put name v ms : Read (List (String × Json))) := by
          intro ms name v hms
          obtain ⟨hkeys, hvalues⟩ := Json.isOrdered_object_iff.mp hms
          refine .bind (ih depth rfl v.1 v.2) fun x hx => .pure ?_
          exact Json.isOrdered_object_iff.mpr
            ⟨Table.ordered_put name x hkeys, Table.forall_mem_put hvalues hx⟩
        cases es with
        | nil => exact .pure rfl
        | cons first rest =>
          exact .bind (.entries put r _ rfl _) fun ms hms =>
            .bind (.entries put r _ hms rest) fun ms hms => .pure hms
  | void m => exact .pure rfl
  | reference anchor => exact .throw _
  | cut => exact .throw _

theorem gives_value (depth : Nat) (r : Reading) (n : Node) :
    Gives (fun v => v.isOrdered = true) (Reading.value depth r n) := by
  induction depth generalizing r n with
  | zero => exact gives_value_of (fun d h => by cases h) r n
  | succ depth ih =>
    refine gives_value_of (fun d h => ?_) r n
    cases h
    exact ih

theorem isOrdered_of_ofYamlText {bytes : List UInt8} {v : Json}
    (h : Shape.any.ofYamlText bytes = .ok v) : v.isOrdered = true := by
  obtain ⟨w, hw, h⟩ := bind_eq_ok_iff.mp h
  have hread : w.isOrdered = true := by
    obtain ⟨⟨w', s⟩, hrun, hfst⟩ := bind_eq_ok_iff.mp hw
    cases hfst
    exact gives_value _ _ _ _ _ _ hrun
  split at h
  · cases h
  · split at h
    · cases h
    · cases h
      exact hread

end PlaneRestore.Yaml
