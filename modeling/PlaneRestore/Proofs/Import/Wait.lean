import PlaneRestore.Proofs.Import.Group
/-!
What is said in a wait.

`Work.speaks_waitFor`: the kind is looked up, and its objects are listed again and again. Only the
last list is one in which all objects satisfy the conditions, and a wait that succeeds ends with it.
-/

namespace PlaneRestore

open Words
open scoped Computability

namespace Work

variable {s : ExportedState} {m : Memory}

/-- As many objects satisfy the conditions as there are if, and only if, each of them does. -/
theorem count_eq_length_iff {g : Resource → Option Bool} {rs : List Resource} :
    (∃ vs, rs.mapM g = some vs ∧ vs.count true = rs.length) ↔ ∀ r ∈ rs, g r = some true := by
  have hlen : ∀ {rs : List Resource} {vs}, rs.mapM g = some vs → vs.length = rs.length := by
    intro rs
    induction rs with
    | nil => simp
    | cons r rs ih =>
      intro vs h
      simp only [List.mapM_cons, Option.bind_eq_bind, Option.bind_eq_some_iff, Option.pure_def,
        Option.some.injEq] at h
      obtain ⟨v, -, vs', hvs, rfl⟩ := h
      simp [ih hvs]
  induction rs with
  | nil => simp
  | cons r rs ih =>
    simp only [List.forall_mem_cons, ← ih, List.mapM_cons, Option.bind_eq_bind,
      Option.bind_eq_some_iff, Option.pure_def, Option.some.injEq, List.length_cons]
    constructor
    · rintro ⟨-, ⟨v, hv, vs, hvs, rfl⟩, hcount⟩
      have hle := List.count_le_length (a := true) (l := vs)
      rw [hlen hvs] at hle
      cases v with
      | true => exact ⟨hv, vs, hvs, by simpa using hcount⟩
      | false =>
        -- one that does not satisfy them leaves the count short
        rw [List.count_cons_of_ne (by simp)] at hcount
        omega
    · rintro ⟨hv, vs, hvs, hcount⟩
      exact ⟨true :: vs, ⟨true, hv, vs, hvs, rfl⟩, by simp [hcount]⟩

theorem allSatisfy_iff_tally {conditions : List String}
    {answer : Except ClientError (List Resource)} :
    AllSatisfy conditions answer ↔ ∃ n, tally conditions answer = some (n, n) := by
  cases answer with
  | error e => simp [AllSatisfy, tally, Except.toOption]
  | ok rs =>
    have hsat : ∀ r : Resource, (r.satisfies conditions).toOption = some true ↔
        r.satisfies conditions = .ok true := by
      intro r
      cases r.satisfies conditions <;> simp [Except.toOption]
    have hall : AllSatisfy conditions (.ok rs) ↔
        ∀ r ∈ rs, (r.satisfies conditions).toOption = some true := by
      simp [AllSatisfy, hsat]
    -- all satisfy the conditions if as many do as there are
    rw [hall, ← count_eq_length_iff]
    simp only [tally, Except.toOption, Option.bind_eq_bind, Option.bind_some,
      Option.bind_eq_some_iff, Option.pure_def, Option.some.injEq, Prod.mk.injEq]
    constructor
    · rintro ⟨vs, hvs, hcount⟩
      exact ⟨_, vs, hvs, hcount, rfl⟩
    · rintro ⟨n, vs, hvs, rfl, hlen⟩
      exact ⟨vs, hvs, hlen.symm⟩

theorem mem_kstar_mul_of_mem {l r : Language LoggedCall} {u v : List LoggedCall} (hu : u ∈ l)
    (hv : v ∈ l∗ * r) : u ++ v ∈ l∗ * r := by
  rw [← Language.one_add_self_mul_kstar_eq_kstar, add_mul, mul_assoc]
  exact .inr (Language.append_mem_mul hu hv)

theorem speaks_poll (w : Watch) :
    Speaks s w.poll m fun done m' v => m' = m ∧ v ∈ answered (.list w.mapping) fun a =>
      AllSatisfy w.conditions a ↔ done = true := by
  rw [Watch.poll]
  refine speaks_guarded_bind ⟨.ok [], true, m, [], rfl, .ok [], ?_, rfl⟩ fun reply => ?_
  · simp [AllSatisfy]
  · cases reply with
    | cancelled => exact .inl ⟨_, rfl⟩
    | late => exact .inl ⟨_, rfl⟩
    | answered a =>
      refine .inr ⟨a, rfl, ?_⟩
      cases htally : tally w.conditions a with
      -- a poll whose answer cannot be judged counts as one where not all are ready
      | none =>
        simp only [htally]
        refine .pure ⟨rfl, a, ?_, rfl⟩
        simp [allSatisfy_iff_tally, htally]
      | some counts =>
        obtain ⟨n, k⟩ := counts
        simp only [htally]
        split
        · next heq =>
          refine .pure ⟨rfl, a, ?_, rfl⟩
          simp [allSatisfy_iff_tally, htally, heq]
        · next hne =>
          refine speaks_report.bind_silent fun _ m' hm => ?_
          cases hm
          refine .pure ⟨rfl, a, ?_, rfl⟩
          simp [allSatisfy_iff_tally, htally]
          omega

theorem speaks_pollFrom (w : Watch) (tick : Nat) :
    Speaks s (w.pollFrom tick) m fun _ m' v => m' = m ∧
      v ∈ (answered (.list w.mapping) (¬AllSatisfy w.conditions ·))∗
        * answered (.list w.mapping) (AllSatisfy w.conditions) := by
  have hlast : ∀ v ∈ answered (.list w.mapping) (AllSatisfy w.conditions),
      v ∈ (answered (.list w.mapping) (¬AllSatisfy w.conditions ·))∗
        * answered (.list w.mapping) (AllSatisfy w.conditions) :=
    fun v hv => Language.append_mem_mul (Language.nil_mem_kstar _) hv
  have hpossible : [⟨.list w.mapping, some (.ok [])⟩] ∈
      answered (.list w.mapping) (AllSatisfy w.conditions) := ⟨.ok [], ⟨[], rfl, by simp⟩, rfl⟩
  -- by what is left of the time until the deadline
  induction tick using Watch.pollFrom.induct w with
  | case1 tick ih =>
    rw [Watch.pollFrom]
    refine (speaks_ask none (fun _ => by simp) fun _ => rfl).bind_silent ?_
    intro now m' hm
    cases hm
    cases now with
    | none => exact .throw ⟨(), m, _, rfl, hlast _ hpossible⟩
    | some now =>
      simp only
      split
      · next hnow =>
        refine (speaks_poll w).bind fun done m' u hu => ?_
        obtain ⟨rfl, hu⟩ := hu
        cases done with
        | true =>
          refine .pure ⟨rfl, ?_⟩
          rw [List.append_nil]
          exact hlast u (by simpa using hu)
        | false =>
          refine (ih now hnow).mono fun _ m'' v hv => ?_
          obtain ⟨rfl, hv⟩ := hv
          exact ⟨rfl, mem_kstar_mul_of_mem (by simpa using hu) hv⟩
      · exact .throw ⟨(), m, _, rfl, hlast _ hpossible⟩

theorem speaks_waitFor (settings : WaitSettings) (kind : GroupKind) (conditions : List String) :
    Speaks s (waitFor settings kind conditions) m fun _ m' w =>
      m' = m ∧ w ∈ waiting (kind, conditions) := by
  simp only [waitFor, orClient_eq]
  rw [← bind_assoc]
  refine (speaks_answered (.mappingForKind kind) id _
    (.ok default) rfl).bind fun mapping m' u hu => ?_
  obtain ⟨rfl, hu⟩ := hu
  refine (speaks_ask 0 (fun _ => by simp) fun _ => rfl).bind_silent fun start m'' hm => ?_
  cases hm
  refine (speaks_pollFrom _ start).mono fun _ m'' v hv => ?_
  obtain ⟨rfl, hv⟩ := hv
  refine ⟨rfl, Language.mem_iSup.mpr ⟨mapping, ?_⟩⟩
  rw [mul_assoc]
  exact Language.append_mem_mul hu hv

end Work

end PlaneRestore
