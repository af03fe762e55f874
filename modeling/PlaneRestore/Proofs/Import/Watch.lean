import PlaneRestore.Proofs.Import.Wait
/-!
The course of a wait.

* `AllReady conditions answer`: the answer lists objects, and each of them has each of the
  conditions with the status `True`. `tally_eq_some_iff` says what is counted in any other list.
* `Watch.Course v ts result`: lists are polled, each after a sleep, until all objects are ready, or
  until the deadline or a cancellation comes.
* `Watch.course_of_led`: every wait that comes to its end has taken such a course.
-/

namespace PlaneRestore

open Words

namespace Resource

variable {conditions : List String} {r : Resource}

/-- Whether the conditions of an object can be read. -/
def IsReadable (r : Resource) : Prop := ∃ cs, r.conditions = .ok cs

/-- Whether an object has each of the conditions with the status `True`. -/
def IsReady (conditions : List String) (r : Resource) : Prop :=
  ∃ cs, r.conditions = .ok cs ∧ ∀ type ∈ conditions, ∃ c ∈ cs, c.type = type ∧ c.status = "True"

theorem satisfies_eq_ok_iff {b : Bool} :
    r.satisfies conditions = .ok b ↔ r.IsReadable ∧ (b = true ↔ r.IsReady conditions) := by
  have hall : ∀ cs, r.conditions = .ok cs →
      ((conditions.all fun type => cs.any fun c => c.type = type && c.isTrue) = true ↔
        r.IsReady conditions) := by
    intro cs hcs
    simp [IsReady, hcs, Condition.isTrue]
  rw [satisfies, bind_eq_ok_iff]
  constructor
  · rintro ⟨cs, hcs, hb⟩
    cases hb
    exact ⟨⟨cs, hcs⟩, hall cs hcs⟩
  · rintro ⟨⟨cs, hcs⟩, hb⟩
    refine ⟨cs, hcs, congrArg Except.ok ?_⟩
    rw [Bool.eq_iff_iff, hall cs hcs, hb]

theorem IsReady.isReadable (h : r.IsReady conditions) : r.IsReadable := h.imp fun _ hcs => hcs.1

theorem satisfies_eq_ok_true_iff : r.satisfies conditions = .ok true ↔ r.IsReady conditions := by
  rw [satisfies_eq_ok_iff]
  simpa using fun h : r.IsReady conditions => h.isReadable

theorem toOption_satisfies_eq_some_iff {b : Bool} :
    (r.satisfies conditions).toOption = some b ↔
      r.IsReadable ∧ (b = true ↔ r.IsReady conditions) := by
  rw [← satisfies_eq_ok_iff]
  cases r.satisfies conditions <;> simp [Except.toOption]

instance : Decidable (r.IsReady conditions) :=
  decidable_of_iff ((r.satisfies conditions).toOption = some true) <| by
    rw [← satisfies_eq_ok_true_iff]
    cases r.satisfies conditions <;> simp [Except.toOption]

end Resource

/-- Whether an answer lists objects that are all ready. -/
def AllReady (conditions : List String) (answer : Except ClientError (List Resource)) : Prop :=
  ∃ rs, answer = .ok rs ∧ ∀ r ∈ rs, r.IsReady conditions

/-- The verdicts on some objects, if there is one on each of them. -/
theorem mapM_satisfies_eq_some_iff {conditions : List String} {rs : List Resource}
    {vs : List Bool} :
    (rs.mapM fun r => (r.satisfies conditions).toOption) = some vs ↔
      (∀ r ∈ rs, r.IsReadable) ∧ vs = rs.map fun r => decide (r.IsReady conditions) := by
  induction rs generalizing vs with
  | nil => simp [eq_comm]
  | cons r rs ih =>
    simp only [List.mapM_cons, Option.bind_eq_bind, Option.bind_eq_some_iff, Option.pure_def,
      Option.some.injEq, ih, Resource.toOption_satisfies_eq_some_iff, List.forall_mem_cons,
      List.map_cons]
    constructor
    · rintro ⟨b, ⟨hread, hb⟩, vs, ⟨hreads, rfl⟩, rfl⟩
      refine ⟨⟨hread, hreads⟩, ?_⟩
      rw [List.cons.injEq, Bool.eq_iff_iff, hb, decide_eq_true_iff]
      exact ⟨Iff.rfl, rfl⟩
    · rintro ⟨⟨hread, hreads⟩, rfl⟩
      exact ⟨_, ⟨hread, decide_eq_true_iff⟩, _, ⟨hreads, rfl⟩, rfl⟩

/-- What is counted in a list. -/
theorem tally_eq_some_iff {conditions : List String}
    {answer : Except ClientError (List Resource)} {satisfied total : Nat} :
    tally conditions answer = some (satisfied, total) ↔
      ∃ rs, answer = .ok rs ∧ (∀ r ∈ rs, r.IsReadable) ∧
        satisfied = rs.countP (fun r => r.IsReady conditions) ∧ total = rs.length := by
  cases answer with
  | error e => simp [tally, Except.toOption]
  | ok rs =>
    have hlisted : (Except.ok rs : Except ClientError (List Resource)).toOption = some rs := rfl
    simp only [tally, hlisted, Option.bind_eq_bind, Option.bind_some, Option.bind_eq_some_iff,
      Option.pure_def, Option.some.injEq, Prod.mk.injEq, mapM_satisfies_eq_some_iff,
      Except.ok.injEq]
    -- counting answers is counting objects
    have hcount : (rs.map fun r => decide (r.IsReady conditions)).count true =
        rs.countP fun r => r.IsReady conditions := by
      rw [List.count, List.countP_map]
      exact List.countP_congr fun r _ => by simp
    constructor
    · rintro ⟨-, ⟨hreads, rfl⟩, rfl, rfl⟩
      exact ⟨rs, rfl, hreads, hcount, rfl⟩
    · rintro ⟨_, rfl, hreads, rfl, rfl⟩
      exact ⟨_, ⟨hreads, rfl⟩, hcount, rfl⟩

/-- Nothing is counted if a list has failed, or one of its objects cannot be read. -/
theorem tally_eq_none {conditions : List String} {answer : Except ClientError (List Resource)}
    (h : ∀ rs, answer = .ok rs → ∃ r ∈ rs, ¬r.IsReadable) : tally conditions answer = none := by
  cases htally : tally conditions answer with
  | none => rfl
  | some counts =>
    obtain ⟨rs, hlisted, hreads, -⟩ := tally_eq_some_iff.mp htally
    obtain ⟨r, hr, hnot⟩ := h rs hlisted
    exact absurd (hreads r hr) hnot

theorem allReady_iff_tally {conditions : List String}
    {answer : Except ClientError (List Resource)} :
    AllReady conditions answer ↔ ∃ n, tally conditions answer = some (n, n) := by
  rw [← Work.allSatisfy_iff_tally]
  simp [AllReady, AllSatisfy, Resource.satisfies_eq_ok_true_iff]

namespace Watch

variable {v : Watch} {m m' : Memory} {ts : Turns}

/-- A poll. -/
abbrev listing (v : Watch) (reply : Reply (Except ClientError (List Resource))) :
    Dialogue.Turn Question Question.Answer :=
  ⟨.guarded (.list v.mapping) (some v.deadline), reply⟩

/-- A sleep before a poll. -/
abbrev sleeping (moment : Nat) (reply : Option Nat) : Dialogue.Turn Question Question.Answer :=
  ⟨.sleepUntil moment, reply⟩

/-- The news after a poll that has not ended the wait: none if there was nothing to count. -/
def newsAfter (v : Watch) (answer : Except ClientError (List Resource)) : Turns :=
  match tally v.conditions answer with
  | some (satisfied, total) => [⟨.report (.update (v.news satisfied total)), ()⟩]
  | none => []

theorem led_poll {result : Except ImportError Bool}
    (h : v.poll.Led m ts (some (result, m'))) :
    m' = m ∧ ((ts = [v.listing .cancelled] ∧ result = .error .cancelled) ∨
      (ts = [v.listing .late] ∧ result = .error v.timeout) ∨
        ∃ answer,
          (AllReady v.conditions answer ∧ ts = [v.listing (.answered answer)] ∧
            result = .ok true) ∨
          (¬AllReady v.conditions answer ∧
            ts = v.listing (.answered answer) :: v.newsAfter answer ∧ result = .ok false)) := by
  rw [poll] at h
  obtain ⟨reply, us, rfl, hrest⟩ := Work.led_ask_bind_some h
  cases reply with
  | cancelled =>
    obtain ⟨rfl, hr⟩ := Work.led_done_some hrest
    cases hr
    exact ⟨rfl, .inl ⟨rfl, rfl⟩⟩
  | late =>
    obtain ⟨rfl, hr⟩ := Work.led_done_some hrest
    cases hr
    exact ⟨rfl, .inr (.inl ⟨rfl, rfl⟩)⟩
  -- a list that counts for nothing, one in which all objects are ready, or news of the others
  | answered answer =>
    dsimp only at hrest
    cases htally : tally v.conditions answer with
    | none =>
      have hnot : ¬AllReady v.conditions answer := by simp [allReady_iff_tally, htally]
      have hnews : v.newsAfter answer = [] := by rw [newsAfter, htally]
      rw [htally] at hrest
      obtain ⟨rfl, hr⟩ := Work.led_done_some hrest
      cases hr
      exact ⟨rfl, .inr (.inr ⟨answer, .inr ⟨hnot, by rw [hnews], rfl⟩⟩)⟩
    | some counts =>
      obtain ⟨satisfied, total⟩ := counts
      rw [htally] at hrest
      by_cases heq : satisfied = total
      · have hready : AllReady v.conditions answer :=
          allReady_iff_tally.mpr ⟨total, by rw [htally, heq]⟩
        simp only [heq, if_true] at hrest
        obtain ⟨rfl, hr⟩ := Work.led_done_some hrest
        cases hr
        exact ⟨rfl, .inr (.inr ⟨answer, .inl ⟨hready, rfl, rfl⟩⟩)⟩
      · have hnot : ¬AllReady v.conditions answer := by
          rw [allReady_iff_tally, htally]
          rintro ⟨n, hn⟩
          cases hn
          exact heq rfl
        have hnews : v.newsAfter answer = [⟨.report (.update (v.news satisfied total)), ()⟩] := by
          rw [newsAfter, htally]
        simp only [heq, if_false] at hrest
        obtain ⟨⟨⟩, us, rfl, hdone⟩ := Work.led_ask_bind_some hrest
        obtain ⟨rfl, hr⟩ := Work.led_done_some hdone
        cases hr
        exact ⟨rfl, .inr (.inr ⟨answer, .inr ⟨hnot, by rw [hnews], rfl⟩⟩)⟩

/-! ### Polls one after another -/

/-- Lists are polled, each after a sleep, until one of them is as it should be, or until the
deadline or a cancellation comes. -/
inductive Course (v : Watch) : Turns → Except ImportError Unit → Prop
  | cancelledAsleep {moment : Nat} (h : moment ≤ v.deadline) :
      Course v [sleeping moment none] (.error .cancelled)
  | overslept {moment now : Nat} (h : moment ≤ v.deadline)
      (hlate : moment = v.deadline ∨ v.deadline ≤ now) :
      Course v [sleeping moment (some now)] (.error v.timeout)
  | cancelled {moment now : Nat} (hnow : now < v.deadline) :
      Course v [sleeping moment (some now), v.listing .cancelled] (.error .cancelled)
  | late {moment now : Nat} (hnow : now < v.deadline) :
      Course v [sleeping moment (some now), v.listing .late] (.error v.timeout)
  | passed {moment now : Nat} {answer : Except ClientError (List Resource)}
      (hnow : now < v.deadline) (hready : AllReady v.conditions answer) :
      Course v [sleeping moment (some now), v.listing (.answered answer)] (.ok ())
  | goesOn {moment now : Nat} {answer : Except ClientError (List Resource)} {ts : Turns}
      {result : Except ImportError Unit} (hnow : now < v.deadline)
      (hnot : ¬AllReady v.conditions answer) (rest : Course v ts result) :
      Course v (sleeping moment (some now) :: v.listing (.answered answer) ::
        (v.newsAfter answer ++ ts)) result

/-- A wait that comes to its end takes such a course. -/
theorem course_of_led {tick : Nat} {result : Except ImportError Unit}
    (h : (v.pollFrom tick).Led m ts (some (result, m'))) : v.Course ts result ∧ m' = m := by
  -- by what is left of the time until the deadline
  induction tick using Watch.pollFrom.induct v generalizing m ts with
  | case1 tick ih =>
    rw [pollFrom] at h
    obtain ⟨reply, us, rfl, hrest⟩ := Work.led_ask_bind_some h
    have hmoment : min tick v.deadline ≤ v.deadline := Nat.min_le_right _ _
    cases reply with
    | none =>
      obtain ⟨rfl, hr⟩ := Work.led_done_some hrest
      cases hr
      exact ⟨.cancelledAsleep hmoment, rfl⟩
    | some now =>
      dsimp only at hrest
      split at hrest
      · next hnow =>
        rcases Work.led_bind_some hrest with
          ⟨e, rfl, hpoll⟩ | ⟨ready, m₁, us, vs, rfl, hpoll, hgo⟩
        · obtain ⟨rfl, ⟨rfl, he⟩ | ⟨rfl, he⟩ | ⟨answer, ⟨-, -, he⟩ | ⟨-, -, he⟩⟩⟩ := led_poll hpoll
          · cases he
            exact ⟨.cancelled hnow.2, rfl⟩
          · cases he
            exact ⟨.late hnow.2, rfl⟩
          · cases he
          · cases he
        · obtain ⟨rfl, ⟨-, he⟩ | ⟨-, he⟩ | ⟨answer, ⟨hready, rfl, he⟩ | ⟨hnot, rfl, he⟩⟩⟩ :=
            led_poll hpoll
          · cases he
          · cases he
          · cases he
            obtain ⟨rfl, hr⟩ := Work.led_done_some hgo
            cases hr
            exact ⟨.passed hnow.2 hready, rfl⟩
          · cases he
            obtain ⟨hcourse, rfl⟩ := ih now hnow hgo
            exact ⟨.goesOn hnow.2 hnot hcourse, rfl⟩
      · next hlate =>
        obtain ⟨rfl, hr⟩ := Work.led_done_some hrest
        cases hr
        exact ⟨.overslept hmoment (by omega), rfl⟩

/-! ### What follows from what -/

namespace Course

variable {result : Except ImportError Unit} {answer : Except ClientError (List Resource)}
  {us vs : Turns}

theorem head (h : v.Course ts result) : ∃ moment reply us, ts = sleeping moment reply :: us := by
  cases h <;> exact ⟨_, _, _, rfl⟩

/-- What follows the news was there before them. -/
theorem suffix_of_newsAfter {reply : Reply (Except ClientError (List Resource))}
    (h : v.listing reply :: vs <:+ v.newsAfter answer ++ ts) : v.listing reply :: vs <:+ ts := by
  rw [newsAfter] at h
  split at h
  · rw [List.singleton_append, List.suffix_cons_iff] at h
    rcases h with h | h
    · cases h
    · exact h
  · exact h

/-- A wait ends with the first list that is as it should be, and goes on after any other. -/
theorem follows (h : v.Course ts result) (hpoll : v.listing (.answered answer) :: vs <:+ ts) :
    (AllReady v.conditions answer ∧ vs = [] ∧ result = .ok ()) ∨
      (¬AllReady v.conditions answer ∧
        ∃ moment reply us, vs = v.newsAfter answer ++ sleeping moment reply :: us) := by
  induction h with
  | cancelledAsleep | overslept | cancelled | late => simp [List.suffix_cons_iff] at hpoll
  | passed hnow hready =>
    simp only [List.suffix_cons_iff, List.cons.injEq, Sigma.mk.injEq, reduceCtorEq, false_and,
      false_or, true_and, heq_eq_eq, Reply.answered.injEq, List.suffix_nil, or_false] at hpoll
    obtain ⟨rfl, rfl⟩ := hpoll
    exact .inl ⟨hready, rfl, rfl⟩
  | goesOn hnow hnot rest ih =>
    simp only [List.suffix_cons_iff, List.cons.injEq, Sigma.mk.injEq, reduceCtorEq, false_and,
      false_or, true_and, heq_eq_eq, Reply.answered.injEq] at hpoll
    rcases hpoll with ⟨rfl, rfl⟩ | hlater
    -- a list that is not as it should be is followed by its news, and then by a sleep
    · obtain ⟨moment, reply, us, rfl⟩ := rest.head
      exact .inr ⟨hnot, moment, reply, us, rfl⟩
    · exact ih (suffix_of_newsAfter hlater)

theorem callLog_newsAfter (v : Watch) (answer : Except ClientError (List Resource)) :
    callLog (v.newsAfter answer) = [] := by
  rw [newsAfter]
  split <;> rfl

/-- A wait succeeds with its last list, and there was none before that it could have succeeded
with. -/
theorem ready_of_ok (h : v.Course ts (.ok ())) :
    ∃ log answer, callLog ts = log ++ [⟨.list v.mapping, some answer⟩] ∧
      AllReady v.conditions answer ∧
        ∀ e ∈ log, ∃ answer', e = ⟨.list v.mapping, some answer'⟩ ∧
          ¬AllReady v.conditions answer' := by
  generalize hr : Except.ok () = result at h
  induction h with
  | cancelledAsleep | overslept | cancelled | late => cases hr
  | passed hnow hready => exact ⟨[], _, rfl, hready, fun _ he => nomatch he⟩
  | @goesOn moment now answer ts result _ hnot _ ih =>
    obtain ⟨log, last, hlog, hready, hunready⟩ := ih hr
    refine ⟨⟨.list v.mapping, some answer⟩ :: log, last, ?_, hready, ?_⟩
    -- of a round only the list is a call
    · have hpoll : callLog [sleeping moment (some now), v.listing (.answered answer)] =
          [⟨.list v.mapping, some answer⟩] := rfl
      show callLog ([sleeping moment (some now), v.listing (.answered answer)] ++
        (v.newsAfter answer ++ ts)) = _
      rw [callLog_append, callLog_append, hpoll, callLog_newsAfter, hlog]
      rfl
    · exact List.forall_mem_cons.mpr ⟨⟨answer, rfl, hnot⟩, hunready⟩

/-- News are told right after a list of which not all objects are ready, and count its objects. -/
theorem news {news : Progress} (h : v.Course ts result)
    (hnews : ts = us ++ ⟨.report news, ()⟩ :: vs) :
    ∃ us' answer satisfied total, us = us' ++ [v.listing (.answered answer)] ∧
      tally v.conditions answer = some (satisfied, total) ∧ ¬AllReady v.conditions answer ∧
        news = .update (v.news satisfied total) := by
  induction h generalizing us with
  | cancelledAsleep | overslept => simp [List.cons_eq_append_iff] at hnews
  | cancelled | late | passed => simp [List.cons_eq_append_iff] at hnews
  | @goesOn moment now answer ts result _ hnot _ ih =>
    match us, hnews with
    | [], hnews => cases hnews
    | [_], hnews => cases hnews
    | _ :: _ :: us, hnews =>
      simp only [List.cons_append, List.cons.injEq] at hnews
      obtain ⟨rfl, rfl, hnews⟩ := hnews
      -- news of a later round come after a list of that round
      have hearlier : ∀ us, ts = us ++ ⟨.report news, ()⟩ :: vs → ∀ before : Turns,
          ∃ us' answer satisfied total, before ++ us = us' ++ [v.listing (.answered answer)] ∧
            tally v.conditions answer = some (satisfied, total) ∧
              ¬AllReady v.conditions answer ∧ news = .update (v.news satisfied total) := by
        intro us hts before
        obtain ⟨us', answer, satisfied, total, rfl, hrest⟩ := ih hts
        exact ⟨before ++ us', answer, satisfied, total, by simp, hrest⟩
      rw [newsAfter] at hnews
      split at hnews
      · next satisfied total htally =>
        cases us with
        | nil =>
          cases hnews
          exact ⟨[_], answer, satisfied, total, rfl, htally, hnot, rfl⟩
        | cons _ us =>
          obtain ⟨rfl, hlater⟩ := List.cons.inj hnews
          exact hearlier us hlater [_, _, _]
      · exact hearlier us hnews [_, _]

end Course

end Watch

end PlaneRestore
