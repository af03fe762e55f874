import PlaneRestore.Proofs.Import.Watch
import PlaneRestore.Proofs.Plane.Play
import PlaneRestore.Proofs.Simulation.Ends
/-!
The verdict of a wait.

* `Watch.Course.clock`: when a wait ends, by its deadline and by a cancellation.
* `Watch.IsVerdict`: what the turns of a wait, its result and the world at its end have to do with
  each other.
* `wait_ends_with_verdict`: whatever the plane does, every wait comes to its end once its kind has
  been resolved, and with this verdict.
-/

namespace PlaneRestore

variable {σ : Type} {P : Plane σ}

namespace Watch

variable {v : Watch} {ts : Turns} {result : Except ImportError Unit} {w w' : World σ}

/-! ### The moment of the end -/

/-- News take no time. -/
theorem answers_newsAfter {answer : Except ClientError (List Resource)}
    (h : w.Answers P (v.newsAfter answer ++ ts) w') :
    ∃ w₁ : World σ, w₁.clock = w.clock ∧ w₁.cancelledFrom = w.cancelledFrom ∧
      w₁.Answers P ts w' := by
  rw [newsAfter] at h
  split at h
  · cases h with
    | cons first rest =>
      cases first
      exact ⟨w.record _, rfl, rfl, rest⟩
  · exact ⟨w, rfl, rfl, h⟩

/-- Who wakes up of itself was not cancelled. -/
theorem clock_of_woken {moment now : Nat} {w₁ : World σ}
    (h : w.answer P (.sleepUntil moment) = some (some now, w₁)) :
    w₁.clock = now ∧ w₁.clock = max w.clock moment ∧ w₁.isCancelled = false := by
  obtain ⟨-, ⟨hr, -⟩ | ⟨hr, hclock, hcancelled⟩⟩ := World.sleepUntil_cases h
  · cases hr
  · exact ⟨(Option.some.inj hr).symm, hclock, hcancelled⟩

/-- Before a poll, the wait has woken up of itself. -/
theorem answers_poll {moment now : Nat} {reply : Reply (Except ClientError (List Resource))}
    (h : w.Answers P (sleeping moment (some now) :: v.listing reply :: ts) w') :
    ∃ w₁ w₂ : World σ, w₁.clock = now ∧ w₁.OnTime ∧
      w₁.answer P (.guarded (.list v.mapping) (some v.deadline)) = some (reply, w₂) ∧
        w₂.Answers P ts w' := by
  cases h with
  | cons first rest =>
    obtain ⟨hclock, -, hawake⟩ := clock_of_woken first
    cases rest with
    | cons second rest => exact ⟨_, _, hclock, World.onTime_of_not_isCancelled hawake, second, rest⟩

/-- A wait ends by its deadline, and at the moment at which it is cancelled. -/
theorem Course.clock (h : v.Course ts result) (hrun : w.Answers P ts w')
    (hclock : w.clock ≤ v.deadline) (hw : w.OnTime) :
    w'.clock ≤ v.deadline ∧ w'.OnTime ∧
      ∀ e, result = .error e → (e = .cancelled ∧ w'.cancelledFrom = some w'.clock) ∨
        (e = v.timeout ∧ w'.clock = v.deadline ∧ w'.isCancelled = false) := by
  -- round by round: no round is begun after the deadline
  induction h generalizing w with
  | cancelledAsleep hmoment =>
    cases hrun with | cons first rest =>
    cases rest
    obtain ⟨hfrom, ⟨-, t, hle, ht, hend⟩ | ⟨hr, -⟩⟩ := World.sleepUntil_cases first
    · rw [Nat.max_eq_right (hw t ht)] at hend
      have hcancelled : w'.cancelledFrom = some w'.clock := by rw [hfrom, ht, hend]
      refine ⟨?_, fun t' ht' => ?_, ?_⟩
      · omega
      · obtain rfl := Option.some.inj (hcancelled.symm.trans ht')
        exact le_rfl
      · rintro _ ⟨⟩
        exact .inl ⟨rfl, hcancelled⟩
    · cases hr
  | overslept hmoment hlate =>
    cases hrun with | cons first rest =>
    cases rest
    obtain ⟨hnow, hend, hcancelled⟩ := clock_of_woken first
    refine ⟨by omega, World.onTime_of_not_isCancelled hcancelled, ?_⟩
    rintro _ ⟨⟩
    exact .inr ⟨rfl, by omega, hcancelled⟩
  | cancelled hnow =>
    obtain ⟨w₁, w₂, hclock₁, hawake, hpoll, hrest⟩ := answers_poll hrun
    cases hrest
    obtain ⟨honTime, hcancelled, hle⟩ := World.guarded_clock hawake hpoll
    refine ⟨by omega, honTime, ?_⟩
    rintro _ ⟨⟩
    exact .inl ⟨rfl, hcancelled⟩
  | late hnow =>
    obtain ⟨w₁, w₂, hclock₁, hawake, hpoll, hrest⟩ := answers_poll hrun
    cases hrest
    obtain ⟨honTime, hcancelled, hend⟩ := World.guarded_clock hawake hpoll
    refine ⟨by omega, honTime, ?_⟩
    rintro _ ⟨⟩
    exact .inr ⟨rfl, by omega, hcancelled⟩
  | passed hnow hready =>
    obtain ⟨w₁, w₂, -, hawake, hpoll, hrest⟩ := answers_poll hrun
    cases hrest
    obtain ⟨honTime, hlt⟩ := World.guarded_clock hawake hpoll
    exact ⟨hlt.le, honTime, fun _ hr => nomatch hr⟩
  | goesOn hnow hnot _ ih =>
    obtain ⟨w₁, w₂, -, hawake, hpoll, hrest⟩ := answers_poll hrun
    obtain ⟨honTime, hlt⟩ := World.guarded_clock hawake hpoll
    obtain ⟨w₃, hsame, hfrom, hrest⟩ := answers_newsAfter hrest
    -- telling news takes no time
    refine ih hrest (by omega) fun t ht => ?_
    rw [hsame]
    exact honTime t (hfrom.symm.trans ht)

/-! ### The end -/

theorem ends_poll (v : Watch) (w : World σ) (m : Memory) : Work.Ends P w v.poll m := by
  obtain ⟨⟨reply, w₁⟩, hanswer⟩ := World.exists_answer_guarded P w (.list v.mapping) v.deadline
  refine .ask_bind hanswer ?_
  cases reply with
  | cancelled => exact .throw P w₁ _ m
  | late => exact .throw P w₁ _ m
  | answered answer =>
    dsimp only
    split
    · exact .pure P w₁ false m
    · split
      · exact .pure P w₁ true m
      · exact .ask_bind rfl (.pure P _ false m)

theorem ends_pollFrom (v : Watch) (tick : Nat) (w : World σ) (m : Memory) :
    Work.Ends P w (v.pollFrom tick) m := by
  -- by what is left of the time until the deadline
  induction tick using Watch.pollFrom.induct v generalizing w m with
  | case1 tick ih =>
    rw [pollFrom]
    obtain ⟨⟨reply, w₁⟩, hanswer⟩ :
        ∃ p, w.answer P (.sleepUntil (min tick v.deadline)) = some p := ⟨_, rfl⟩
    refine .ask_bind hanswer ?_
    cases reply with
    | none => exact .throw P _ _ m
    | some now =>
      dsimp only
      split
      · next hnow =>
        refine (ends_poll v _ m).bind fun ready m' w' => ?_
        cases ready with
        | true => exact .pure P w' () m'
        | false => exact ih now hnow w' m'
      · exact .throw P _ _ m

/-! ### The verdict -/

/-- The wait for objects of a kind that is served so, if it is begun at a moment. -/
def since (settings : WaitSettings) (kind : GroupKind) (mapping : KindMapping)
    (conditions : List String) (start : Nat) : Watch :=
  { kind, mapping, conditions
    period := settings.effectivePollInterval * 1000
    deadline := start + settings.timeout * 1000
    period_pos := Nat.mul_pos (Nat.le_max_right _ _) (by decide) }

/-- How the turns of a wait and its result go together, if it is begun in the world `w` and has come
to its end in the world `w'`. -/
structure IsVerdict (P : Plane σ) (v : Watch) (w : World σ) (ts : Turns)
    (result : Except ImportError Unit) (w' : World σ) : Prop where
  /-- Success comes with the last list, and with no list before it. -/
  ready_of_ok : result = .ok () →
    ∃ log answer, callLog ts = log ++ [⟨.list v.mapping, some answer⟩] ∧
      AllReady v.conditions answer ∧
        ∀ e ∈ log, ∃ answer', e = ⟨.list v.mapping, some answer'⟩ ∧
          ¬AllReady v.conditions answer'
  /-- A list of which all objects are ready ends the wait at once. -/
  ok_of_ready : ∀ answer vs, v.listing (.answered answer) :: vs <:+ ts →
    AllReady v.conditions answer → vs = [] ∧ result = .ok ()
  /-- A list that is answered before the deadline and before any cancellation is not missed. -/
  heard : ∀ us reply vs, ts = us ++ v.listing reply :: vs → ∃ w₁ : World σ, w.Answers P us w₁ ∧
    (w₁.isCancelled = false → ∀ delay, (w₁.take P (.list v.mapping)).1.latency = some delay →
      w₁.clock + delay < v.deadline →
        (∀ t, (w₁.take P (.list v.mapping)).2.cancelledFrom = some t → w₁.clock + delay < t) →
          ∃ answer, reply = .answered answer)
  /-- After a list that has failed, or of which an object cannot be read, the wait goes on. -/
  ignored : ∀ answer vs, v.listing (.answered answer) :: vs <:+ ts →
    (∀ rs, answer = .ok rs → ∃ r ∈ rs, ¬r.IsReadable) →
      ∃ moment reply us, vs = sleeping moment reply :: us
  /-- After a list of which an object is not ready, the wait goes on with news about it. -/
  counted : ∀ rs vs, v.listing (.answered (.ok rs)) :: vs <:+ ts → (∀ r ∈ rs, r.IsReadable) →
    (∃ r ∈ rs, ¬r.IsReady v.conditions) →
      ∃ moment reply us, vs = ⟨.report (.update (v.news
        (rs.countP fun r => r.IsReady v.conditions) rs.length)), ()⟩ :: sleeping moment reply :: us
  /-- All news are about such lists, and are told right after them. -/
  news : ∀ us news vs, ts = us ++ ⟨.report news, ()⟩ :: vs →
    ∃ us' rs, us = us' ++ [v.listing (.answered (.ok rs))] ∧ (∀ r ∈ rs, r.IsReadable) ∧
      (rs.countP fun r => r.IsReady v.conditions) < rs.length ∧
        news = .update (v.news (rs.countP fun r => r.IsReady v.conditions) rs.length)
  /-- A wait that fails was cancelled at this moment, or its deadline has come. -/
  error : ∀ e, result = .error e → (e = .cancelled ∧ w'.cancelledFrom = some w'.clock) ∨
    (e = v.timeout ∧ w'.clock = v.deadline ∧ w'.isCancelled = false)
  /-- No wait goes beyond its deadline. -/
  inTime : w'.clock ≤ v.deadline
  /-- No wait goes on when it has been cancelled. -/
  onTime : w'.OnTime

theorem Course.isVerdict (h : v.Course ts result) (hrun : w.Answers P ts w')
    (hclock : w.clock ≤ v.deadline) (hw : w.OnTime) : v.IsVerdict P w ts result w' where
  ready_of_ok hr := by
    subst hr
    exact h.ready_of_ok
  ok_of_ready answer vs hpoll hready := by
    rcases h.follows hpoll with ⟨-, hend⟩ | ⟨hnot, -⟩
    · exact hend
    · exact absurd hready hnot
  heard := by
    rintro us reply vs rfl
    obtain ⟨w₁, hbefore, hafter⟩ := World.answers_append_iff.mp hrun
    refine ⟨w₁, hbefore, fun hrunning delay hlatency hdeadline hcancelled => ?_⟩
    cases hafter with
    | cons first _ =>
      refine World.answered_of_inTime first hrunning hlatency ?_ hcancelled
      rintro _ ⟨⟩
      exact hdeadline
  ignored answer vs hpoll hunread := by
    rcases h.follows hpoll with ⟨⟨rs, hlisted, hready⟩, -⟩ | ⟨-, moment, reply, us, rfl⟩
    · obtain ⟨r, hr, hnot⟩ := hunread rs hlisted
      exact absurd (hready r hr).isReadable hnot
    · rw [newsAfter, tally_eq_none hunread]
      exact ⟨moment, reply, us, rfl⟩
  counted rs vs hpoll hreads hunready := by
    rcases h.follows hpoll with ⟨⟨_, ⟨⟩, hready⟩, -⟩ | ⟨-, moment, reply, us, rfl⟩
    · obtain ⟨r, hr, hnot⟩ := hunready
      exact absurd (hready r hr) hnot
    · rw [newsAfter, tally_eq_some_iff.mpr ⟨rs, rfl, hreads, rfl, rfl⟩]
      exact ⟨moment, reply, us, rfl⟩
  news us news vs hnews := by
    -- were as many ready as there are, there would be no news
    obtain ⟨us', answer, satisfied, total, rfl, htally, hnot, rfl⟩ := h.news hnews
    obtain ⟨rs, rfl, hreads, rfl, rfl⟩ := tally_eq_some_iff.mp htally
    refine ⟨us', rs, rfl, hreads, lt_of_le_of_ne List.countP_le_length fun heq => ?_, rfl⟩
    exact hnot (allReady_iff_tally.mpr ⟨rs.length, by rw [htally, heq]⟩)
  error := (h.clock hrun hclock hw).2.2
  inTime := (h.clock hrun hclock hw).1
  onTime := (h.clock hrun hclock hw).2.1

end Watch

/-- **Every wait ends, and with the right verdict.** Whatever the plane answers, however long it
takes and whenever the run is cancelled: once the kind has been resolved, the wait comes to its end,
by its deadline and at the moment of a cancellation at the latest. It succeeds if, and only if, it
gets a list in which all objects have all the conditions, and then with the first one. Lists that
fail or cannot be read count for nothing. -/
theorem wait_ends_with_verdict (P : Plane σ) (settings : WaitSettings) (kind : GroupKind)
    (conditions : List String) (m : Memory) {w w₁ : World σ} {mapping : KindMapping}
    (hresolved : w.answer P (.guarded (.mappingForKind kind) none)
      = some (.answered (.ok mapping), w₁)) :
    ∃ ts result w', (Work.waitFor settings kind conditions).runIn P m w
        = some ((result, m), w') ∧
      (Work.waitFor settings kind conditions).Led m
        (⟨.guarded (.mappingForKind kind) none, .answered (.ok mapping)⟩ ::
          ⟨.now, w₁.clock⟩ :: ts) (some (result, m)) ∧
        w₁.Answers P ts w' ∧
          (Watch.since settings kind mapping conditions w₁.clock).IsVerdict P w₁ ts result w' := by
  obtain ⟨ts, ⟨result, m'⟩, w', hled, hanswers⟩ :=
    Watch.ends_pollFrom (P := P) (Watch.since settings kind mapping conditions w₁.clock) w₁.clock
      w₁ m
  -- the loop ends, and what it has done is one of the courses
  obtain ⟨hcourse, rfl⟩ := Watch.course_of_led hled
  have hall : (Work.waitFor settings kind conditions).Led m'
      (⟨.guarded (.mappingForKind kind) none, .answered (.ok mapping)⟩ ::
        ⟨.now, w₁.clock⟩ :: ts) (some (result, m')) := .turn _ (.turn _ hled)
  refine ⟨ts, result, w', Dialogue.runIn_of_led hall (.cons hresolved (.cons rfl hanswers)), hall,
    hanswers, hcourse.isVerdict hanswers (Nat.le_add_right _ _) ?_⟩
  exact World.onTime_of_answered hresolved

namespace Sample

/-- A provider that is healthy or not. -/
def provider (isHealthy : Bool) : Resource :=
  Resource.setCondition (.plain healthy isHealthy) ⟨.ofEntries
    [("apiVersion", .string "pkg.example.io/v1"), ("kind", .string "Provider"),
      ("metadata", .ofEntries [("name", .string "aws")])]⟩

/-- A world in which the provider becomes healthy after seven seconds. -/
def worldWaiting : World ScriptedPlane :=
  .start ⟨plane.insert (provider false), [], [], none, 0,
    [(7000, fun p => p.insert (provider true))]⟩ fun _ => .absent

def providers : KindMapping := ⟨"pkg.example.io", "v1", "Provider", "providers", false, []⟩

end Sample

open Sample in
theorem wait_ends_with_verdict_sample :
    ∃ ts w₁ w', (Watch.since .default providers.groupKind providers [healthy] 0).IsVerdict scripted
      w₁ ts (.ok ()) w' ∧ w'.clock = 10000 := by
  have hkind : ((worldWaiting.answer scripted
      (.guarded (.mappingForKind providers.groupKind) none)).map fun p => (match p.1 with
        | .answered (.ok mapping) => some mapping
        | .answered (.error _) => none
        | .cancelled => none
        | .late => none, p.2.clock)) = some (some providers, 0) := by
    decide +kernel
  have hrun : ((Work.waitFor .default providers.groupKind [healthy]).runIn scripted .empty
      worldWaiting).map (fun p => (p.1.1.toOption.isSome, p.2.clock)) = some (true, 10000) := by
    decide +kernel
  obtain ⟨⟨reply, w₁⟩, hanswer, hreply⟩ := Option.map_eq_some_iff.mp hkind
  obtain ⟨hmapping, hclock⟩ := Prod.mk.inj hreply
  obtain rfl : reply = .answered (.ok providers) := by
    cases reply with
    | cancelled => cases hmapping
    | late => cases hmapping
    | answered answer =>
      cases answer with
      | error e => cases hmapping
      | ok mapping => rw [Option.some.inj hmapping]
  obtain ⟨ts, result, w', hends, -, -, hverdict⟩ :=
    wait_ends_with_verdict scripted .default providers.groupKind [healthy] .empty hanswer
  rw [hends] at hrun
  obtain ⟨hok, hend⟩ := Prod.mk.inj (Option.some.inj hrun)
  cases result with
  | error e => cases hok
  | ok u =>
    rw [show w₁.clock = 0 from hclock] at hverdict
    exact ⟨ts, w₁, w', hverdict, hend⟩

end PlaneRestore
