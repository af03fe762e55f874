import Mathlib.Algebra.Order.Floor.Div
import PlaneRestore.Proofs.Import.Gate
/-!
The schedule of a wait.

* `Plane.pollState` and `Plane.pollAnswer` are the states of a plane and its answers if its objects
  are listed once in a period.
* `Watch.BeforePoll k`: a wait that has polled `k` times has done so on schedule, and is about to
  sleep until the next poll. `BeforePoll.round` takes it through one more poll, and
  `Watch.runIn_unready` through any number of them.
* `Watch.OnSchedule`: the lists of a wait, its end and its result, for a period and a time in
  seconds. `Watch.Lasts.runIn` finds that a wait is so, and `wait_polls_on_schedule` tells it of all
  waits.
-/

namespace PlaneRestore

variable {σ : Type}

/-! ### Planes that are polled -/

namespace Plane

variable (P : Plane σ) (v : Watch) (start : Nat) (s : σ)

/-- What a plane makes of a list that it answers at once. -/
def listAt (moment : Nat) (s : σ) : Except ClientError (List Resource) × σ :=
  let taken := P.take s moment (.list v.mapping)
  taken.answer taken.plane moment

/-- When the `k`-th poll is due, counted from zero. -/
def pollTime (k : Nat) : Nat := start + k * v.period

/-- The state of a plane after `k` polls. -/
def pollState : Nat → σ
  | 0 => s
  | k + 1 => (P.listAt v (pollTime v start k) (pollState k)).2

/-- The answer of a plane to the `k`-th poll. -/
def pollAnswer (k : Nat) : Except ClientError (List Resource) :=
  (P.listAt v (pollTime v start k) (P.pollState v start s k)).1

/-- All objects are ready at the `k`-th poll. -/
def ReadyAt (k : Nat) : Prop := AllReady v.conditions (P.pollAnswer v start s k)

/-- The `k`-th poll is answered without delay, and does not cancel the run. -/
structure PromptAt (k : Nat) : Prop where
  latency :
    (P.take (P.pollState v start s k) (pollTime v start k) (.list v.mapping)).latency = some 0
  cancels :
    (P.take (P.pollState v start s k) (pollTime v start k) (.list v.mapping)).cancels = false

end Plane

/-- The moment and the call, if one was begun. -/
def Event.timedCall? : Event → Option (Nat × Call)
  | .called moment c => some (moment, c)
  | .reported _ | .extracted _ => none

/-- The calls that the plane has been given, and when. -/
def World.timedCalls (w : World σ) : List (Nat × Call) :=
  w.events.toList.filterMap Event.timedCall?

namespace World

theorem timedCalls_record (w : World σ) (e : Event) :
    (w.record e).timedCalls = w.timedCalls ++ e.timedCall?.toList := by
  rw [timedCalls, timedCalls, record, Array.toList_push, List.filterMap_append]
  cases e <;> rfl

end World

namespace Watch

variable {P : Plane σ} {v : Watch} {start : Nat} {w₀ w : World σ} {k : Nat} {m : Memory}

/-- The first `k` polls of a watch. -/
def polls (v : Watch) (start k : Nat) : List (Nat × Call) :=
  (List.range k).map fun i => (Plane.pollTime v start i, .list v.mapping)

theorem polls_succ (v : Watch) (start k : Nat) :
    v.polls start (k + 1) = v.polls start k ++ [(Plane.pollTime v start k, .list v.mapping)] := by
  simp [polls, List.range_succ]

theorem pollTime_succ (v : Watch) (start k : Nat) :
    Plane.pollTime v start (k + 1) = Plane.pollTime v start k + v.period := by
  simp [Plane.pollTime, Nat.add_mul, Nat.add_assoc]

/-- A wait that was begun in the world `w₀` has polled `k` times on schedule. -/
structure BeforePoll (P : Plane σ) (v : Watch) (start : Nat) (w₀ : World σ) (k : Nat)
    (w : World σ) : Prop where
  plane : w.plane = P.pollState v start w₀.plane k
  timedCalls : w.timedCalls = w₀.timedCalls ++ v.polls start k
  running : w.cancelledFrom = none
  early : w.clock ≤ Plane.pollTime v start k
  inTime : w.clock ≤ v.deadline

/-- News make no difference to the schedule. -/
theorem BeforePoll.told (h : v.BeforePoll P start w₀ k w) (news : Progress) :
    v.BeforePoll P start w₀ k (w.record (.reported news)) where
  plane := h.plane
  timedCalls := by rw [World.timedCalls_record, h.timedCalls, Event.timedCall?, Option.toList_none,
    List.append_nil]
  running := h.running
  early := h.early
  inTime := h.inTime

/-- A poll that is due is answered at once, and the wait is before the next one. -/
theorem BeforePoll.listed (h : v.BeforePoll P start w₀ k w)
    (hprompt : P.PromptAt v start w₀.plane k) (hclock : w.clock = Plane.pollTime v start k)
    (htime : Plane.pollTime v start k < v.deadline) :
    ∃ w₁, w.answer P (.guarded (.list v.mapping) (some v.deadline))
        = some (.answered (P.pollAnswer v start w₀.plane k), w₁) ∧
      v.BeforePoll P start w₀ (k + 1) w₁ ∧ w₁.clock = Plane.pollTime v start k := by
  -- the plane is in the state in which this poll finds it
  have htaken : P.take w.plane w.clock (.list v.mapping)
      = P.take (P.pollState v start w₀.plane k) (Plane.pollTime v start k) (.list v.mapping) := by
    rw [h.plane, hclock]
  have hrunning : w.isCancelled = false := by
    rw [World.isCancelled, World.isCancelledBy, h.running]
  have hearly : ∀ d, some v.deadline = some d → w.clock < d := by
    rintro _ ⟨⟩
    exact hclock ▸ htime
  have hanswer := World.answer_at_once htaken hprompt.latency hprompt.cancels hrunning hearly
  rw [hclock] at hanswer
  refine ⟨_, hanswer, ⟨rfl, ?_, h.running, ?_, ?_⟩, hclock⟩
  · show (w.record _).timedCalls = _
    rw [World.timedCalls_record, h.timedCalls, polls_succ, List.append_assoc]
    rfl
  · show w.clock ≤ _
    rw [hclock, pollTime_succ]
    exact Nat.le_add_right _ _
  · exact (hearly _ rfl).le

theorem BeforePoll.polled (h : v.BeforePoll P start w₀ k w)
    (hprompt : P.PromptAt v start w₀.plane k) (hclock : w.clock = Plane.pollTime v start k)
    (htime : Plane.pollTime v start k < v.deadline) (m : Memory) :
    ∃ ready w₁, v.poll.runIn P m w = some ((.ok ready, m), w₁) ∧
      (ready = true ↔ P.ReadyAt v start w₀.plane k) ∧ v.BeforePoll P start w₀ (k + 1) w₁ ∧
        w₁.clock = Plane.pollTime v start k := by
  obtain ⟨w₁, hanswer, hbefore, hclock⟩ := h.listed hprompt hclock htime
  rw [poll, Work.runIn_ask_bind hanswer, Plane.ReadyAt, allReady_iff_tally]
  dsimp only
  -- all are ready if as many are as there are; otherwise the wait goes on, with news or without
  cases tally v.conditions (P.pollAnswer v start w₀.plane k) with
  | none => exact ⟨false, w₁, rfl, by simp, hbefore, hclock⟩
  | some counts =>
    obtain ⟨satisfied, total⟩ := counts
    by_cases heq : satisfied = total
    · simp only [heq, if_true]
      exact ⟨true, w₁, rfl, by simp, hbefore, hclock⟩
    · simp only [heq, if_false]
      refine ⟨false, _, Work.runIn_ask_bind rfl, iff_of_false Bool.false_ne_true ?_,
        hbefore.told _, hclock⟩
      rintro ⟨n, ⟨⟩⟩
      exact heq rfl

/-- One round of a wait: it sleeps until the next poll, and polls. -/
theorem BeforePoll.round (h : v.BeforePoll P start w₀ k w)
    (hprompt : P.PromptAt v start w₀.plane k) (htime : Plane.pollTime v start k < v.deadline)
    (m : Memory) :
    ∃ w₁, v.BeforePoll P start w₀ (k + 1) w₁ ∧ w₁.clock = Plane.pollTime v start k ∧
      (P.ReadyAt v start w₀.plane k →
        (v.pollFrom (Plane.pollTime v start k)).runIn P m w = some ((.ok (), m), w₁)) ∧
      (¬P.ReadyAt v start w₀.plane k →
        (v.pollFrom (Plane.pollTime v start k)).runIn P m w =
          (v.pollFrom (Plane.pollTime v start (k + 1))).runIn P m w₁) := by
  have hawake : v.BeforePoll P start w₀ k { w with clock := Plane.pollTime v start k } :=
    ⟨h.plane, h.timedCalls, h.running, le_rfl, htime.le⟩
  obtain ⟨ready, w₁, hpoll, hready, hbefore, hclock⟩ := hawake.polled hprompt rfl htime m
  have hsleep := World.answer_sleepUntil (P := P) h.running h.early
  -- a tick that fires when it is due does not put off those after it
  have hnext : nextTick v.period (Plane.pollTime v start k) (Plane.pollTime v start k)
      = Plane.pollTime v start (k + 1) := by
    rw [nextTick, if_neg (by omega), pollTime_succ]
  have hrun : (v.pollFrom (Plane.pollTime v start k)).runIn P m w =
      (if ready then pure () else v.pollFrom (Plane.pollTime v start (k + 1))).runIn P m w₁ := by
    rw [pollFrom, Nat.min_eq_left htime.le, Work.runIn_ask_bind hsleep]
    dsimp only
    rw [dif_pos ⟨htime, htime⟩, Work.runIn_bind_ok hpoll, hnext]
  refine ⟨w₁, hbefore, hclock, fun hr => ?_, fun hr => ?_⟩
  · rw [hrun, if_pos (hready.mpr hr)]
    rfl
  · rw [hrun, if_neg (fun h => hr (hready.mp h))]

/-- A wait that has come to its deadline is over. -/
theorem BeforePoll.over (h : v.BeforePoll P start w₀ k w)
    (htime : v.deadline ≤ Plane.pollTime v start k) (m : Memory) :
    (v.pollFrom (Plane.pollTime v start k)).runIn P m w =
      some ((.error v.timeout, m), { w with clock := v.deadline }) := by
  have hsleep := World.answer_sleepUntil (P := P) h.running h.inTime
  rw [pollFrom, Nat.min_eq_right htime, Work.runIn_ask_bind hsleep]
  dsimp only
  rw [dif_neg (by omega)]
  rfl

/-- A wait polls on schedule until all objects are ready. -/
theorem runIn_unready (w₀ : World σ) (m : Memory) (hrunning : w₀.cancelledFrom = none)
    (hclock : w₀.clock = start) (hstart : start ≤ v.deadline)
    (h : ∀ j < k, Plane.pollTime v start j < v.deadline ∧ P.PromptAt v start w₀.plane j ∧
      ¬P.ReadyAt v start w₀.plane j) :
    ∃ w, v.BeforePoll P start w₀ k w ∧ (v.pollFrom start).runIn P m w₀ =
      (v.pollFrom (Plane.pollTime v start k)).runIn P m w := by
  induction k with
  | zero =>
    refine ⟨w₀, ⟨rfl, by simp [polls], hrunning, by simp [Plane.pollTime, hclock], by omega⟩, ?_⟩
    simp [Plane.pollTime]
  | succ k ih =>
    obtain ⟨w, hbefore, hrun⟩ := ih fun j hj => h j (by omega)
    obtain ⟨htime, hprompt, hunready⟩ := h k (Nat.lt_succ_self k)
    obtain ⟨w₁, hbefore', -, -, hgoes⟩ := hbefore.round hprompt htime m
    exact ⟨w₁, hbefore', hrun.trans (hgoes hunready)⟩

/-- A wait ends with the first list in which all objects are ready. -/
theorem runIn_pollFrom_of_ready (m : Memory) (hrunning : w.cancelledFrom = none)
    (htime : Plane.pollTime v w.clock k < v.deadline)
    (hprompt : ∀ j ≤ k, P.PromptAt v w.clock w.plane j) (hready : P.ReadyAt v w.clock w.plane k)
    (hunready : ∀ j < k, ¬P.ReadyAt v w.clock w.plane j) :
    ∃ w', (v.pollFrom w.clock).runIn P m w = some ((.ok (), m), w') ∧
      w'.clock = Plane.pollTime v w.clock k ∧
        w'.timedCalls = w.timedCalls ++ v.polls w.clock (k + 1) := by
  have hearlier : ∀ j < k, Plane.pollTime v w.clock j < v.deadline := fun j hj =>
    (Nat.add_le_add_left (Nat.mul_le_mul_right _ hj.le) _).trans_lt htime
  have hstart : w.clock ≤ v.deadline := (Nat.le_add_right _ _).trans htime.le
  obtain ⟨w₁, hbefore, hrun⟩ := runIn_unready w m hrunning rfl hstart fun j hj =>
    ⟨hearlier j hj, hprompt j hj.le, hunready j hj⟩
  obtain ⟨w', hafter, hclock, hend, -⟩ := hbefore.round (hprompt k le_rfl) htime m
  exact ⟨w', hrun.trans (hend hready), hclock, hafter.timedCalls⟩

/-- A wait without such a list ends at its deadline. -/
theorem runIn_pollFrom_of_unready (m : Memory) (hrunning : w.cancelledFrom = none)
    (hstart : w.clock ≤ v.deadline) (hover : v.deadline ≤ Plane.pollTime v w.clock k)
    (h : ∀ j < k, Plane.pollTime v w.clock j < v.deadline ∧ P.PromptAt v w.clock w.plane j ∧
      ¬P.ReadyAt v w.clock w.plane j) :
    ∃ w', (v.pollFrom w.clock).runIn P m w = some ((.error v.timeout, m), w') ∧
      w'.clock = v.deadline ∧ w'.timedCalls = w.timedCalls ++ v.polls w.clock k := by
  obtain ⟨w₁, hbefore, hrun⟩ := runIn_unready w m hrunning rfl hstart h
  exact ⟨_, hrun.trans (hbefore.over hover m), rfl, hbefore.timedCalls⟩

/-! ### The whole schedule -/

/-- How a wait that is begun in the world `w` goes and ends, if it lists the objects every `p`
seconds for less than `T` seconds. -/
structure OnSchedule (P : Plane σ) (v : Watch) (p T : Nat) (w : World σ)
    (result : Except ImportError Unit) (w' : World σ) : Prop where
  /-- The first list in which all objects are ready is the last one, and ends the wait at once. -/
  ready : ∀ k, k * p < T → P.ReadyAt v w.clock w.plane k →
    (∀ j < k, ¬P.ReadyAt v w.clock w.plane j) →
      result = .ok () ∧ w'.clock = w.clock + k * p * 1000 ∧
        w'.timedCalls = w.timedCalls ++
          (List.range (k + 1)).map fun i => (w.clock + i * p * 1000, .list v.mapping)
  /-- If there is none, the objects are listed as often as there is time for it. -/
  unready : (∀ k, k * p < T → ¬P.ReadyAt v w.clock w.plane k) →
    result = .error (.waitTimeout v.kind.kind (describeConditions v.conditions)) ∧
      w'.clock = w.clock + T * 1000 ∧
        w'.timedCalls = w.timedCalls ++
          (List.range (T ⌈/⌉ p)).map fun i => (w.clock + i * p * 1000, .list v.mapping)

/-- A watch that polls every `p` seconds, for `T` seconds. -/
structure Lasts (v : Watch) (start p T : Nat) : Prop where
  period_pos : 0 < p
  period : v.period = p * 1000
  deadline : v.deadline = start + T * 1000

namespace Lasts

variable {p T : Nat}

theorem pollTime_eq (h : v.Lasts start p T) (k : Nat) :
    Plane.pollTime v start k = start + k * p * 1000 := by
  rw [Plane.pollTime, h.period, Nat.mul_assoc]

theorem polls_eq (h : v.Lasts start p T) (k : Nat) :
    v.polls start k = (List.range k).map fun i => (start + i * p * 1000, .list v.mapping) := by
  simp only [polls, h.pollTime_eq]

theorem due_iff (h : v.Lasts start p T) (k : Nat) :
    Plane.pollTime v start k < v.deadline ↔ k * p < T := by
  rw [h.pollTime_eq, h.deadline]
  omega

theorem due_iff_lt (h : v.Lasts start p T) (k : Nat) :
    Plane.pollTime v start k < v.deadline ↔ k < T ⌈/⌉ p := by
  rw [h.due_iff, ← not_le, ← not_le, ceilDiv_le_iff_le_mul h.period_pos, Nat.mul_comm]

theorem start_le (h : v.Lasts start p T) : start ≤ v.deadline :=
  h.deadline ▸ Nat.le_add_right _ _

theorem runIn_of_ready (h : v.Lasts w.clock p T) (m : Memory) (hrunning : w.cancelledFrom = none)
    (hdue : k * p < T) (hprompt : ∀ j ≤ k, P.PromptAt v w.clock w.plane j)
    (hready : P.ReadyAt v w.clock w.plane k) (hfirst : ∀ j < k, ¬P.ReadyAt v w.clock w.plane j) :
    ∃ w', (v.pollFrom w.clock).runIn P m w = some ((.ok (), m), w') ∧
      v.OnSchedule P p T w (.ok ()) w' := by
  obtain ⟨w', hrun, hclock, hcalls⟩ :=
    runIn_pollFrom_of_ready m hrunning ((h.due_iff k).mpr hdue) hprompt hready hfirst
  rw [h.pollTime_eq] at hclock
  rw [h.polls_eq] at hcalls
  refine ⟨w', hrun, fun i _ hreadyi hfirsti => ?_, fun hnone => absurd hready (hnone k hdue)⟩
  -- no other list is the first one
  obtain rfl : i = k := le_antisymm (not_lt.mp fun hlt => hfirsti k hlt hready)
    (not_lt.mp fun hlt => hfirst i hlt hreadyi)
  exact ⟨rfl, hclock, hcalls⟩

theorem runIn_of_unready (h : v.Lasts w.clock p T) (m : Memory)
    (hrunning : w.cancelledFrom = none)
    (hprompt : ∀ k, k * p < T → P.PromptAt v w.clock w.plane k)
    (hnone : ∀ k, k * p < T → ¬P.ReadyAt v w.clock w.plane k) :
    ∃ w', (v.pollFrom w.clock).runIn P m w = some ((.error v.timeout, m), w') ∧
      v.OnSchedule P p T w (.error v.timeout) w' := by
  have hover : v.deadline ≤ Plane.pollTime v w.clock (T ⌈/⌉ p) := by
    rw [← not_lt, h.due_iff_lt]
    exact lt_irrefl _
  obtain ⟨w', hrun, hclock, hcalls⟩ := runIn_pollFrom_of_unready m hrunning h.start_le hover
    fun j hj => by
      have hdue := (h.due_iff_lt j).mpr hj
      have hj := (h.due_iff j).mp hdue
      exact ⟨hdue, hprompt j hj, hnone j hj⟩
  rw [h.polls_eq] at hcalls
  exact ⟨w', hrun, fun k hdue hready _ => absurd hready (hnone k hdue),
    fun _ => ⟨rfl, hclock.trans h.deadline, hcalls⟩⟩

/-- However the lists turn out, the wait keeps to its schedule. -/
theorem runIn (h : v.Lasts w.clock p T) (m : Memory) (hrunning : w.cancelledFrom = none)
    (hprompt : ∀ k, k * p < T → (∀ j < k, ¬P.ReadyAt v w.clock w.plane j) →
      P.PromptAt v w.clock w.plane k) :
    ∃ result w', (v.pollFrom w.clock).runIn P m w = some ((result, m), w') ∧
      v.OnSchedule P p T w result w' := by
  have hearlier : ∀ {j k}, j ≤ k → k * p < T → j * p < T := fun hjk hk =>
    (Nat.mul_le_mul_right p hjk).trans_lt hk
  -- the first poll that is due and finds all ready ends the wait, if there is one
  by_cases hsome : ∃ k, k * p < T ∧ P.ReadyAt v w.clock w.plane k
  · classical
    obtain ⟨hdue, hready⟩ := Nat.find_spec hsome
    have hfirst : ∀ j < Nat.find hsome, ¬P.ReadyAt v w.clock w.plane j := fun j hj hreadyj =>
      Nat.find_min hsome hj ⟨hearlier hj.le hdue, hreadyj⟩
    refine ⟨_, h.runIn_of_ready m hrunning hdue (fun j hj => ?_) hready hfirst⟩
    exact hprompt j (hearlier hj hdue) fun i hi => hfirst i (hi.trans_le hj)
  · have hnone : ∀ k, k * p < T → ¬P.ReadyAt v w.clock w.plane k :=
      fun k hdue hready => hsome ⟨k, hdue, hready⟩
    refine ⟨_, h.runIn_of_unready m hrunning (fun k hdue => ?_) hnone⟩
    exact hprompt k hdue fun j hj => hnone j (hearlier hj.le hdue)

end Lasts

end Watch

/-- **A wait polls on schedule.** If the lists are answered without delay and nobody cancels the
run, the objects are listed as soon as their kind has been resolved, and then once in a period,
which is at least a second, until all of them are ready or the time is over. With the first list in
which they are ready, the wait succeeds. If there is none, it fails at its deadline, at which
nothing is listed any more. -/
theorem wait_polls_on_schedule (P : Plane σ) (settings : WaitSettings) (kind : GroupKind)
    (conditions : List String) (m : Memory) {w w₁ : World σ} {mapping : KindMapping}
    (hresolved : w.answer P (.guarded (.mappingForKind kind) none)
      = some (.answered (.ok mapping), w₁))
    (hrunning : w₁.cancelledFrom = none)
    (hprompt : ∀ k, k * max 1 settings.pollInterval < settings.timeout →
      (∀ j < k, ¬P.ReadyAt (.since settings kind mapping conditions w₁.clock) w₁.clock w₁.plane j) →
        P.PromptAt (.since settings kind mapping conditions w₁.clock) w₁.clock w₁.plane k) :
    ∃ result w', (Work.waitFor settings kind conditions).runIn P m w = some ((result, m), w') ∧
      (Watch.since settings kind mapping conditions w₁.clock).OnSchedule P
        (max 1 settings.pollInterval) settings.timeout w₁ result w' := by
  -- the wait begins at the moment at which the kind was resolved
  have hbegin : (Work.waitFor settings kind conditions).runIn P m w =
      ((Watch.since settings kind mapping conditions w₁.clock).pollFrom w₁.clock).runIn P m w₁ := by
    rw [Work.waitFor, Work.call, bind_assoc, Work.runIn_ask_bind hresolved]
    rfl
  rw [hbegin]
  have hlasts : (Watch.since settings kind mapping conditions w₁.clock).Lasts w₁.clock
      (max 1 settings.pollInterval) settings.timeout :=
    ⟨Nat.le_max_left 1 _, by rw [Nat.max_comm]; rfl, rfl⟩
  exact hlasts.runIn m hrunning hprompt

namespace Sample

/-- A plane that answers at once, and in which the provider becomes healthy after seven seconds. -/
def recovering : Plane MemoryPlane where
  take p moment c := ⟨if 7000 ≤ moment then p.insert (provider true) else p, false, some 0,
    fun p _ => p.answer c⟩

/-- A world with a provider that is not healthy, and the same world after its kind was resolved. -/
def worldSick : World MemoryPlane := .start (plane.insert (provider false)) fun _ => .absent

def worldResolved : World MemoryPlane :=
  worldSick.record (.called 0 (.mappingForKind providers.groupKind))

theorem resolved_worldSick : worldSick.answer recovering
    (.guarded (.mappingForKind providers.groupKind) none)
      = some (.answered (.ok providers), worldResolved) :=
  World.answer_at_once rfl rfl rfl rfl nofun

/-- The wait for the provider, from when its kind has been resolved. -/
def watch (settings : WaitSettings) : Watch :=
  .since settings providers.groupKind providers [healthy] 0

end Sample

open Sample in
theorem wait_polls_on_schedule_sample :
    (∃ w', (Work.waitFor .default providers.groupKind [healthy]).runIn recovering .empty worldSick
        = some ((.ok (), .empty), w') ∧ w'.clock = 10000 ∧
          w'.timedCalls.map Prod.fst = [0, 0, 5000, 10000]) ∧
      ∃ w', (Work.waitFor ⟨0, 3⟩ providers.groupKind [healthy]).runIn recovering .empty worldSick
        = some ((.error (.waitTimeout "Provider" (describeConditions [healthy])), .empty), w') ∧
          w'.clock = 3000 ∧ w'.timedCalls.map Prod.fst = [0, 0, 1000, 2000] := by
  have hprompt : ∀ (v : Watch) k, recovering.PromptAt v 0 worldSick.plane k :=
    fun v k => ⟨rfl, rfl⟩
  have hsick : ∀ (settings : WaitSettings) (k : Nat),
      tally [healthy] (recovering.pollAnswer (watch settings) 0 worldSick.plane k) = some (0, 1) →
        ¬recovering.ReadyAt (watch settings) 0 worldSick.plane k := by
    intro settings k htally hready
    obtain ⟨n, hn⟩ := allReady_iff_tally.mp hready
    cases htally.symm.trans hn
  constructor
  · obtain ⟨result, w', hrun, hready, -⟩ := wait_polls_on_schedule recovering .default
      providers.groupKind [healthy] .empty resolved_worldSick rfl fun k _ _ => hprompt _ k
    have hearlier : ∀ j < 2, ¬recovering.ReadyAt (watch .default) 0 worldSick.plane j := by
      intro j hj
      refine hsick .default j ?_
      interval_cases j <;> decide +kernel
    obtain ⟨rfl, hclock, hcalls⟩ := hready 2 (by decide)
      (allReady_iff_tally.mpr ⟨1, by decide +kernel⟩) hearlier
    exact ⟨w', hrun, hclock, congrArg (List.map Prod.fst) hcalls⟩
  · obtain ⟨result, w', hrun, -, hunready⟩ := wait_polls_on_schedule recovering ⟨0, 3⟩
      providers.groupKind [healthy] .empty resolved_worldSick rfl fun k _ _ => hprompt _ k
    have hnever : ∀ k, k * 1 < 3 → ¬recovering.ReadyAt (watch ⟨0, 3⟩) 0 worldSick.plane k := by
      intro k hk
      rw [Nat.mul_one] at hk
      refine hsick ⟨0, 3⟩ k ?_
      interval_cases k <;> decide +kernel
    obtain ⟨rfl, hclock, hcalls⟩ := hunready hnever
    exact ⟨w', hrun, hclock, congrArg (List.map Prod.fst) hcalls⟩

end PlaneRestore
