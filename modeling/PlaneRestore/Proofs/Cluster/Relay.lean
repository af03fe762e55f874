import PlaneRestore.Cluster.Web
import PlaneRestore.Proofs.Cluster.Discover
import PlaneRestore.Proofs.State.Tree
import PlaneRestore.Proofs.Trace.Log
/-!
Sessions and the requests that they lead to.

* `requestLog ts` are the requests that were sent in the turns of a session with a cluster.
* `Call.method` is the method of all requests of a call; `Cluster.method_of_led_answer`.
* `Cluster.Relays c ws ts log`: the turns `ts` of a session have led to the turns `ws`, and `log`
  has the calls of the session, each with its requests. By `Cluster.Leads.relays`, a session is
  always relayed, also if it is broken off in the midst of a call.
-/

namespace PlaneRestore

open Client

variable {α : Type}

/-! ### Logs of requests -/

/-- The turns of a session with a cluster, down to the single request. -/
abbrev WebTurns : Type := List (Dialogue.Turn WebQuestion WebQuestion.Answer)

/-- What was answered; none if the call was given up. -/
def Reply.answer? : Reply α → Option α
  | .answered a => some a
  | .cancelled | .late => none

/-- The request of a turn, if one is sent there. A request that was given up has no answer. -/
def sent? : Dialogue.Turn WebQuestion WebQuestion.Answer →
    Option (Dialogue.Turn HttpRequest fun _ => Option HttpResponse)
  | ⟨.request request, answer⟩ => some ⟨request, answer⟩
  | ⟨.guarded request _, reply⟩ => some ⟨request, reply.answer?.join⟩
  | ⟨.checkpoint _, _⟩ | ⟨.now, _⟩ | ⟨.sleepUntil _, _⟩ | ⟨.report _, _⟩ | ⟨.open _, _⟩ => none

/-- What the server was asked, and what it answered. -/
def requestLog (ts : WebTurns) : Requests := ts.filterMap sent?

@[simp]
theorem requestLog_nil : requestLog [] = [] := rfl

@[simp]
theorem requestLog_append (ts us : WebTurns) :
    requestLog (ts ++ us) = requestLog ts ++ requestLog us :=
  List.filterMap_append

/-! ### Exchanges -/

theorem Exchange.led_request {request : HttpRequest} {next : Option HttpResponse → Exchange α}
    {ts : Requests} {r : Option α} (answer : Option HttpResponse)
    (h : Dialogue.Led (next answer) ts r) :
    Dialogue.Led (.andThen request next : Exchange α) (⟨request, answer⟩ :: ts) r := by
  constructor
  exact h

namespace Web

theorem led_ofExchange {x : Exchange α} {ts : WebTurns} {r : Option α}
    (h : Dialogue.Led (ofExchange x) ts r) : Dialogue.Led x (requestLog ts) r := by
  induction x generalizing ts with
  | done a =>
    obtain ⟨rfl, rfl | rfl⟩ := Dialogue.led_done h
    · exact .brokenOff _
    · exact .ended a
  | andThen request next ih =>
    cases h with
    | brokenOff => exact .brokenOff _
    | turn answer rest => exact Exchange.led_request answer (ih answer rest)

/-- An exchange that is given up is broken off. -/
theorem led_guard {deadline : Option Nat} {x : Exchange α} {ts : WebTurns} {r : Option (Reply α)}
    (h : Dialogue.Led (guard deadline x) ts r) :
    Dialogue.Led x (requestLog ts) (r.bind Reply.answer?) := by
  induction x generalizing ts with
  | done a =>
    obtain ⟨rfl, rfl | rfl⟩ := Dialogue.led_done h
    · exact .brokenOff _
    · exact .ended a
  | andThen request next ih =>
    rw [guard] at h
    cases h with
    | brokenOff => exact .brokenOff _
    | turn reply rest =>
      -- what is given up is broken off after its last request
      cases reply with
      | answered response => exact Exchange.led_request response (ih response rest)
      | cancelled | late =>
        obtain ⟨rfl, rfl | rfl⟩ := Dialogue.led_done rest
        · exact Exchange.led_request none (.brokenOff _)
        · exact Exchange.led_request none (.brokenOff _)

end Web

/-! ### Methods -/

/-- The method of the requests of a call. -/
def Call.method : Call → HttpMethod
  | .create _ _ => .post
  | .update _ _ => .put
  | .list _ | .mappingForKind _ | .mappingForVersion _ _ | .reset | .resolve _ | .observe => .get

namespace Cluster

variable {c : Cluster} {known known' : Discovered} {ts : Requests}

theorem method_of_led_mappings_bind {f : List KindMapping → Client α}
    {r : Option (Except ClientError α × Discovered)} (hf : ∀ ms, Sends .get (f ms))
    (h : (c.mappings >>= f).Led known ts r) : ∀ t ∈ ts, t.1.method = .get := by
  -- the kinds are known, or discovery reads them
  have hmappings : ∀ {us r}, c.mappings.Led known us r → ∀ t ∈ us, t.1.method = .get := by
    intro us r h
    rw [Client.Led, mappings, Dialogue.run_get_bind] at h
    cases known with
    | some ms => exact (Sends.pure ms _ _ _ h).1
    | none =>
      rcases Dialogue.led_run_bind_iff.mp h with
        ⟨-, hdiscover⟩ | ⟨e, known₁, -, hdiscover⟩ | ⟨ms, known₁, us, vs, rfl, hdiscover, hset⟩
      · exact (sends_discover _ _ _ hdiscover).1
      · exact (sends_discover _ _ _ hdiscover).1
      · obtain ⟨rfl, -⟩ := Dialogue.led_done
          (a := ((.ok ms : Except ClientError (List KindMapping)), some ms)) hset
        rw [List.append_nil]
        exact (sends_discover _ _ _ hdiscover).1
  rcases led_bind_iff.mp h with
    ⟨-, hfirst⟩ | ⟨e, known₁, -, hfirst⟩ | ⟨ms, known₁, us, vs, rfl, hfirst, hrest⟩
  · exact hmappings hfirst
  · exact hmappings hfirst
  · exact fun t ht =>
      (List.mem_append.mp ht).elim (hmappings hfirst t) ((hf ms _ _ _ hrest).1 t)

/-- All requests of a call have the method of the call. -/
theorem method_of_led_answer {call : Call} {r : Option (call.Answer × Discovered)}
    (h : Dialogue.Led ((c.answer call).run known) ts r) :
    ∀ t ∈ ts, t.1.method = call.method := by
  cases call with
  | list m => exact (sends_pages m pageLimit none _ _ _ h).1
  | create m resource => exact (sends_submit .post _ .create m resource _ _ _ h).1
  | update m resource => exact (sends_submit .put _ .update m resource _ _ _ h).1
  | mappingForKind k => exact method_of_led_mappings_bind (fun ms => .orThrow _) h
  | mappingForVersion k version => exact method_of_led_mappings_bind (fun ms => .orThrow _) h
  | resolve category => exact method_of_led_mappings_bind (fun ms => .pure _) h
  | observe => exact (sends_observe _ _ _ h).1
  | reset =>
    obtain ⟨rfl, -⟩ := Dialogue.led_done (a := ((), none)) h
    exact fun t ht => nomatch ht

/-! ### Questions -/

/-- A call was made, and led to these requests. -/
def Serves (c : Cluster) (e : LoggedCall) (requests : Requests) : Prop :=
  ∃ known known', Dialogue.Led ((c.answer e.call).run known) requests
    (e.answer.map fun a => (a, known'))

theorem Serves.method {e : LoggedCall} (h : c.Serves e ts) :
    ∀ t ∈ ts, t.1.method = e.call.method := by
  obtain ⟨known, known', hled⟩ := h
  exact method_of_led_answer hled

/-- An object that is there after its creation was sent, and the server has said so. -/
theorem Serves.settled {m : KindMapping} {resource : Resource} {a : Except ClientError Resource}
    (h : c.Serves ⟨.create m resource, some a⟩ ts)
    (ha : (∃ created, a = .ok created) ∨ ∃ k n, a = .error (.alreadyExists k n)) :
    ∃ request response, ts = [⟨request, some response⟩] ∧ response.IsSettled := by
  obtain ⟨known, known', hled⟩ := h
  exact led_create hled ha

theorem led_guardedCall {call : Call} {deadline : Option Nat} {ws : WebTurns}
    {r : Option (Reply call.Answer × Discovered)}
    (h : Dialogue.Led (c.guardedCall call deadline known) ws r) :
    Dialogue.Led ((c.answer call).run known) (requestLog ws)
      (r.bind fun p => p.1.answer?.map fun a => (a, p.2)) := by
  cases h with
  | brokenOff => exact .brokenOff _
  | turn reply rest =>
    cases reply with
    | cancelled | late =>
      obtain ⟨rfl, rfl | rfl⟩ := Dialogue.led_done rest
      · exact .brokenOff _
      · exact .brokenOff _
    | answered u =>
      have hcall : Dialogue.Led (Web.guard deadline ((c.answer call).run known) >>= _) _ r := rest
      -- nothing is asked after the exchange, however that has ended
      rcases Dialogue.led_bind_iff.mp hcall with
        ⟨rfl, hguard⟩ | ⟨reply, us, vs, rfl, hguard, hend⟩
      · exact Web.led_guard hguard
      · have hled := Web.led_guard hguard
        cases reply with
        | answered p | cancelled | late =>
          obtain ⟨rfl, rfl | rfl⟩ := Dialogue.led_done hend
          · rw [List.append_nil]
            exact hled.unended
          · rw [List.append_nil]
            exact hled

instance (call : Call) : Nonempty call.Answer := by
  cases call with
  | reset => exact ⟨()⟩
  | _ => exact ⟨.error (.transport "")⟩

/-- No requests are sent for what is not a call. -/
theorem requestLog_answerQuestion {q : Question} (hq : ∀ a, LoggedCall.ofTurn? ⟨q, a⟩ = none)
    {ws : WebTurns} {r : Option (q.Answer × Discovered)}
    (h : Dialogue.Led ((c.answerQuestion q).run known) ws r) : requestLog ws = [] := by
  cases q with
  | call call => cases hq (Classical.arbitrary call.Answer)
  | guarded call deadline => cases hq .cancelled
  | now | sleepUntil moment | report news =>
    cases h with
    | brokenOff => rfl
    | turn a rest => rw [(Dialogue.led_done rest).1]; rfl
  -- an archive is read in two turns, none of which is a request
  | extract path =>
    cases h with
    | brokenOff => rfl
    | turn file rest =>
      cases rest with
      | brokenOff => rfl
      | turn reply rest =>
        cases reply with
        | answered u | cancelled | late => rw [(Dialogue.led_done rest).1]; rfl

/-! ### Sessions -/

/-- The turns `ts` of a session have led to the turns `ws`, and `log` has the calls with their
requests. What was answered to the last call may have been left open. -/
structure Relays (c : Cluster) (ws : WebTurns) (ts : Turns) (log : List (LoggedCall × Requests)) :
    Prop where
  serves : ∀ p ∈ log, c.Serves p.1 p.2
  requests : requestLog ws = log.flatMap (·.2)
  calls : Starts (log.map (·.1)) (callLog ts)
  files : ∀ (path : String) (s : ExportedState),
    (⟨.extract path, .ok s⟩ : Dialogue.Turn Question Question.Answer) ∈ ts →
      ∃ file isCancelled, (⟨.open path, file⟩ : Dialogue.Turn WebQuestion WebQuestion.Answer) ∈ ws ∧
        ExportedState.extract path file isCancelled = .ok s

variable {ws ws' : WebTurns} {us us' : Turns} {log log' : List (LoggedCall × Requests)}

theorem relays_nil (hws : requestLog ws = []) : c.Relays ws [] [] where
  serves _ hp := nomatch hp
  requests := hws
  calls := .nil _
  files _ _ hs := nomatch hs

/-- Before something is relayed, all calls have got their answers. -/
theorem Relays.append (h : c.Relays ws us log) (hcalls : log.map (·.1) = callLog us)
    (h' : c.Relays ws' us' log') : c.Relays (ws ++ ws') (us ++ us') (log ++ log') where
  serves p hp := (List.mem_append.mp hp).elim (h.serves p) (h'.serves p)
  requests := by rw [requestLog_append, h.requests, h'.requests, List.flatMap_append]
  calls := by
    rw [List.map_append, hcalls, callLog_append]
    exact h'.calls.append_left _
  files path s hs := by
    rcases List.mem_append.mp hs with hs | hs
    · obtain ⟨file, isCancelled, hmem, hextract⟩ := h.files path s hs
      exact ⟨file, isCancelled, List.mem_append_left ws' hmem, hextract⟩
    · obtain ⟨file, isCancelled, hmem, hextract⟩ := h'.files path s hs
      exact ⟨file, isCancelled, List.mem_append_right ws hmem, hextract⟩

theorem Relays.reachable (h : c.Relays ws us log) {path : String} {s : ExportedState}
    (hs : ⟨.extract path, .ok s⟩ ∈ us) : s.Reachable := by
  obtain ⟨file, isCancelled, -, hextract⟩ := h.files path s hs
  exact ExportedState.reachable_of_extract hextract

section Question

variable {q : Question} {a : q.Answer}

theorem relays_call {e : LoggedCall} (hturn : LoggedCall.ofTurn? ⟨q, a⟩ = some e)
    {answer : Option e.call.Answer} (hserves : c.Serves ⟨e.call, answer⟩ (requestLog ws)) :
    c.Relays ws [⟨q, a⟩] [(⟨e.call, answer⟩, requestLog ws)] where
  serves p hp := by
    rw [List.mem_singleton.mp hp]
    exact hserves
  requests := by simp
  calls := by
    have hlog : callLog [⟨q, a⟩] = [e] := by simp [callLog, hturn]
    rw [hlog, List.map_singleton]
    exact starts_singleton_iff.mpr (.inr ⟨answer, rfl⟩)
  files path s hs := by
    rw [← List.mem_singleton.mp hs] at hturn
    cases hturn

/-- A question that was answered. -/
theorem relays_of_answered
    (h : Dialogue.Led ((c.answerQuestion q).run known) ws (some (a, known'))) :
    ∃ log, c.Relays ws [⟨q, a⟩] log ∧ log.map (·.1) = callLog [⟨q, a⟩] := by
  cases q with
  | call call =>
    have hserves : c.Serves ⟨call, some a⟩ (requestLog ws) :=
      ⟨known, known', Web.led_ofExchange h⟩
    exact ⟨_, relays_call rfl hserves, rfl⟩
  | guarded call deadline =>
    have hled := led_guardedCall h
    cases a with
    | answered a =>
      have hserves : c.Serves ⟨call, some a⟩ (requestLog ws) := ⟨known, known', hled⟩
      exact ⟨_, relays_call rfl hserves, rfl⟩
    | cancelled | late =>
      have hserves : c.Serves ⟨call, none⟩ (requestLog ws) := ⟨known, known', hled⟩
      exact ⟨_, relays_call rfl hserves, rfl⟩
  | now | sleepUntil moment | report news =>
    have hquiet := requestLog_answerQuestion (fun _ => rfl) h
    refine ⟨[], ⟨fun _ hp => (nomatch hp), hquiet, .nil _, fun path s hs => ?_⟩, rfl⟩
    cases List.mem_singleton.mp hs
  | extract path =>
    have hquiet := requestLog_answerQuestion (fun _ => rfl) h
    refine ⟨[], ⟨fun _ hp => (nomatch hp), hquiet, .nil _, fun path' s hs => ?_⟩, rfl⟩
    cases List.mem_singleton.mp hs
    -- the file is opened, and it is asked whether the run is cancelled
    cases h with
    | turn file rest =>
      cases rest with
      | turn reply rest =>
        cases reply with
        | answered u | cancelled | late =>
          obtain ⟨-, hr⟩ := Dialogue.led_done_some rest
          exact ⟨file, _, List.mem_cons_self .., (Prod.mk.inj hr).1.symm⟩

/-- A question in the midst of whose requests a session was broken off. -/
theorem relays_of_brokenOff (h : Dialogue.Led ((c.answerQuestion q).run known) ws none) :
    ∃ us log, (us = [] ∨ ∃ a, us = [⟨q, a⟩]) ∧ c.Relays ws us log := by
  cases q with
  | call call =>
    have hserves : c.Serves ⟨call, none⟩ (requestLog ws) := ⟨known, known, Web.led_ofExchange h⟩
    exact ⟨[⟨.call call, Classical.arbitrary _⟩], _, .inr ⟨_, rfl⟩, relays_call rfl hserves⟩
  | guarded call deadline =>
    have hserves : c.Serves ⟨call, none⟩ (requestLog ws) := ⟨known, known, led_guardedCall h⟩
    exact ⟨[⟨.guarded call deadline, .cancelled⟩], _, .inr ⟨_, rfl⟩, relays_call rfl hserves⟩
  | now | sleepUntil moment | report news | extract path =>
    exact ⟨[], [], .inl rfl, relays_nil (requestLog_answerQuestion (fun _ => rfl) h)⟩

end Question

/-- A session with a cluster, about which `known` is known, is led for some turns. -/
def Leads (c : Cluster) (session : Session α) (known : Discovered) (ws : WebTurns)
    (r : Option (α × Discovered)) : Prop :=
  Dialogue.Led ((session.via c.answerQuestion).run known) ws r

theorem led_lead_iff {session : Session α} {r : Option α} :
    Dialogue.Led (c.lead session) ws r ↔ ∃ r', c.Leads session none ws r' ∧ r = r'.map (·.1) :=
  Dialogue.led_map_iff

section Bind

variable {β : Type} {x : Session α} {f : α → Session β} {r : Option (β × Discovered)}

theorem run_via_bind : ((x >>= f).via c.answerQuestion).run known =
    (x.via c.answerQuestion).run known >>= fun p => ((f p.1).via c.answerQuestion).run p.2 := by
  rw [Dialogue.via_bind, StateT.run_bind]

theorem leads_bind_iff : c.Leads (x >>= f) known ws r ↔
    (r = none ∧ c.Leads x known ws none) ∨ ∃ a known' us vs, ws = us ++ vs ∧
      c.Leads x known us (some (a, known')) ∧ c.Leads (f a) known' vs r := by
  rw [Leads, run_via_bind, Dialogue.led_bind_iff, Prod.exists]
  rfl

theorem Leads.resume {a : α} (hx : c.Leads x known ws (some (a, known')))
    (h : c.Leads (x >>= f) known (ws ++ ws') r) : c.Leads (f a) known' ws' r := by
  rw [Leads, run_via_bind] at h
  have hrest := Dialogue.Led.resume hx h
  exact hrest

end Bind

theorem leads_done {a : α} {r : Option (α × Discovered)}
    (h : c.Leads (.done a) known ws r) : ws = [] ∧ (r = none ∨ r = some (a, known)) :=
  Dialogue.led_done (a := (a, known)) h

/-- However far a session is led, it is relayed. -/
theorem Leads.relays {session : Session α} {r : Option (α × Discovered)}
    (h : c.Leads session known ws r) :
    ∃ us log, Dialogue.Led session us (r.map (·.1)) ∧ c.Relays ws us log ∧
      (r ≠ none → log.map (·.1) = callLog us) := by
  induction session generalizing known ws with
  | done a =>
    obtain ⟨rfl, rfl | rfl⟩ := leads_done h
    · exact ⟨[], [], .brokenOff _, relays_nil rfl, fun _ => rfl⟩
    · exact ⟨[], [], .ended a, relays_nil rfl, fun _ => rfl⟩
  | andThen q next ih =>
    have hbind : Dialogue.Led ((c.answerQuestion q).run known >>= fun p =>
        ((next p.1).via c.answerQuestion).run p.2) ws r := h
    -- it is broken off in the midst of the first question, or goes on with its answer
    rcases Dialogue.led_bind_iff.mp hbind with
      ⟨rfl, hfirst⟩ | ⟨⟨a, known'⟩, ws, ws', rfl, hfirst, hrest⟩
    · obtain ⟨us, log, rfl | ⟨a, rfl⟩, hrelays⟩ := relays_of_brokenOff hfirst
      · exact ⟨_, log, .brokenOff _, hrelays, fun hno => absurd rfl hno⟩
      · exact ⟨_, log, .turn a (.brokenOff _), hrelays, fun hno => absurd rfl hno⟩
    · obtain ⟨log, hrelays, hcalls⟩ := relays_of_answered hfirst
      obtain ⟨us, log', hled, hrelays', hcalls'⟩ := ih a hrest
      refine ⟨⟨q, a⟩ :: us, log ++ log', .turn a hled, hrelays.append hcalls hrelays', fun hr => ?_⟩
      rw [List.map_append, hcalls, hcalls' hr, ← callLog_append, List.singleton_append]

end Cluster

end PlaneRestore
