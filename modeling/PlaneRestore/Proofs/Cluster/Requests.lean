import PlaneRestore.Cluster.Client
import PlaneRestore.Proofs.Trace.Effect
/-!
Which requests belong to a call.

* `Client.Led x known ts r`: what is asked of a cluster about which `known` is known was led for the
  requests `ts`.
* `Client.Sends method x`: all requests of `x` have the method, and `x` finds nothing out that is
  kept. `Cluster.sends_submit`, `Cluster.sends_pages` and `Cluster.sends_observe` say this of the
  calls about objects.
* `Cluster.led_submit` and `Cluster.led_observe`: these calls send one request at most.
-/

namespace PlaneRestore

/-- Requests and their answers. -/
abbrev Requests : Type := List (Dialogue.Turn HttpRequest fun _ => Option HttpResponse)

namespace Client

variable {α β : Type}

/-- Requests to a cluster about which something is known are led for some turns. -/
def Led (x : Client α) (known : Discovered) (ts : Requests)
    (r : Option (Except ClientError α × Discovered)) : Prop :=
  Dialogue.Led (x.run.run known) ts r

variable {x : Client α} {f : α → Client β} {known known' : Discovered} {ts : Requests}

theorem led_bind_iff {r : Option (Except ClientError β × Discovered)} :
    (x >>= f).Led known ts r ↔
      (r = none ∧ x.Led known ts none) ∨
        (∃ e known', r = some (.error e, known') ∧ x.Led known ts (some (.error e, known'))) ∨
          ∃ a known' us vs, ts = us ++ vs ∧ x.Led known us (some (.ok a, known')) ∧
            (f a).Led known' vs r :=
  Dialogue.led_run_bind_iff

theorem led_tryCatch {handle : ClientError → Client α}
    {r : Option (Except ClientError α × Discovered)} (h : (tryCatch x handle).Led known ts r) :
    (x.Led known ts r ∧ ∀ e known', r ≠ some (.error e, known')) ∨
      ∃ e known' us vs, ts = us ++ vs ∧ x.Led known us (some (.error e, known')) ∧
        (handle e).Led known' vs r :=
  Dialogue.led_run_tryCatch h

theorem led_ask {request : HttpRequest}
    {r : Option (Except ClientError (Option HttpResponse) × Discovered)}
    (h : (ask request).Led known ts r) :
    (ts = [] ∧ r = none) ∨ ∃ a, ts = [⟨request, a⟩] ∧ (r = none ∨ r = some (.ok a, known)) := by
  cases h with
  | brokenOff => exact .inl ⟨rfl, rfl⟩
  | turn a rest =>
    obtain ⟨rfl, hr⟩ := Dialogue.led_done rest
    exact .inr ⟨a, rfl, hr⟩

theorem led_pure_some {a : α} {result : Except ClientError α}
    (h : (pure a : Client α).Led known ts (some (result, known'))) :
    ts = [] ∧ result = .ok a ∧ known' = known := by
  obtain ⟨rfl, hr⟩ := Dialogue.led_done_some (a := ((.ok a : Except ClientError α), known)) h
  cases hr
  exact ⟨rfl, rfl, rfl⟩

theorem led_throw_some {e : ClientError} {result : Except ClientError α}
    (h : (throw e : Client α).Led known ts (some (result, known'))) :
    ts = [] ∧ result = .error e ∧ known' = known := by
  obtain ⟨rfl, hr⟩ := Dialogue.led_done_some (a := ((.error e : Except ClientError α), known)) h
  cases hr
  exact ⟨rfl, rfl, rfl⟩

/-! ### What is sent -/

/-- All requests have the method, and nothing is found out that is kept. -/
def Sends (method : HttpMethod) (x : Client α) : Prop :=
  ∀ known ts r, x.Led known ts r → (∀ t ∈ ts, t.1.method = method) ∧
    ∀ result known', r = some (result, known') → known' = known

namespace Sends

variable {method : HttpMethod}

/-- What is already decided. -/
theorem of_run (result : Except ClientError α)
    (h : ∀ known, x.run.run known = .done (result, known)) : Sends method x := by
  intro known ts r hled
  rw [Led, h] at hled
  obtain ⟨rfl, hr⟩ := Dialogue.led_done hled
  refine ⟨fun t ht => (nomatch ht), fun result' known' hr' => ?_⟩
  rcases hr with rfl | rfl
  · cases hr'
  · cases hr'
    rfl

theorem pure (a : α) : Sends method (pure a : Client α) := of_run (.ok a) fun _ => rfl

theorem throw (e : ClientError) : Sends method (throw e : Client α) :=
  of_run (.error e) fun _ => rfl

theorem orThrow (result : Except ClientError α) : Sends method (orThrow result) := by
  cases result with
  | ok a => exact pure a
  | error e => exact throw e

theorem ask {request : HttpRequest} (h : request.method = method) :
    Sends method (Client.ask request) := by
  intro known ts r hled
  rcases led_ask hled with ⟨rfl, rfl⟩ | ⟨a, rfl, hr⟩
  · exact ⟨fun t ht => (nomatch ht), fun result known' hr => (nomatch hr)⟩
  · refine ⟨by simpa using h, fun result known' hr' => ?_⟩
    rcases hr with rfl | rfl
    · cases hr'
    · cases hr'
      rfl

theorem bind (hx : Sends method x) (hf : ∀ a, Sends method (f a)) : Sends method (x >>= f) := by
  intro known ts r hled
  rcases led_bind_iff.mp hled with
    ⟨rfl, hfirst⟩ | ⟨e, known₁, rfl, hfirst⟩ | ⟨a, known₁, us, vs, rfl, hfirst, hrest⟩
  · exact ⟨(hx _ _ _ hfirst).1, fun result known' hr => nomatch hr⟩
  · refine ⟨(hx _ _ _ hfirst).1, fun result known' hr => ?_⟩
    cases hr
    exact (hx _ _ _ hfirst).2 _ _ rfl
  · obtain ⟨hus, hknown₁⟩ := hx _ _ _ hfirst
    obtain ⟨hvs, hknown'⟩ := hf a _ _ _ hrest
    refine ⟨fun t ht => (List.mem_append.mp ht).elim (hus t) (hvs t), fun result known' hr => ?_⟩
    exact (hknown' result known' hr).trans (hknown₁ _ _ rfl)

theorem tryCatch {handle : ClientError → Client α} (hx : Sends method x)
    (hh : ∀ e, Sends method (handle e)) : Sends method (tryCatch x handle) := by
  intro known ts r hled
  rcases led_tryCatch hled with ⟨hfirst, -⟩ | ⟨e, known₁, us, vs, rfl, hfirst, hrest⟩
  · exact hx _ _ _ hfirst
  · obtain ⟨hus, hknown₁⟩ := hx _ _ _ hfirst
    obtain ⟨hvs, hknown'⟩ := hh e _ _ _ hrest
    refine ⟨fun t ht => (List.mem_append.mp ht).elim (hus t) (hvs t), fun result known' hr => ?_⟩
    exact (hknown' result known' hr).trans (hknown₁ _ _ rfl)

theorem mapM {f : α → Client β} (h : ∀ a, Sends method (f a)) (as : List α) :
    Sends method (as.mapM f) := by
  induction as with
  | nil =>
    rw [List.mapM_nil]
    exact pure []
  | cons a as ih =>
    rw [List.mapM_cons]
    exact (h a).bind fun b => ih.bind fun bs => pure (b :: bs)

end Sends

end Client

open Client

/-! ### Answers of the server -/

/-- What is made of the answer to a request. -/
def received (request : HttpRequest) (purpose : Purpose) (kind name : String) :
    Option HttpResponse → Except ClientError HttpResponse
  | none => .error (.transport ("error sending request for url (" ++ request.url.render ++ ")"))
  | some response =>
    if HttpStatus.isSuccess response.status then .ok response
    else .error (refusal response.status response.text purpose kind name)

/-- An object was created, or was there already, by the status of the answer. -/
def HttpResponse.IsSettled (r : HttpResponse) : Prop :=
  HttpStatus.isSuccess r.status = true ∨ r.status = 409

theorem eq_conflict_of_refusal {status : Nat} {body kind name k n : String} {purpose : Purpose}
    (h : refusal status body purpose kind name = .alreadyExists k n) : status = 409 := by
  unfold refusal at h
  by_cases hconflict : status = 409
  · exact hconflict
  · rw [if_neg hconflict] at h
    split at h <;> cases h

/-- Only a success or a conflict is taken for an object that is there. -/
theorem isSettled_of_received {request : HttpRequest} {purpose : Purpose} {kind name : String}
    {a : Option HttpResponse}
    (h : (∃ response, received request purpose kind name a = .ok response) ∨
      ∃ k n, received request purpose kind name a = .error (.alreadyExists k n)) :
    ∃ response, a = some response ∧ response.IsSettled := by
  cases a with
  | none => simp [received] at h
  | some response =>
    refine ⟨response, rfl, ?_⟩
    by_cases hok : HttpStatus.isSuccess response.status = true
    · exact .inl hok
    · rcases h with ⟨response', h⟩ | ⟨k, n, h⟩
      · simp [received, hok] at h
      · rw [received, if_neg hok] at h
        exact .inr (eq_conflict_of_refusal (Except.error.inj h))

/-- What is read in the answer of a server, if it is one of success. -/
def readIn {α : Type} (read : HttpResponse → Except ClientError α) : Option HttpResponse → Option α
  | none => none
  | some r => if HttpStatus.isSuccess r.status then (read r).toOption else none

theorem toOption_received {α : Type} {read : HttpResponse → Except ClientError α}
    {request : HttpRequest} {purpose : Purpose} {kind name : String} {a : Option HttpResponse} :
    (received request purpose kind name a >>= read).toOption = readIn read a := by
  cases a with
  | none => rfl
  | some response =>
    by_cases hok : HttpStatus.isSuccess response.status = true
    · rw [received, if_pos hok, readIn, if_pos hok]
      rfl
    · rw [received, if_neg hok, readIn, if_neg hok]
      rfl

/-- The body as JSON, or an error. -/
def HttpResponse.parsed (r : HttpResponse) : Except ClientError Json :=
  match (r.body.bind Text.Utf8.decode?).bind Json.parse? with
  | some v => .ok v
  | none => .error unreadable

namespace Cluster

variable {α : Type} {c : Cluster} {known known' : Discovered} {ts : Requests}

/-! ### Single requests -/

section Send

variable {method : HttpMethod} {path : String} {query : List (String × String)}
  {body : Option Json} {purpose : Purpose} {kind name : String}

variable (c method path query body) in
/-- The request that is sent, unless it cannot be made. -/
def request? : Option HttpRequest :=
  HttpRequest.build? method (c.address ++ path) query (c.headers body) body c.requestTimeout

theorem method_of_request? {request : HttpRequest}
    (h : c.request? method path query body = some request) : request.method = method := by
  obtain ⟨url, -, h⟩ := Option.bind_eq_some_iff.mp h
  split at h
  · cases h
    rfl
  · cases h

theorem send_eq : c.send method path query body purpose kind name =
    match c.request? method path query body with
    | none => throw (.transport "builder error")
    | some request => ask request >>= fun a => orThrow (received request purpose kind name a) := by
  rw [send, request?]
  cases HttpRequest.build? method (c.address ++ path) query (c.headers body) body
    c.requestTimeout with
  | none => rfl
  | some request =>
    refine bind_congr fun answer => ?_
    cases answer with
    | none => rfl
    | some response =>
      dsimp only [received]
      split <;> rfl

theorem sends_send : Sends method (c.send method path query body purpose kind name) := by
  rw [send_eq]
  cases h : c.request? method path query body with
  | none => exact .throw _
  | some request => exact (Sends.ask (method_of_request? h)).bind fun answer => .orThrow _

/-- One request is sent, if it can be made, and what is made of its answer is the result. -/
theorem led_send_bind {read : HttpResponse → Except ClientError α}
    {r : Option (Except ClientError α × Discovered)}
    (h : (c.send method path query body purpose kind name >>= fun response =>
      orThrow (read response)).Led known ts r) :
    (ts = [] ∧ (r = none ∨ c.request? method path query body = none ∧
      r = some (.error (.transport "builder error"), known))) ∨
    ∃ request a, c.request? method path query body = some request ∧ ts = [⟨request, a⟩] ∧
      (r = none ∨ r = some (received request purpose kind name a >>= read, known)) := by
  rw [send_eq] at h
  cases hrequest : c.request? method path query body with
  | none =>
    rw [hrequest] at h
    change Dialogue.Led (.done (.error (.transport "builder error"), known)) ts r at h
    obtain ⟨rfl, rfl | rfl⟩ := Dialogue.led_done h
    · exact .inl ⟨rfl, .inl rfl⟩
    · exact .inl ⟨rfl, .inr ⟨rfl, rfl⟩⟩
  | some request =>
    rw [hrequest] at h
    cases h with
    | brokenOff => exact .inl ⟨rfl, .inl rfl⟩
    | turn a rest =>
      -- nothing is asked once there is an answer
      have hrun : ∀ e : Except ClientError HttpResponse,
          (orThrow e >>= fun response => orThrow (read response)).run.run known
            = .done (e >>= read, known) := by
        intro e
        cases e with
        | error e => rfl
        | ok response =>
          change (orThrow (read response)).run.run known = .done (read response, known)
          cases read response <;> rfl
      have hrest : Dialogue.Led ((orThrow (received request purpose kind name a)
          >>= fun response => orThrow (read response)).run.run known) _ r := rest
      rw [hrun] at hrest
      obtain ⟨rfl, hr⟩ := Dialogue.led_done hrest
      exact .inr ⟨request, a, rfl, rfl, hr⟩

end Send

/-! ### Calls about objects -/

theorem json_eq (r : HttpResponse) : r.json = orThrow r.parsed := by
  rw [HttpResponse.json, HttpResponse.parsed]
  cases (r.body.bind Text.Utf8.decode?).bind Json.parse? <;> rfl

theorem orThrow_bind {β : Type} (x : Except ClientError α) (f : α → Except ClientError β) :
    (orThrow x >>= fun a => orThrow (f a)) = orThrow (x >>= f) := by
  cases x <;> rfl

theorem submit_eq (method : HttpMethod) (path : String) (purpose : Purpose) (m : KindMapping)
    (r : Resource) : c.submit method path purpose m r =
      c.send method path [] (some r.object) purpose m.groupKind.display r.key.display
        >>= fun response => orThrow (response.parsed >>= fun v =>
          (Resource.ofItem m.apiVersion m.kind v).mapError .invalidResource) := by
  rw [submit]
  refine bind_congr fun response => ?_
  rw [json_eq]
  exact orThrow_bind _ _

theorem observe_eq : c.observe =
    c.send .get ("/apis/apps/v1/namespaces/" ++ c.engineNamespace ++ "/deployments/"
        ++ c.engineDeployment) [] none .read "Deployment.apps"
        (c.engineNamespace ++ "/" ++ c.engineDeployment)
      >>= fun response => orThrow (response.parsed >>= fun v =>
        (EngineInfo.ofDeployment v).mapError .invalidResource) := by
  rw [observe]
  refine bind_congr fun response => ?_
  rw [json_eq]
  exact orThrow_bind _ _

theorem sends_submit (method : HttpMethod) (path : String) (purpose : Purpose) (m : KindMapping)
    (r : Resource) : Sends method (c.submit method path purpose m r) := by
  rw [submit_eq]
  exact sends_send.bind fun response => .orThrow _

theorem sends_pages (m : KindMapping) (limit : Nat) (token : Option String) :
    Sends .get (c.pages m limit token) := by
  induction limit generalizing token with
  | zero => exact .throw _
  | succ limit ih =>
    have hpage : Sends .get (c.page m token) := sends_send.bind fun response => by
      rw [json_eq]
      exact .orThrow _
    refine hpage.bind fun page => (Sends.orThrow _).bind fun items => ?_
    cases continuation page with
    | none => exact .pure items
    | some token => exact (ih (some token)).bind fun later => .pure _

theorem sends_observe : Sends .get c.observe := by
  rw [observe_eq]
  exact sends_send.bind fun response => .orThrow _

/-- The request for the deployment of the engine. -/
def engineRequest? (c : Cluster) : Option HttpRequest :=
  c.request? .get ("/apis/apps/v1/namespaces/" ++ c.engineNamespace ++ "/deployments/"
    ++ c.engineDeployment) [] none

/-- What an answer tells about the engine. -/
def engineTold (a : Option HttpResponse) : Option EngineInfo :=
  readIn (fun r => r.parsed >>= fun v => (EngineInfo.ofDeployment v).mapError .invalidResource) a

/-- The engine is found out by the answer to one request, or not at all. -/
theorem led_observe {r : Option (Except ClientError EngineInfo × Discovered)}
    (h : c.observe.Led known ts r) :
    (ts = [] ∧ ∀ info known', r ≠ some (.ok info, known')) ∨
      ∃ request a, c.engineRequest? = some request ∧ ts = [⟨request, a⟩] ∧
        ∀ info known', r = some (.ok info, known') → engineTold a = some info := by
  rw [observe_eq] at h
  rcases led_send_bind h with ⟨rfl, rfl | ⟨-, rfl⟩⟩ | ⟨request, a, hrequest, rfl, hr⟩
  · exact .inl ⟨rfl, by simp⟩
  · exact .inl ⟨rfl, by simp⟩
  · refine .inr ⟨request, a, hrequest, rfl, fun info known' hinfo => ?_⟩
    rcases hr with rfl | rfl
    · cases hinfo
    · rw [engineTold, ← toOption_received, (Prod.mk.inj (Option.some.inj hinfo)).1]
      rfl

/-- An object that is there after it was to be created was sent, and the server has answered that
it was created, or that there is one already. -/
theorem led_create {path : String} {m : KindMapping} {resource : Resource}
    {result : Except ClientError Resource}
    (h : (c.submit .post path .create m resource).Led known ts (some (result, known')))
    (hresult : (∃ created, result = .ok created) ∨ ∃ k n, result = .error (.alreadyExists k n)) :
    ∃ request response, ts = [⟨request, some response⟩] ∧ response.IsSettled := by
  rw [submit_eq] at h
  rcases led_send_bind h with ⟨-, hr | ⟨-, hr⟩⟩ | ⟨request, a, -, rfl, hr | hr⟩
  · cases hr
  · cases hr
    simp at hresult
  · cases hr
  · cases hr
    -- so ends only what the server has settled
    have hreceived : (∃ response, received request .create m.groupKind.display
        resource.key.display a = .ok response) ∨ ∃ k n, received request .create
          m.groupKind.display resource.key.display a = .error (.alreadyExists k n) := by
      generalize received request .create m.groupKind.display resource.key.display a = answer
        at hresult
      cases answer with
      | ok response => exact .inl ⟨response, rfl⟩
      | error e =>
        rcases hresult with ⟨created, hok⟩ | ⟨k, n, herror⟩
        · cases hok
        · cases herror
          exact .inr ⟨k, n, rfl⟩
    obtain ⟨response, rfl, hsettled⟩ := isSettled_of_received hreceived
    exact ⟨request, response, rfl, hsettled⟩

end Cluster

end PlaneRestore
