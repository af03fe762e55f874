import PlaneRestore.Proofs.Cluster.Requests
import PlaneRestore.Proofs.Trace.Play
/-!
What discovery finds out about a cluster.

* `Cluster.Fetches c s path ts found`: a document was asked for by the requests `ts`, and this was
  found; none if it could not be fetched and read.
* `Findings` are the documents that were found by discovery, and `Findings.mappings` the kinds that
  are listed in them.
* `Cluster.Discovers c ts found`: so discovery went. By `Cluster.led_discover`, it always goes so.
-/

namespace PlaneRestore

open Client

variable {α : Type}

/-- The body as a document, or an error. -/
def HttpResponse.decoded (s : Shape α) (r : HttpResponse) : Except ClientError α :=
  match (r.body.bind Json.skim?).map s.ofJson with
  | some (.ok a) => .ok a
  | _ => .error unreadable

/-- The document in the answer to a request, if it is one of success and can be read. -/
def fetched (s : Shape α) : Option HttpResponse → Option α
  | none => none
  | some r => if HttpStatus.isSuccess r.status then (r.decoded s).toOption else none

/-- What discovery has found. -/
structure Findings where
  /-- The kinds of the core group. -/
  core : ApiResourceList
  groups : List ApiGroup
  /-- The group versions in the order in which they were asked for, and their documents. -/
  documents : List (String × Option ApiResourceList)
deriving DecidableEq

namespace Findings

/-- The kinds in a document; none if there is no document. -/
def kindsIn (document : Option ApiResourceList) : List KindMapping :=
  (document.map ApiResourceList.mappings).getD []

/-- The kinds in all documents. -/
def mappings (D : Findings) : List KindMapping :=
  D.core.mappings ++ D.documents.flatMap fun p => kindsIn p.2

end Findings

namespace Cluster

variable {c : Cluster} {known known' : Discovered} {ts : Requests}

/-! ### Documents -/

/-- The request for a document. -/
def documentRequest? (c : Cluster) (path : String) : Option HttpRequest :=
  c.request? .get path [] none

/-- A document was asked for, unless that could not be done. -/
inductive Fetches (c : Cluster) (s : Shape α) (path : String) : Requests → Option α → Prop
  | unmade (h : c.documentRequest? path = none) : Fetches c s path [] none
  | made {request : HttpRequest} (h : c.documentRequest? path = some request)
      (answer : Option HttpResponse) : Fetches c s path [⟨request, answer⟩] (fetched s answer)

/-- What was found depends on the first requests alone. -/
theorem Fetches.unique {s : Shape α} {path : String} {us us' vs vs' : Requests}
    {found found' : Option α} (h : c.Fetches s path us found) (h' : c.Fetches s path us' found')
    (heq : us ++ vs = us' ++ vs') : found = found' ∧ vs = vs' := by
  cases h with
  | unmade hnone =>
    cases h' with
    | unmade _ => exact ⟨rfl, heq⟩
    | made hrequest _ => simp [hnone] at hrequest
  | made hrequest answer =>
    cases h' with
    | unmade hnone => simp [hnone] at hrequest
    | made hrequest' answer' =>
      obtain ⟨hturn, hrest⟩ := List.cons.inj heq
      cases hturn
      exact ⟨rfl, hrest⟩

theorem document_eq (s : Shape α) (path : String) : c.document s path =
    c.send .get path [] none .read "discovery document" path
      >>= fun response => orThrow (response.decoded s) := by
  rw [document]
  refine bind_congr fun response => ?_
  rw [HttpResponse.read, HttpResponse.decoded]
  rcases (response.body.bind Json.skim?).map s.ofJson with _ | e | a
  · rfl
  · rfl
  · rfl

theorem sends_document (s : Shape α) (path : String) : Sends .get (c.document s path) := by
  rw [document_eq]
  exact sends_send.bind fun response => .orThrow _

theorem led_document {s : Shape α} {path : String} {result : Except ClientError α}
    (h : (c.document s path).Led known ts (some (result, known'))) :
    c.Fetches s path ts result.toOption ∧ known' = known := by
  have hknown : known' = known := (sends_document s path known ts _ h).2 _ _ rfl
  rw [document_eq] at h
  rcases led_send_bind h with ⟨rfl, hr | ⟨hnone, hr⟩⟩ | ⟨request, a, hrequest, rfl, hr | hr⟩
  · cases hr
  · cases hr
    exact ⟨.unmade hnone, hknown⟩
  · cases hr
  · obtain ⟨rfl, -⟩ := Prod.mk.inj (Option.some.inj hr)
    have hfetched : (received request .read "discovery document" path a
        >>= HttpResponse.decoded s).toOption = fetched s a := by
      rw [toOption_received]
      cases a <;> rfl
    exact ⟨hfetched ▸ .made hrequest a, hknown⟩

theorem led_indispensable_ok {x : Client α} {a : α}
    (h : (indispensable x).Led known ts (some (.ok a, known'))) :
    x.Led known ts (some (.ok a, known')) := by
  rcases led_tryCatch h with ⟨hx, -⟩ | ⟨e, known₁, us, vs, rfl, hx, hthrow⟩
  · exact hx
  · obtain ⟨-, hno, -⟩ := led_throw_some hthrow
    cases hno

/-- Discovery says of itself that it has failed. -/
theorem led_indispensable_error {x : Client α} {e : ClientError}
    (h : (indispensable x).Led known ts (some (.error e, known'))) :
    (∃ message, e = .discovery message) ∧
      ∃ cause, x.Led known ts (some (.error cause, known')) := by
  rcases led_tryCatch h with ⟨-, hno⟩ | ⟨cause, known₁, us, vs, rfl, hx, hthrow⟩
  · exact absurd rfl (hno e known')
  · obtain ⟨rfl, he, rfl⟩ := led_throw_some hthrow
    cases he
    rw [List.append_nil]
    exact ⟨⟨_, rfl⟩, cause, hx⟩

/-! ### Group versions -/

/-- The documents of some group versions were asked for, one after another. -/
inductive FetchesAll (c : Cluster) :
    List String → Requests → List (String × Option ApiResourceList) → Prop
  | nil : FetchesAll c [] [] []
  | cons {groupVersion : String} {groupVersions : List String} {us vs : Requests}
      {document : Option ApiResourceList} {documents : List (String × Option ApiResourceList)}
      (first : c.Fetches ApiResourceList.shape ("/apis/" ++ groupVersion) us document)
      (rest : FetchesAll c groupVersions vs documents) :
      FetchesAll c (groupVersion :: groupVersions) (us ++ vs)
        ((groupVersion, document) :: documents)

theorem FetchesAll.map_fst {groupVersions : List String}
    {documents : List (String × Option ApiResourceList)}
    (h : c.FetchesAll groupVersions ts documents) : documents.map (·.1) = groupVersions := by
  induction h with
  | nil => rfl
  | cons _ _ ih => rw [List.map_cons, ih]

theorem FetchesAll.unique {groupVersions : List String} {us us' : Requests}
    {documents documents' : List (String × Option ApiResourceList)}
    (h : c.FetchesAll groupVersions us documents)
    (h' : c.FetchesAll groupVersions us' documents') (heq : us = us') : documents = documents' := by
  induction h generalizing us' documents' with
  | nil =>
    cases h'
    rfl
  | cons first _ ih =>
    cases h' with
    | cons first' rest' =>
      obtain ⟨rfl, hrest⟩ := first.unique first' heq
      rw [ih rest' hrest]

theorem sends_versionMappings (groupVersion : String) :
    Sends .get (c.versionMappings groupVersion) := by
  refine .tryCatch ?_ fun _ => .pure []
  rw [map_eq_pure_bind]
  exact (sends_document _ _).bind fun l => .pure _

theorem led_versionMappings {groupVersion : String} {result : Except ClientError (List KindMapping)}
    (h : (c.versionMappings groupVersion).Led known ts (some (result, known'))) :
    ∃ document, c.Fetches ApiResourceList.shape ("/apis/" ++ groupVersion) ts document ∧
      result = .ok (Findings.kindsIn document) ∧ known' = known := by
  have hknown : known' = known := (sends_versionMappings groupVersion known ts _ h).2 _ _ rfl
  subst hknown
  -- first what reading the document makes of it, whether that fails or not
  have hdocument : ∀ {us r known₁},
      (ApiResourceList.mappings <$> c.document ApiResourceList.shape ("/apis/" ++ groupVersion)).Led
        known' us (some (r, known₁)) → ∃ document,
          c.Fetches ApiResourceList.shape ("/apis/" ++ groupVersion) us document ∧
            r.toOption = document.map ApiResourceList.mappings := by
    intro us r known₁ hled
    rw [map_eq_pure_bind] at hled
    rcases led_bind_iff.mp hled with
      ⟨hr, -⟩ | ⟨e, known₂, hr, hfailed⟩ | ⟨l, known₂, us, vs, rfl, hread, hend⟩
    · cases hr
    · cases hr
      exact ⟨none, (led_document hfailed).1, rfl⟩
    · obtain ⟨rfl, rfl, -⟩ := led_pure_some hend
      rw [List.append_nil]
      exact ⟨some l, (led_document hread).1, rfl⟩
  -- a failure is caught, and no kinds are what comes of it
  rcases led_tryCatch h with ⟨hx, hno⟩ | ⟨e, known₁, us, vs, rfl, hx, hend⟩
  · obtain ⟨document, hfetches, hr⟩ := hdocument hx
    cases result with
    | error e => exact absurd rfl (hno e known')
    | ok ms =>
      refine ⟨document, hfetches, ?_, rfl⟩
      rw [Findings.kindsIn, ← hr]
      rfl
  · obtain ⟨rfl, rfl, -⟩ := led_pure_some hend
    obtain ⟨document, hfetches, hnone⟩ := hdocument hx
    rw [List.append_nil]
    refine ⟨document, hfetches, ?_, rfl⟩
    rw [Findings.kindsIn, ← hnone]
    rfl

theorem led_mapM_versionMappings {groupVersions : List String}
    {result : Except ClientError (List (List KindMapping))}
    (h : (groupVersions.mapM c.versionMappings).Led known ts (some (result, known'))) :
    ∃ documents, c.FetchesAll groupVersions ts documents ∧
      result = .ok (documents.map fun p => Findings.kindsIn p.2) := by
  induction groupVersions generalizing known known' ts result with
  | nil =>
    rw [List.mapM_nil] at h
    obtain ⟨rfl, rfl, -⟩ := led_pure_some h
    exact ⟨[], .nil, rfl⟩
  | cons groupVersion groupVersions ih =>
    rw [List.mapM_cons] at h
    rcases led_bind_iff.mp h with
      ⟨hr, -⟩ | ⟨e, known₁, hr, hfailed⟩ | ⟨ms, known₁, us, vs, rfl, hfirst, hlater⟩
    · cases hr
    -- one group version never fails, so neither do all of them
    · obtain ⟨_, _, hno, _⟩ := led_versionMappings hfailed
      cases hno
    obtain ⟨document, hfetches, hms, -⟩ := led_versionMappings hfirst
    cases hms
    rcases led_bind_iff.mp hlater with
      ⟨hr, -⟩ | ⟨e, known₂, hr, hfailed⟩ | ⟨mss, known₂, vs, ws, rfl, hrest, hend⟩
    · cases hr
    · obtain ⟨_, _, hno⟩ := ih hfailed
      cases hno
    obtain ⟨documents, hall, hmss⟩ := ih hrest
    cases hmss
    obtain ⟨rfl, rfl, -⟩ := led_pure_some hend
    rw [List.append_nil]
    exact ⟨_, .cons hfetches hall, rfl⟩

/-! ### Discovery -/

/-- Discovery asks for the kinds of the core group, for the groups, and for all of their versions.
It cannot do without the first two. -/
inductive Discovers (c : Cluster) : Requests → Option Findings → Prop
  | noCore {ts : Requests} (core : c.Fetches ApiResourceList.shape "/api/v1" ts none) :
      Discovers c ts none
  | noGroups {us vs : Requests} {core : ApiResourceList}
      (reading : c.Fetches ApiResourceList.shape "/api/v1" us (some core))
      (groups : c.Fetches ApiGroupList.shape "/apis" vs none) : Discovers c (us ++ vs) none
  | found {us vs ws : Requests} {core : ApiResourceList} {groups : List ApiGroup}
      {documents : List (String × Option ApiResourceList)}
      (reading : c.Fetches ApiResourceList.shape "/api/v1" us (some core))
      (listing : c.Fetches ApiGroupList.shape "/apis" vs (some ⟨groups⟩))
      (versions : c.FetchesAll (groups.flatMap ApiGroup.groupVersions) ws documents) :
      Discovers c (us ++ (vs ++ ws)) (some ⟨core, groups, documents⟩)

/-- What is found out depends on the answers alone. -/
theorem Discovers.unique {found found' : Option Findings} (h : c.Discovers ts found)
    (h' : c.Discovers ts found') : found = found' := by
  -- both begin with the same requests, whose answers decide how they go on
  generalize heq : ts = ts' at h'
  cases h with
  | noCore core =>
    cases h' with
    | noCore _ => rfl
    | noGroups reading _ | found reading _ _ =>
      cases (core.unique reading ((List.append_nil ts).trans heq)).1
  | noGroups reading groups =>
    cases h' with
    | noCore core => cases (reading.unique core (heq.trans (List.append_nil ts').symm)).1
    | noGroups _ _ => rfl
    | found reading' listing _ =>
      have hrest := (reading.unique reading' heq).2
      cases (groups.unique listing ((List.append_nil _).trans hrest)).1
  | found reading listing versions =>
    cases h' with
    | noCore core => cases (reading.unique core (heq.trans (List.append_nil ts').symm)).1
    | noGroups reading' groups =>
      have hrest := (reading.unique reading' heq).2
      cases (listing.unique groups (hrest.trans (List.append_nil _).symm)).1
    | found reading' listing' versions' =>
      obtain ⟨hcore, hrest⟩ := reading.unique reading' heq
      obtain ⟨hgroups, hlater⟩ := listing.unique listing' hrest
      cases hcore
      cases hgroups
      rw [versions.unique versions' hlater]

/-- Discovery fails if, and only if, one of the two documents that it cannot do without is not
found. -/
theorem discovers_none_iff : c.Discovers ts none ↔
    c.Fetches ApiResourceList.shape "/api/v1" ts none ∨ ∃ us vs core, ts = us ++ vs ∧
      c.Fetches ApiResourceList.shape "/api/v1" us (some core) ∧
        c.Fetches ApiGroupList.shape "/apis" vs none := by
  constructor
  · intro h
    cases h with
    | noCore core => exact .inl core
    | noGroups reading groups => exact .inr ⟨_, _, _, rfl, reading, groups⟩
  · rintro (core | ⟨us, vs, core, rfl, reading, groups⟩)
    · exact .noCore core
    · exact .noGroups reading groups

/-- Discovery begins with a request, if that can be made. -/
theorem Discovers.exists_cons {found : Option Findings} (h : c.Discovers ts found)
    {request : HttpRequest} (hrequest : c.documentRequest? "/api/v1" = some request) :
    ∃ answer rest, ts = ⟨request, answer⟩ :: rest := by
  -- the kinds of the core group are asked for first, whatever comes after
  have hfirst : ∀ {us : Requests} {core : Option ApiResourceList},
      c.Fetches ApiResourceList.shape "/api/v1" us core → ∃ answer, us = [⟨request, answer⟩] := by
    intro us core hcore
    cases hcore with
    | unmade hnone => simp [hnone] at hrequest
    | made hrequest' answer =>
      obtain rfl := Option.some.inj (hrequest.symm.trans hrequest')
      exact ⟨answer, rfl⟩
  cases h with
  | noCore core =>
    obtain ⟨answer, rfl⟩ := hfirst core
    exact ⟨answer, [], rfl⟩
  | noGroups reading _ | found reading _ _ =>
    obtain ⟨answer, rfl⟩ := hfirst reading
    exact ⟨answer, _, rfl⟩

theorem sends_discover : Sends .get c.discover := by
  refine (Sends.tryCatch (sends_document _ _) fun e => .throw _).bind fun core => ?_
  refine (Sends.tryCatch (sends_document _ _) fun e => .throw _).bind fun groups => ?_
  exact (Sends.mapM sends_versionMappings _).bind fun ms => .pure _

/-- So discovery goes, and if it fails it says so. -/
theorem led_discover {result : Except ClientError (List KindMapping)}
    (h : c.discover.Led known ts (some (result, known'))) :
    known' = known ∧ ∃ found, c.Discovers ts found ∧
      result.toOption = found.map Findings.mappings ∧
        ∀ e, result = .error e → ∃ message, e = .discovery message := by
  refine ⟨(sends_discover known ts _ h).2 _ _ rfl, ?_⟩
  rcases led_bind_iff.mp h with
    ⟨hr, -⟩ | ⟨e, known₁, hr, hfailed⟩ | ⟨core, known₁, us, vs, rfl, hcore, h⟩
  · cases hr
  · cases hr
    obtain ⟨⟨message, rfl⟩, cause, hdocument⟩ := led_indispensable_error hfailed
    exact ⟨none, .noCore (led_document hdocument).1, rfl, fun e he =>
      ⟨message, (Except.error.inj he).symm⟩⟩
  -- the kinds of the core group are there
  have hreading := (led_document (led_indispensable_ok hcore)).1
  rcases led_bind_iff.mp h with
    ⟨hr, -⟩ | ⟨e, known₂, hr, hfailed⟩ | ⟨⟨groups⟩, known₂, vs, ws, rfl, hgroups, h⟩
  · cases hr
  · cases hr
    obtain ⟨⟨message, rfl⟩, cause, hdocument⟩ := led_indispensable_error hfailed
    exact ⟨none, .noGroups hreading (led_document hdocument).1, rfl, fun e he =>
      ⟨message, (Except.error.inj he).symm⟩⟩
  -- the groups are there, too, and nothing after this can fail
  have hlisting := (led_document (led_indispensable_ok hgroups)).1
  rcases led_bind_iff.mp h with
    ⟨hr, -⟩ | ⟨e, known₃, hr, hfailed⟩ | ⟨mss, known₃, ws, xs, rfl, hversions, hend⟩
  · cases hr
  · obtain ⟨_, _, hno⟩ := led_mapM_versionMappings hfailed
    cases hno
  obtain ⟨documents, hall, hmss⟩ := led_mapM_versionMappings hversions
  cases hmss
  obtain ⟨rfl, rfl, -⟩ := led_pure_some hend
  rw [List.append_nil]
  refine ⟨_, .found hreading hlisting hall, ?_, fun e he => nomatch he⟩
  rw [← List.flatMap_def]
  rfl

/-! ### Servers that do not change -/

/-- What a server has at a path. -/
def served (c : Cluster) (serve : HttpRequest → Option HttpResponse) (s : Shape α)
    (path : String) : Option α :=
  (c.documentRequest? path).bind fun request => fetched s (serve request)

/-- What there is to be found at a server, if it has what discovery cannot do without. -/
def findings? (c : Cluster) (serve : HttpRequest → Option HttpResponse) : Option Findings := do
  let core ← c.served serve ApiResourceList.shape "/api/v1"
  let listed ← c.served serve ApiGroupList.shape "/apis"
  return ⟨core, listed.groups, (listed.groups.flatMap ApiGroup.groupVersions).map fun v =>
    (v, c.served serve ApiResourceList.shape ("/apis/" ++ v))⟩

variable {serve : HttpRequest → Option HttpResponse}

theorem Fetches.eq_served {s : Shape α} {path : String} {found : Option α}
    (h : c.Fetches s path ts found) (hserve : ∀ t ∈ ts, t.2 = serve t.1) :
    found = c.served serve s path := by
  cases h with
  | unmade hnone => rw [served, hnone, Option.bind_none]
  | @made request hrequest answer =>
    have hanswer : answer = serve request := hserve _ List.mem_cons_self
    rw [served, hrequest, Option.bind_some, hanswer]

theorem FetchesAll.eq_served {groupVersions : List String}
    {documents : List (String × Option ApiResourceList)}
    (h : c.FetchesAll groupVersions ts documents) (hserve : ∀ t ∈ ts, t.2 = serve t.1) :
    documents =
      groupVersions.map fun v => (v, c.served serve ApiResourceList.shape ("/apis/" ++ v)) := by
  induction h with
  | nil => rfl
  | cons first _ ih =>
    obtain ⟨hfirst, hrest⟩ := List.forall_mem_append.mp hserve
    rw [List.map_cons, ← first.eq_served hfirst, ← ih hrest]

/-- What discovery finds at a server that does not change is what there is to be found there. -/
theorem Discovers.eq_findings? {found : Option Findings} (h : c.Discovers ts found)
    (hserve : ∀ t ∈ ts, t.2 = serve t.1) : found = c.findings? serve := by
  cases h with
  | noCore core =>
    rw [findings?, ← core.eq_served hserve]
    rfl
  | noGroups reading groups =>
    obtain ⟨hreading, hgroups⟩ := List.forall_mem_append.mp hserve
    rw [findings?, ← reading.eq_served hreading, ← groups.eq_served hgroups]
    rfl
  | found reading listing versions =>
    obtain ⟨hreading, hserve⟩ := List.forall_mem_append.mp hserve
    obtain ⟨hlisting, hversions⟩ := List.forall_mem_append.mp hserve
    rw [findings?, ← reading.eq_served hreading, ← listing.eq_served hlisting,
      versions.eq_served hversions]
    rfl

/-- Discovery at a server that does not change finds what there is to be found. -/
theorem exists_led_discover {D : Findings} (known : Discovered) (h : c.findings? serve = some D) :
    ∃ ts, c.discover.Led known ts (some (.ok D.mappings, known)) ∧ c.Discovers ts (some D) := by
  have hled := Dialogue.led_play (fun request state => (serve request, state))
    (c.discover.run.run known) ()
  have hserve := Dialogue.eq_of_mem_play serve (c.discover.run.run known)
  generalize (c.discover.run.run known).play _ () = played at hled hserve
  obtain ⟨ts, result, known'⟩ := played
  obtain ⟨rfl, found, hfound, hresult, -⟩ := led_discover hled
  obtain rfl : found = some D := (hfound.eq_findings? hserve).trans h
  cases result with
  | error e => cases hresult
  | ok ms =>
    cases hresult
    exact ⟨ts, hled, hfound⟩

/-! ### Look-ups -/

/-- What a call looks up in the kinds that are known. -/
def lookup? : (call : Call) → Option (List KindMapping → call.Answer)
  | .mappingForKind k => some fun ms => lookUp ms k
  | .mappingForVersion k version => some fun ms => lookUpVersion ms k version
  | .resolve category => some fun ms => .ok (members ms category.name)
  | .list _ | .create _ _ | .update _ _ | .reset | .observe => none

/-- What becomes of a look-up, of its requests and of what is known. What is known is used;
otherwise discovery finds it out, and it is known if that succeeds. -/
inductive LooksUp (c : Cluster) (refuse : ClientError → Option α) (look : List KindMapping → α) :
    Discovered → Requests → α → Discovered → Prop
  | known (ms : List KindMapping) : LooksUp c refuse look (some ms) [] (look ms) (some ms)
  | found {ts : Requests} {D : Findings} (discovery : c.Discovers ts (some D)) :
      LooksUp c refuse look none ts (look D.mappings) (some D.mappings)
  | failed {ts : Requests} {a : α} {message : String} (discovery : c.Discovers ts none)
      (refusal : refuse (.discovery message) = some a) : LooksUp c refuse look none ts a none

namespace LooksUp

variable {refuse : ClientError → Option α} {look : List KindMapping → α} {a : α}

theorem of_known {ms : List KindMapping} (h : c.LooksUp refuse look (some ms) ts a known') :
    ts = [] ∧ a = look ms ∧ known' = some ms := by
  cases h
  exact ⟨rfl, rfl, rfl⟩

theorem of_none (h : c.LooksUp refuse look none ts a known') :
    (∃ D, c.Discovers ts (some D) ∧ a = look D.mappings ∧ known' = some D.mappings) ∨
      ∃ message, c.Discovers ts none ∧ refuse (.discovery message) = some a ∧ known' = none := by
  cases h with
  | found discovery => exact .inl ⟨_, discovery, rfl, rfl⟩
  | failed discovery refusal => exact .inr ⟨_, discovery, refusal, rfl⟩

end LooksUp

theorem led_mappings {result : Except ClientError (List KindMapping)}
    (h : c.mappings.Led known ts (some (result, known'))) :
    c.LooksUp (some ∘ .error) .ok known ts result known' := by
  rw [Client.Led, mappings, Dialogue.run_get_bind] at h
  cases known with
  | some ms =>
    obtain ⟨rfl, rfl, rfl⟩ := led_pure_some h
    exact .known ms
  | none =>
    rcases Dialogue.led_run_bind_iff.mp h with
      ⟨hr, -⟩ | ⟨e, known₁, hr, hfailed⟩ | ⟨ms, known₁, us, vs, rfl, hms, hset⟩
    · cases hr
    · cases hr
      obtain ⟨rfl, found, hfound, hresult, herror⟩ := led_discover hfailed
      obtain ⟨message, rfl⟩ := herror e rfl
      cases found with
      | none => exact .failed hfound rfl
      | some D => cases hresult
    · obtain ⟨rfl, found, hfound, hresult, -⟩ := led_discover hms
      -- what was found is kept
      obtain ⟨rfl, hr⟩ := Dialogue.led_done_some
        (a := ((.ok ms : Except ClientError (List KindMapping)), some ms)) hset
      cases hr
      cases found with
      | none => cases hresult
      | some D =>
        cases hresult
        rw [List.append_nil]
        exact .found hfound

/-- All look-ups go on in the same way from the kinds that are known then. -/
theorem led_mappings_bind {read : List KindMapping → Except ClientError α}
    {result : Except ClientError α}
    (h : (c.mappings >>= fun ms => orThrow (read ms)).Led known ts (some (result, known'))) :
    c.LooksUp (some ∘ .error) read known ts result known' := by
  -- reading what is known asks nothing and changes nothing
  have hread : ∀ {ms : List KindMapping} {known₁ : Discovered} {vs : Requests},
      (orThrow (read ms)).Led known₁ vs (some (result, known')) →
        vs = [] ∧ result = read ms ∧ known' = known₁ := by
    intro ms known₁ vs h
    cases hms : read ms with
    | ok b =>
      rw [hms] at h
      exact led_pure_some h
    | error e =>
      rw [hms] at h
      exact led_throw_some h
  rcases led_bind_iff.mp h with
    ⟨hr, -⟩ | ⟨e, known₁, hr, hfailed⟩ | ⟨ms, known₁, us, vs, rfl, hms, hrest⟩
  · cases hr
  · cases hr
    have hmappings := led_mappings hfailed
    cases known with
    | some ms => cases hmappings.of_known.2.1
    | none =>
      rcases hmappings.of_none with ⟨D, -, hno, -⟩ | ⟨message, discovery, refusal, rfl⟩
      · cases hno
      · cases refusal
        exact .failed discovery rfl
  · obtain ⟨rfl, rfl, rfl⟩ := hread hrest
    rw [List.append_nil]
    have hmappings := led_mappings hms
    cases known with
    | some ms' =>
      obtain ⟨rfl, hr, rfl⟩ := hmappings.of_known
      cases hr
      exact .known ms
    | none =>
      rcases hmappings.of_none with ⟨D, discovery, hr, rfl⟩ | ⟨message, -, refusal, -⟩
      · cases hr
        exact .found discovery
      · cases refusal

theorem led_lookup {call : Call} {look : List KindMapping → call.Answer}
    (hlook : lookup? call = some look) {a : call.Answer}
    (h : Dialogue.Led ((c.answer call).run known) ts (some (a, known'))) :
    c.LooksUp (call.refusal? ·) look known ts a known' := by
  cases call with
  | mappingForKind k | mappingForVersion k version | resolve category =>
    cases hlook
    exact led_mappings_bind h
  | list | create | update | reset | observe => cases hlook

end Cluster

end PlaneRestore
