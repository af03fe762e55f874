import PlaneRestore.Proofs.Cluster.Preference
import PlaneRestore.Proofs.Json.Ordered
import PlaneRestore.Proofs.Resource.Identity
/-!
Lists that come in pages.

A server answers in turn (`inTurn`), and `Cluster.playPages` has what is asked of it for a list, and
what that comes to.

* `Cluster.CarriesToken`: a page names the next one. `Resource.IsListed`: a resource is an item of a
  list.
* `Cluster.FollowOn`: pages that each name the next one. `Cluster.FollowOn.play` goes through them
  page by page.
* `Cluster.lists_page_by_page`: nothing is lost or repeated, and the first failure ends it all.
-/

namespace PlaneRestore

open Client Cluster

/-! ### Addresses -/

namespace Url

theorem mem_of_mem_clean {x : Char} {cs : List Char} (h : x ∈ clean cs) : x ∈ cs := by
  have hkept := List.mem_reverse.mp (List.mem_of_mem_filter h)
  have hback := List.mem_reverse.mp ((List.dropWhile_sublist _).mem hkept)
  exact (List.dropWhile_sublist _).mem hback

theorem mem_of_mem_dropWord? {x : Char} {word : String} {cs rest : List Char}
    (hrest : dropWord? word cs = some rest) (h : x ∈ rest) : x ∈ cs := by
  rw [dropWord?] at hrest
  split at hrest
  · cases hrest
    exact List.mem_of_mem_drop h
  · cases hrest

theorem query_splitTail {cs : List Char} (h : '?' ∉ cs) : (splitTail cs).2.1 = none := by
  rw [splitTail]
  cases hcut : Text.splitFirst '#' cs with
  | none =>
    dsimp only
    rw [Text.splitFirst_eq_none_iff.mpr h]
  | some p =>
    obtain ⟨l, r⟩ := p
    have hl : '?' ∉ l := fun hmem =>
      h (by rw [(Text.splitFirst_eq_some_iff.mp hcut).1]; exact List.mem_append_left _ hmem)
    dsimp only
    rw [Text.splitFirst_eq_none_iff.mpr hl]

/-- Without a question mark there is no query. -/
theorem query_of_parse? {text : String} {u : Url} (h : parse? text = some u)
    (hmark : '?' ∉ text.toList) : u.query = none := by
  have hrest : ∀ {word rest}, dropWord? word (clean text.toList) = some rest →
      (splitTail ((rest.dropWhile isSlash).dropWhile (!endsAuthority ·))).2.1 = none := by
    intro word rest hword
    refine query_splitTail fun hmem => hmark ?_
    have hslashes := (List.dropWhile_sublist _).mem hmem
    exact mem_of_mem_clean (mem_of_mem_dropWord? hword ((List.dropWhile_sublist _).mem hslashes))
  simp only [parse?, Option.bind_eq_bind] at h
  split at h
  case h_3 => cases h
  -- both schemes go on in the same way
  all_goals
    obtain ⟨host, -, port, -, hu⟩ := by
      simpa only [Option.bind_some, Option.bind_eq_some_iff] using h
    cases hu
    rw [hrest (by assumption)]
    rfl

/-- A parameter, as it is written in a query. -/
def pair (name value : String) : String :=
  String.ofList (Percent.encodeForm name.toList) ++ "="
    ++ String.ofList (Percent.encodeForm value.toList)

/-- What stands before a parameter that is added to a query. -/
def leading (query : String) : String :=
  if query = "" then "" else query ++ "&"

theorem query_addQuery (name value : String) (u : Url) :
    (u.addQuery name value).query = some (leading (u.query.getD "") ++ pair name value) := by
  rw [addQuery]
  dsimp only
  split
  · next hquery =>
    rw [hquery, Option.getD_none, leading, if_pos rfl, String.empty_append]
    rfl
  · next hquery =>
    rw [hquery, Option.getD_some, leading, if_pos rfl, String.empty_append]
    rfl
  · next query hsome hquery =>
    rw [hquery, Option.getD_some, leading, if_neg hsome]
    rfl

end Url

/-! ### Items -/

namespace Json

/-- The items of a page, if it has a list of them. -/
def items (page : Json) : List Json := ((page.member? "items").bind array?).getD []

variable {name k : String} {value v : Json}

theorem isObject_fillMember : (Resource.fillMember name value v).isObject = v.isObject := by
  rw [Resource.fillMember]
  split
  · rfl
  · exact isObject_setMember

theorem member?_fillMember (h : v.isObject = true) :
    (Resource.fillMember name value v).member? k
      = (v.member? k).or (if k = name then some value else none) := by
  rw [Resource.fillMember]
  by_cases hk : k = name
  · subst hk
    rw [if_pos rfl]
    cases hv : v.member? k with
    | some x => rw [Option.isSome_some, if_pos rfl, hv, Option.some_or]
    | none =>
      rw [Option.isSome_none, if_neg Bool.false_ne_true, member?_setMember h, if_pos rfl,
        Option.none_or]
  · rw [if_neg hk, Option.or_none]
    split
    · rfl
    · exact member?_setMember_of_ne hk ..

end Json

namespace Resource

variable {m : KindMapping} {v : Json} {r r' : Resource}

/-- What is filled in where a member is missing. -/
def filled? (m : KindMapping) (k : String) : Option Json :=
  if k = "apiVersion" then some (.string m.apiVersion)
  else if k = "kind" then some (.string m.kind)
  else none

/-- A resource is an item of a list: it has the members of the item, and of the mapping what the
item does not say of its API version and kind. -/
structure IsListed (m : KindMapping) (v : Json) (r : Resource) : Prop where
  valid : r.IsValid
  members : ∀ k, r.object.member? k = (v.member? k).or (filled? m k)
  unchanged : (v.member? "apiVersion").isSome → (v.member? "kind").isSome → r.object = v

theorem IsValid.of_members (h : r.IsValid)
    (hsame : ∀ k, r'.object.member? k = r.object.member? k) : r'.IsValid where
  apiVersion := hsame "apiVersion" ▸ h.apiVersion
  kind := hsame "kind" ▸ h.kind
  metadata := hsame "metadata" ▸ h.metadata

/-- An item with its API version and kind. -/
def completed (m : KindMapping) (v : Json) : Json :=
  fillMember "kind" (.string m.kind) (fillMember "apiVersion" (.string m.apiVersion) v)

theorem member?_completed (h : v.isObject = true) (k : String) :
    (completed m v).member? k = (v.member? k).or (filled? m k) := by
  rw [completed, Json.member?_fillMember (Json.isObject_fillMember.trans h),
    Json.member?_fillMember h, Option.or_assoc, filled?]
  by_cases hversion : k = "apiVersion"
  · subst hversion
    rfl
  · rw [if_neg hversion, if_neg hversion, Option.none_or]

theorem isListed_of_ofItem (h : ofItem m.apiVersion m.kind v = .ok r) : IsListed m v r := by
  obtain ⟨hr, hvalid⟩ := ofJson_eq_ok_iff.mp h
  have hobject : v.isObject = true := by
    rw [← hvalid.isObject, hr, Json.isObject_fillMember, Json.isObject_fillMember]
  refine ⟨hvalid, fun k => hr ▸ member?_completed hobject k, fun hversion hkind => ?_⟩
  have hfirst : fillMember "apiVersion" (.string m.apiVersion) v = v := if_pos hversion
  rw [hr, hfirst]
  exact if_pos hkind

/-- An item is read if it can be one. -/
theorem ofItem_of_isListed (h : IsListed m v r) : ∃ r', ofItem m.apiVersion m.kind v = .ok r' := by
  obtain ⟨ms, hms, -⟩ := h.valid.metadata
  have hobject : v.isObject = true := by
    cases v with
    | object ms => rfl
    | _ => exact absurd ((h.members "metadata").symm.trans hms) (by simp [Json.member?, filled?])
  have hvalid : IsValid ⟨completed m v⟩ :=
    h.valid.of_members fun k => (member?_completed hobject k).trans (h.members k).symm
  exact ⟨⟨completed m v⟩, ofJson_eq_ok_iff.mpr ⟨rfl, hvalid⟩⟩

end Resource

/-! ### Pages -/

/-- A server that gives its answers in turn, whatever it is asked, and then none. -/
def inTurn (_ : HttpRequest) :
    List (Option HttpResponse) → Option HttpResponse × List (Option HttpResponse)
  | [] => (none, [])
  | a :: as => (a, as)

/-- The request for a page, from a request for all objects of a kind. -/
def HttpRequest.forPage (q : HttpRequest) (token : Option String) : HttpRequest :=
  { q with url := match token with
      | none => q.url.addQuery "limit" "500"
      | some t => (q.url.addQuery "limit" "500").addQuery "continue" t }

/-- An answer of success with a page. -/
def Brings (a : Option HttpResponse) (page : Json) : Prop :=
  readIn HttpResponse.parsed a = some page

/-- What is made of a result, whatever is known. -/
theorem Client.run_map {α β : Type} (f : α → β) (x : Client α) (known : Discovered) :
    (x >>= fun a => (pure (f a) : Client β)).run.run known
      = (x.run.run known : Exchange _) >>= fun p => (.done (p.1.map f, p.2) : Exchange _) := by
  refine congrArg (Dialogue.bind (x.run.run known)) (funext fun p => ?_)
  obtain ⟨result, known'⟩ := p
  cases result <;> rfl

namespace Cluster

variable {c : Cluster} {m : KindMapping} {page : Json} {q : HttpRequest}

/-- A page names the next one. -/
def CarriesToken (page : Json) (token : String) : Prop :=
  Json.memberAt? ["metadata", "continue"] page = some (.string token) ∧ token ≠ ""

theorem continuation_eq_some_iff {token : String} :
    continuation page = some token ↔ CarriesToken page token := by
  rw [continuation, Json.at?_eq_memberAt? (by decide), CarriesToken]
  cases Json.memberAt? ["metadata", "continue"] page with
  | none => simp
  | some v =>
    cases v with
    | string s =>
      by_cases hs : s = ""
      · subst hs
        simp [Json.string?]
      · simp only [Option.bind_some, Json.string?, Option.some.injEq, Json.string.injEq]
        split
        · next h => exact absurd (Option.some.inj h) hs
        · rw [Option.some.injEq]
          exact ⟨fun h => ⟨h, h ▸ hs⟩, And.left⟩
    | _ => simp [Json.string?]

theorem request?_forPage (token : Option String) :
    c.request? .get m.allPath
        (("limit", toString pageSize) :: (token.map fun t => ("continue", t)).toList) none
      = (c.request? .get m.allPath [] none).map (·.forPage token) := by
  simp only [request?, HttpRequest.build?]
  cases Url.parse? (c.address ++ m.allPath) with
  | none => rfl
  | some url =>
    simp only [Option.bind_eq_bind, Option.bind_some]
    split
    · cases token <;> rfl
    · rfl

/-- The parameters of the requests, after those that stand in the address. -/
theorem query_forPage :
    (q.forPage none).url.query = some (Url.leading (q.url.query.getD "") ++ "limit=500") ∧
      ∀ t, (q.forPage (some t)).url.query
        = some (Url.leading (q.url.query.getD "") ++ "limit=500&" ++ Url.pair "continue" t) := by
  have hlimit : (q.url.addQuery "limit" "500").query
      = some (Url.leading (q.url.query.getD "") ++ "limit=500") := by
    rw [Url.query_addQuery]
    rfl
  refine ⟨hlimit, fun t => (Url.query_addQuery ..).trans ?_⟩
  have hsome : Url.leading (q.url.query.getD "") ++ "limit=500" ≠ "" := fun hempty =>
    absurd (String.append_eq_empty_iff.mp hempty).2 (by decide)
  have hmark : "limit=500" ++ "&" = "limit=500&" := by decide
  rw [hlimit, Option.getD_some, Url.leading, if_neg hsome, ← hmark]
  simp only [String.append_assoc]

/-- What is made of the answer to the request for a page. -/
def fetched (m : KindMapping) (request : HttpRequest) (a : Option HttpResponse) :
    Except ClientError Json :=
  received request .read m.groupKind.display "" a >>= HttpResponse.parsed

theorem brings_iff {a : Option HttpResponse} : Brings a page ↔ fetched m q a = .ok page := by
  have hread : readIn HttpResponse.parsed a = (fetched m q a).toOption := toOption_received.symm
  rw [Brings, hread]
  cases fetched m q a <;> simp [Except.toOption]

/-- What comes after a page. -/
def goOn (c : Cluster) (m : KindMapping) (limit : Nat) (page : Json) : Client (List Resource) := do
  let items ← Client.orInvalid (itemsOf m page)
  match continuation page with
  | none => return items
  | some token => return items ++ (← c.pages m limit (some token))

/-- The requests for the pages of a list from some token on, and what they come to. -/
def playPages (c : Cluster) (m : KindMapping) (limit : Nat) (token : Option String)
    (known : Discovered) (as : List (Option HttpResponse)) :
    Requests × Except ClientError (List Resource) × Discovered :=
  ((c.pages m limit token).run.run known).play inTurn as

section Step

variable (hq : c.request? .get m.allPath [] none = some q) (limit : Nat) (token : Option String)
  (known : Discovered) {a : Option HttpResponse} (as : List (Option HttpResponse))

include hq

theorem page_eq : c.page m token = Client.ask (q.forPage token) >>= fun a =>
    orThrow (fetched m (q.forPage token) a) := by
  have hrequest := request?_forPage (c := c) (m := m) token
  rw [hq] at hrequest
  rw [page, send_eq, hrequest, Option.map_some]
  dsimp only
  rw [bind_assoc]
  refine bind_congr fun a => ?_
  rw [fetched, ← orThrow_bind]
  refine bind_congr fun response => json_eq response

/-- One page is asked for, and what comes next depends on what is made of the answer. -/
theorem playPages_succ : c.playPages m (limit + 1) token known (a :: as) =
    let rest := ((orThrow (fetched m (q.forPage token) a) >>= c.goOn m limit).run.run known).play
      inTurn as
    (⟨q.forPage token, a⟩ :: rest.1, rest.2) := by
  have hpages : c.pages m (limit + 1) token = Client.ask (q.forPage token) >>= fun a =>
      orThrow (fetched m (q.forPage token) a) >>= c.goOn m limit := by
    rw [← bind_assoc, ← page_eq hq]
    rfl
  rw [playPages, hpages]
  rfl

theorem playPages_of_error {e : ClientError} (h : fetched m (q.forPage token) a = .error e) :
    c.playPages m (limit + 1) token known (a :: as)
      = ([⟨q.forPage token, a⟩], .error e, known) := by
  rw [playPages_succ hq, h]
  rfl

theorem playPages_of_invalid {x : InvalidResource} (h : Brings a page)
    (hx : itemsOf m page = .error x) : c.playPages m (limit + 1) token known (a :: as)
      = ([⟨q.forPage token, a⟩], .error (.invalidResource x), known) := by
  rw [playPages_succ hq, brings_iff.mp h, orThrow, pure_bind, goOn, hx]
  rfl

theorem playPages_of_last {rs : List Resource} (h : Brings a page) (hrs : itemsOf m page = .ok rs)
    (hlast : ∀ t, ¬CarriesToken page t) : c.playPages m (limit + 1) token known (a :: as)
      = ([⟨q.forPage token, a⟩], .ok rs, known) := by
  have hend : continuation page = none :=
    Option.eq_none_iff_forall_ne_some.mpr fun t ht => hlast t (continuation_eq_some_iff.mp ht)
  rw [playPages_succ hq, brings_iff.mp h, orThrow, pure_bind, goOn, hrs, hend]
  rfl

theorem playPages_of_next {rs : List Resource} {t : String} (h : Brings a page)
    (hrs : itemsOf m page = .ok rs) (ht : CarriesToken page t) :
    c.playPages m (limit + 1) token known (a :: as) =
      let rest := c.playPages m limit (some t) known as
      (⟨q.forPage token, a⟩ :: rest.1, rest.2.1.map (rs ++ ·), rest.2.2) := by
  rw [playPages_succ hq, brings_iff.mp h, orThrow, pure_bind, goOn, hrs,
    continuation_eq_some_iff.mpr ht]
  have hrun := run_map (rs ++ ·) (c.pages m limit (some t)) known
  have hplay := Dialogue.play_bind_done inTurn ((c.pages m limit (some t)).run.run known)
    (fun p => (p.1.map (rs ++ ·), p.2)) as
  rw [← hrun] at hplay
  exact congrArg (fun rest => (⟨q.forPage token, a⟩ :: rest.1, rest.2)) hplay

end Step

/-- If no request can be made, none is sent. -/
theorem playPages_unsent (hq : c.request? .get m.allPath [] none = none) (limit : Nat)
    (token : Option String) (known : Discovered) (as : List (Option HttpResponse)) :
    c.playPages m (limit + 1) token known as
      = ([], .error (.transport "builder error"), known) := by
  have hrequest := request?_forPage (c := c) (m := m) token
  rw [hq, Option.map_none] at hrequest
  rw [playPages, pages, page, send_eq, hrequest]
  rfl

/-! ### Page by page -/

/-- Pages that each name the next one, and hold nothing but resources; with the answers that bring
them, and the tokens. -/
structure FollowOn (m : KindMapping) (as : List (Option HttpResponse)) (ps : List Json)
    (tokens : List String) : Prop where
  brought : List.Forall₂ Brings as ps
  named : List.Forall₂ CarriesToken ps tokens
  listed : ∀ p ∈ ps, ∀ v ∈ p.items, ∃ r, Resource.IsListed m v r

theorem exists_itemsOf (h : ∀ v ∈ page.items, ∃ r, Resource.IsListed m v r) :
    ∃ rs, itemsOf m page = .ok rs ∧ List.Forall₂ (Resource.IsListed m) page.items rs := by
  have hread : ∀ v ∈ page.items, ∃ r, Resource.ofItem m.apiVersion m.kind v = .ok r := by
    intro v hv
    obtain ⟨r, hr⟩ := h v hv
    exact Resource.ofItem_of_isListed hr
  obtain ⟨rs, hrs⟩ := exists_mapM_eq_ok hread
  exact ⟨rs, hrs, (mapM_eq_ok_iff.mp hrs).imp fun v r => Resource.isListed_of_ofItem⟩

/-- The first item that is no resource is what a page fails with. -/
theorem exists_itemsOf_error (h : ∃ v ∈ page.items, ∀ r, ¬Resource.IsListed m v r) :
    ∃ us v vs x, page.items = us ++ v :: vs ∧ (∀ u ∈ us, ∃ r, Resource.IsListed m u r) ∧
      Resource.ofItem m.apiVersion m.kind v = .error x ∧ itemsOf m page = .error x := by
  classical
  -- whether an item can be a resource is no matter of computing, but the first that cannot exists
  obtain ⟨v, hv, hnone⟩ := h
  obtain ⟨w, hw⟩ := Option.isSome_iff_exists.mp
    (List.find?_isSome (p := fun v => decide (∀ r, ¬Resource.IsListed m v r)) |>.mpr
      ⟨v, hv, by simpa using hnone⟩)
  obtain ⟨hfails, us, vs, hsplit, hus⟩ := List.find?_eq_some_iff_append.mp hw
  have hbefore : ∀ u ∈ us, ∃ r, Resource.IsListed m u r := fun u hu => by simpa using hus u hu
  cases hread : Resource.ofItem m.apiVersion m.kind w with
  | ok r => exact absurd (Resource.isListed_of_ofItem hread) (of_decide_eq_true hfails r)
  | error x =>
    refine ⟨us, w, vs, x, hsplit, hbefore, hread, ?_⟩
    have hitems : itemsOf m page = (us ++ w :: vs).mapM (Resource.ofItem m.apiVersion m.kind) := by
      rw [← hsplit]
      rfl
    rw [hitems]
    refine mapM_eq_error (fun u hu => ?_) hread
    obtain ⟨r, hr⟩ := hbefore u hu
    exact Resource.ofItem_of_isListed hr

/-- Page by page the items are added up, and each page is asked for by the token of the one
before. -/
theorem FollowOn.play {as : List (Option HttpResponse)} {ps : List Json} {tokens : List String}
    (h : FollowOn m as ps tokens) (hq : c.request? .get m.allPath [] none = some q)
    (token : Option String) : ∃ us rs,
      List.Forall₂ (Resource.IsListed m) (ps.flatMap Json.items) rs ∧ us.map (·.2) = as ∧
        us.map (·.1) ++ [q.forPage (tokens.getLast?.or token)]
          = (token :: tokens.map some).map q.forPage ∧
        ∀ limit known more, c.playPages m (as.length + limit) token known (as ++ more) =
          let rest := c.playPages m limit (tokens.getLast?.or token) known more
          (us ++ rest.1, rest.2.1.map (rs ++ ·), rest.2.2) := by
  obtain ⟨brought, named, listed⟩ := h
  -- each page leaves what follows with its own token, so any token may be the first one
  induction brought generalizing token tokens with
  | nil =>
    cases named
    refine ⟨[], [], .nil, rfl, rfl, fun limit known more => ?_⟩
    rw [List.length_nil, Nat.zero_add, List.getLast?_nil, Option.none_or, List.nil_append]
    generalize c.playPages m limit token known more = x
    obtain ⟨ts, result, known'⟩ := x
    cases result <;> rfl
  | @cons a p as ps hbrings brought ih =>
    cases named with
    | @cons _ t _ tokens ht named =>
      obtain ⟨hp, hps⟩ := List.forall_mem_cons.mp listed
      obtain ⟨rs, hrs, hitems⟩ := exists_itemsOf hp
      obtain ⟨us, rs', hrs', hanswers, hrequests, hplay⟩ := ih (some t) named hps
      have htoken : (t :: tokens).getLast?.or token = tokens.getLast?.or (some t) := by
        rw [List.getLast?_cons, Option.some_or, Option.or_some]
      refine ⟨⟨q.forPage token, a⟩ :: us, rs ++ rs', ?_, by rw [List.map_cons, hanswers], ?_,
        fun limit known more => ?_⟩
      · rw [List.flatMap_cons]
        exact List.rel_append hitems hrs'
      · rw [htoken, List.map_cons, List.cons_append, hrequests]
        rfl
      · have hlength : (a :: as).length + limit = (as.length + limit) + 1 := by
          rw [List.length_cons]
          omega
        rw [hlength, List.cons_append, playPages_of_next hq _ _ _ _ hbrings hrs ht, hplay, htoken]
        generalize c.playPages m limit (tokens.getLast?.or (some t)) known more = x
        obtain ⟨ts, result, known'⟩ := x
        cases result <;> simp [Except.map]

/-- The list ends with the request for the page after those that were brought: this many requests
were sent, each with the token of the page before, and no more, whatever would be answered then. -/
def EndsAt (c : Cluster) (m : KindMapping) (q : HttpRequest) (as : List (Option HttpResponse))
    (tokens : List String) (a : Option HttpResponse) (result : Except ClientError (List Resource)) :
    Prop :=
  ∀ limit known more, as.length < limit →
    ∃ ts, c.playPages m limit none known (as ++ a :: more) = (ts, result, known) ∧
      ts.map (·.1) = (none :: tokens.map some).map q.forPage ∧ ts.map (·.2) = as ++ [a]

/-- What the last request comes to, the whole list comes to. -/
theorem FollowOn.endsAt {as : List (Option HttpResponse)} {ps : List Json} {tokens : List String}
    (h : FollowOn m as ps tokens) (hq : c.request? .get m.allPath [] none = some q) :
    ∃ rs, List.Forall₂ (Resource.IsListed m) (ps.flatMap Json.items) rs ∧ ∀ a result,
      (∀ limit known more, c.playPages m (limit + 1) tokens.getLast? known (a :: more)
        = ([⟨q.forPage tokens.getLast?, a⟩], result, known)) →
      c.EndsAt m q as tokens a (result.map (rs ++ ·)) := by
  obtain ⟨us, rs, hrs, hanswers, hrequests, hplay⟩ := h.play hq none
  rw [Option.or_none] at hrequests hplay
  refine ⟨rs, hrs, fun a result hlast limit known more hlimit => ?_⟩
  -- there is room for one request more than there are earlier pages
  obtain ⟨k, rfl⟩ := Nat.exists_eq_add_of_lt hlimit
  refine ⟨us ++ [⟨q.forPage tokens.getLast?, a⟩], ?_, ?_, ?_⟩
  · rw [Nat.add_assoc, hplay, hlast]
  · rw [List.map_append, ← hrequests]
    rfl
  · rw [List.map_append, hanswers]
    rfl

/-- A list is read page by page. -/
structure ListsPageByPage (c : Cluster) (m : KindMapping) (q : HttpRequest) : Prop where
  /-- A list is the reading of pages with the largest bound; how it ends holds of all bounds that
  leave room for the pages there are. -/
  call : ∀ known,
    (c.answer (.list m)).run known = (c.pages m pageLimit none).run.run known
  /-- All requests are for all objects of the kind. -/
  request : q.method = .get ∧ q.body = none ∧
    Url.parse? (c.address ++ m.allPath) = some q.url
  /-- There are no other parameters than these, unless the address itself has some. -/
  query : ∃ given, ('?' ∉ (c.address ++ m.allPath).toList → given = "") ∧
    (q.forPage none).url.query = some (given ++ "limit=500") ∧
      ∀ t, (q.forPage (some t)).url.query
        = some (given ++ "limit=500&" ++ Url.pair "continue" t)
  whole : ∀ as ps tokens a page, FollowOn m as ps tokens → Brings a page →
    (∀ t, ¬CarriesToken page t) → (∀ v ∈ page.items, ∃ r, Resource.IsListed m v r) →
      ∃ rs, List.Forall₂ (Resource.IsListed m) ((ps ++ [page]).flatMap Json.items) rs ∧
        c.EndsAt m q as tokens a (.ok rs)
  failed : ∀ as ps tokens a, FollowOn m as ps tokens → (∀ page, ¬Brings a page) →
    ∃ e, fetched m (q.forPage tokens.getLast?) a = .error e ∧ c.EndsAt m q as tokens a (.error e)
  invalid : ∀ as ps tokens a page, FollowOn m as ps tokens → Brings a page →
    (∃ v ∈ page.items, ∀ r, ¬Resource.IsListed m v r) →
      ∃ us v vs x, page.items = us ++ v :: vs ∧ (∀ u ∈ us, ∃ r, Resource.IsListed m u r) ∧
        Resource.ofItem m.apiVersion m.kind v = .error x ∧
        c.EndsAt m q as tokens a (.error (.invalidResource x))

/-- **A list loses nothing and repeats nothing.** If the server brings pages that name each other by
their tokens, each is asked for once, and the list has the items of all of them in their order. If a
page does not come, or holds something else than resources, this is the error, none of the
earlier items is given, and nothing more is asked. -/
theorem lists_page_by_page (c : Cluster) (m : KindMapping) :
    (c.request? .get m.allPath [] none = none → ∀ limit token known as,
      c.playPages m (limit + 1) token known as = ([], .error (.transport "builder error"), known)) ∧
    ∀ q, c.request? .get m.allPath [] none = some q → c.ListsPageByPage m q := by
  refine ⟨fun hq limit token known as => playPages_unsent hq limit token known as, fun q hq => ?_⟩
  -- the request for the first page is the one that all others are made from
  have hsent : q.method = .get ∧ q.body = none ∧
      Url.parse? (c.address ++ m.allPath) = some q.url := by
    obtain ⟨url, hurl, hq⟩ := Option.bind_eq_some_iff.mp hq
    split at hq
    · cases hq
      exact ⟨rfl, rfl, hurl⟩
    · cases hq
  refine ⟨fun known => rfl, hsent, ⟨_, fun hmark => ?_, query_forPage⟩,
    fun as ps tokens a page h ha hlast hpage => ?_,
    fun as ps tokens a h ha => ?_, fun as ps tokens a page h ha hpage => ?_⟩
  · rw [Url.query_of_parse? hsent.2.2 hmark]
    rfl
  · obtain ⟨rs, hrs, hend⟩ := h.endsAt hq
    obtain ⟨rs', hrs', hitems⟩ := exists_itemsOf hpage
    refine ⟨rs ++ rs', ?_, hend a (.ok rs') fun limit known more =>
      playPages_of_last hq limit _ known more ha hrs' hlast⟩
    rw [List.flatMap_append, List.flatMap_singleton]
    exact List.rel_append hrs hitems
  · obtain ⟨rs, -, hend⟩ := h.endsAt hq
    cases hfetched : fetched m (q.forPage tokens.getLast?) a with
    | ok page => exact absurd (brings_iff.mpr hfetched) (ha page)
    | error e =>
      exact ⟨e, rfl, hend a (.error e) fun limit known more =>
        playPages_of_error hq limit _ known more hfetched⟩
  · obtain ⟨rs, -, hend⟩ := h.endsAt hq
    obtain ⟨us, v, vs, x, hsplit, hus, hv, hitems⟩ := exists_itemsOf_error hpage
    exact ⟨us, v, vs, x, hsplit, hus, hv, hend a (.error (.invalidResource x))
      fun limit known more => playPages_of_invalid hq limit _ known more ha hitems⟩

end Cluster

namespace Sample

/-- A kind of which there are two objects, on two pages. -/
def pagedKind : KindMapping := ⟨"", "v1", "A", "a", false, []⟩

/-- The page that names the next one by a token. -/
def firstAnswer : Option HttpResponse := answering ("\x7b\"items\":[\x7b\"metadata\":"
  ++ "\x7b\"name\":\"x\"\x7d\x7d],\"metadata\":\x7b\"continue\":\"t\"\x7d\x7d")

def lastAnswer : Option HttpResponse :=
  answering "\x7b\"items\":[\x7b\"metadata\":\x7b\"name\":\"y\"\x7d\x7d]\x7d"

/-- The page that an answer brings. -/
def pageIn (a : Option HttpResponse) : Json := (readIn HttpResponse.parsed a).getD .null

end Sample

open Sample in
theorem lists_page_by_page_sample :
    ∃ q, cluster.request? .get pagedKind.allPath [] none = some q ∧ ∃ rs,
      List.Forall₂ (Resource.IsListed pagedKind)
        ([pageIn firstAnswer, pageIn lastAnswer].flatMap Json.items) rs ∧ rs.length = 2 ∧
        cluster.EndsAt pagedKind q [firstAnswer] ["t"] lastAnswer (.ok rs) := by
  obtain ⟨q, hq⟩ : ∃ q, cluster.request? .get pagedKind.allPath [] none = some q :=
    Option.isSome_iff_exists.mp (by decide +kernel)
  have brings : ∀ a, (readIn HttpResponse.parsed a).isSome = true → Brings a (pageIn a) := by
    intro a ha
    obtain ⟨page, hpage⟩ := Option.isSome_iff_exists.mp ha
    rw [Brings, pageIn, hpage, Option.getD_some]
  have listed : ∀ page, (itemsOf pagedKind page).toBool = true →
      ∀ v ∈ page.items, ∃ r, Resource.IsListed pagedKind v r := by
    intro page hpage v hv
    by_contra hno
    obtain ⟨us, w, vs, x, -, -, -, hx⟩ := exists_itemsOf_error ⟨v, hv, not_exists.mp hno⟩
    rw [hx] at hpage
    cases hpage
  have hfirst : CarriesToken (pageIn firstAnswer) "t" :=
    continuation_eq_some_iff.mp (by decide +kernel)
  have hlast : continuation (pageIn lastAnswer) = none := by decide +kernel
  have hfollow : FollowOn pagedKind [firstAnswer] [pageIn firstAnswer] ["t"] :=
    ⟨.cons (brings _ (by decide +kernel)) .nil, .cons hfirst .nil, fun p hp =>
      List.mem_singleton.mp hp ▸ listed _ (by decide +kernel)⟩
  have hend : ∀ t, ¬CarriesToken (pageIn lastAnswer) t := by
    intro t ht
    rw [continuation_eq_some_iff.mpr ht] at hlast
    cases hlast
  obtain ⟨rs, hrs, hends⟩ := ((lists_page_by_page cluster pagedKind).2 q hq).whole _ _ _ _ _
    hfollow (brings lastAnswer (by decide +kernel)) hend (listed _ (by decide +kernel))
  refine ⟨q, hq, rs, hrs, ?_, hends⟩
  rw [← hrs.length_eq]
  decide +kernel

end PlaneRestore
