import Mathlib.Data.List.Induction
import PlaneRestore.Proofs.Cluster.Preference
/-!
How long it is known how kinds are served.

* A `MadeCall` is a call with its requests and its answer; `Cluster.Makes c known log known'`: calls
  were made one after another.
* `NeedsDiscovery before`: a look-up that comes after the calls `before` is the first one of all, or
  the first one after a reset, or comes after one whose discovery has failed.
* `discovery_is_cached_until_reset`: these look-ups send the requests of discovery, and no others.
-/

namespace PlaneRestore

open Cluster

/-- A call that was made to a cluster, with its requests and its answer. -/
structure MadeCall where
  call : Call
  requests : Requests
  answer : call.Answer

namespace MadeCall

/-- Whether a call has to do with how kinds are served. -/
def isAboutKinds (e : MadeCall) : Bool :=
  match e.call with
  | .mappingForKind _ | .mappingForVersion _ _ | .resolve _ | .reset => true
  | .list _ | .create _ _ | .update _ _ | .observe => false

/-- A call was answered that discovery has failed. -/
def FailsDiscovery (e : MadeCall) : Prop :=
  ∃ message, e.call.refusal? (.discovery message) = some e.answer

end MadeCall

/-- The last call that had to do with how kinds are served was a reset, or a look-up whose discovery
has failed, or there was none. -/
def NeedsDiscovery (before : List MadeCall) : Prop :=
  ∀ e, (before.filter MadeCall.isAboutKinds).getLast? = some e →
    e.call = .reset ∨ e.FailsDiscovery

namespace Cluster

variable {c : Cluster} {known known' : Discovered} {log : List MadeCall} {e : MadeCall}
  {look : List KindMapping → e.call.Answer}

/-- A call is made to a cluster of which `known` is known, and `known'` then. -/
def Makes1 (c : Cluster) (known : Discovered) (e : MadeCall) (known' : Discovered) : Prop :=
  Dialogue.Led ((c.answer e.call).run known) e.requests (some (e.answer, known'))

/-- Calls are made one after another. -/
inductive Makes (c : Cluster) : Discovered → List MadeCall → Discovered → Prop
  | nil (known : Discovered) : Makes c known [] known
  | cons {known known₁ known' : Discovered} {e : MadeCall} {log : List MadeCall}
      (first : c.Makes1 known e known₁) (rest : Makes c known₁ log known') :
      Makes c known (e :: log) known'

theorem makes_append_iff {us vs : List MadeCall} :
    c.Makes known (us ++ vs) known' ↔
      ∃ known₁, c.Makes known us known₁ ∧ c.Makes known₁ vs known' := by
  constructor
  · intro h
    induction us generalizing known with
    | nil => exact ⟨known, .nil known, h⟩
    | cons e us ih =>
      cases h with
      | cons first rest =>
        obtain ⟨known₁, hus, hvs⟩ := ih rest
        exact ⟨known₁, .cons first hus, hvs⟩
  · rintro ⟨known₁, hus, hvs⟩
    induction hus with
    | nil known => exact hvs
    | cons first _ ih => exact .cons first (ih hvs)

/-! ### One call -/

/-- What a call has to do with how kinds are served. -/
inductive Course (c : Cluster) (known : Discovered) (e : MadeCall) (known' : Discovered) : Prop
  | lookup {look : List KindMapping → e.call.Answer} (hlook : lookup? e.call = some look)
      (h : c.LooksUp (e.call.refusal? ·) look known e.requests e.answer known')
  | reset (hreset : e.call = .reset) (silent : e.requests = []) (after : known' = none)
  | other (hother : e.isAboutKinds = false) (after : known' = known)

theorem Makes1.course (h : c.Makes1 known e known') : c.Course known e known' := by
  obtain ⟨call, requests, answer⟩ := e
  cases call with
  | mappingForKind k | mappingForVersion k version | resolve category =>
    exact .lookup rfl (led_lookup rfl h)
  | reset =>
    obtain ⟨hrequests, hr⟩ := Dialogue.led_done_some (a := ((), (none : Discovered))) h
    cases hr
    exact .reset rfl hrequests rfl
  | list m => exact .other rfl ((sends_pages m pageLimit none known _ _ h).2 _ _ rfl)
  | create m r => exact .other rfl ((sends_submit _ _ _ m r known _ _ h).2 _ _ rfl)
  | update m r => exact .other rfl ((sends_submit _ _ _ m r known _ _ h).2 _ _ rfl)
  | observe => exact .other rfl ((sends_observe known _ _ h).2 _ _ rfl)

theorem isAboutKinds_of_lookup? (h : lookup? e.call = some look) : e.isAboutKinds = true := by
  obtain ⟨call, requests, answer⟩ := e
  cases call with
  | mappingForKind | mappingForVersion | resolve => rfl
  | list | create | update | reset | observe => cases h

theorem ne_reset_of_lookup? (h : lookup? e.call = some look) : e.call ≠ .reset := by
  intro hreset
  obtain ⟨call, requests, answer⟩ := e
  cases hreset
  cases h

/-- What is looked up in a list is no failure of discovery. -/
theorem refusal?_ne_of_lookup? {call : Call} {look : List KindMapping → call.Answer}
    (h : lookup? call = some look) (message : String) (ms : List KindMapping) :
    call.refusal? (.discovery message) ≠ some (look ms) := by
  -- a look-up fails only as it finds nothing
  have hnot : ∀ {nothing : ClientError} {found : Option KindMapping},
      nothing ≠ .discovery message → .error (.discovery message) ≠ foundOr nothing found := by
    intro nothing found hnothing hfound
    cases found with
    | some m => cases hfound
    | none => exact hnothing (Except.error.inj hfound).symm
  cases call with
  | mappingForKind k =>
    cases h
    intro hrefusal
    have hanswer : .error (.discovery message) = lookUp ms k := Option.some.inj hrefusal
    rw [lookUp_eq] at hanswer
    exact hnot (by simp) hanswer
  | mappingForVersion k version =>
    cases h
    intro hrefusal
    have hanswer : .error (.discovery message) = lookUpVersion ms k version :=
      Option.some.inj hrefusal
    rw [lookUpVersion_eq] at hanswer
    exact hnot (by simp) hanswer
  | resolve category =>
    cases h
    intro hrefusal
    cases hrefusal
  | list | create | update | reset | observe => cases h

theorem not_failsDiscovery (h : lookup? e.call = some look) {ms : List KindMapping}
    (hanswer : e.answer = look ms) : ¬e.FailsDiscovery := by
  rintro ⟨message, hrefusal⟩
  rw [hanswer] at hrefusal
  exact refusal?_ne_of_lookup? h message ms hrefusal

/-! ### Many calls -/

theorem needsDiscovery_concat : NeedsDiscovery (log ++ [e]) ↔
    (if e.isAboutKinds then e.call = .reset ∨ e.FailsDiscovery else NeedsDiscovery log) := by
  rw [NeedsDiscovery, List.filter_append]
  by_cases he : e.isAboutKinds = true
  · rw [if_pos he, List.filter_cons_of_pos he, List.filter_nil, List.getLast?_concat]
    exact ⟨fun h => h e rfl, fun h e' he' => Option.some.inj he' ▸ h⟩
  · rw [if_neg he, List.filter_cons_of_neg he, List.filter_nil, List.append_nil]
    rfl

theorem makes_concat_iff :
    c.Makes known (log ++ [e]) known' ↔
      ∃ known₁, c.Makes known log known₁ ∧ c.Makes1 known₁ e known' := by
  rw [makes_append_iff]
  refine exists_congr fun known₁ => and_congr_right fun _ => ⟨fun h => ?_, fun h => ?_⟩
  · cases h with
    | cons first rest =>
      cases rest
      exact first
  · exact .cons h (.nil known')

/-- Nothing is known if, and only if, the next look-up needs discovery. -/
theorem Makes.eq_none_iff (h : c.Makes none log known) : known = none ↔ NeedsDiscovery log := by
  induction log using List.reverseRecOn generalizing known with
  | nil =>
    cases h
    exact ⟨fun _ e he => (nomatch he), fun _ => rfl⟩
  | append_singleton log e ih =>
    obtain ⟨known₁, hbefore, hcall⟩ := makes_concat_iff.mp h
    rw [needsDiscovery_concat]
    -- a look-up knows more if it succeeds, a reset nothing, and other calls what was known
    cases hcall.course with
    | lookup hlook hlooksUp =>
      rw [if_pos (isAboutKinds_of_lookup? hlook), or_iff_right (ne_reset_of_lookup? hlook)]
      cases known₁ with
      | some ms =>
        obtain ⟨-, hanswer, rfl⟩ := hlooksUp.of_known
        exact iff_of_false (by simp) (not_failsDiscovery hlook hanswer)
      | none =>
        rcases hlooksUp.of_none with ⟨D, -, hanswer, rfl⟩ | ⟨message, -, refusal, rfl⟩
        · exact iff_of_false (by simp) (not_failsDiscovery hlook hanswer)
        · exact iff_of_true rfl ⟨message, refusal⟩
    | reset hreset silent after =>
      have habout : e.isAboutKinds = true := by rw [MadeCall.isAboutKinds, hreset]
      rw [if_pos habout]
      exact iff_of_true after (.inl hreset)
    | other hother after =>
      rw [if_neg (by simp [hother]), after]
      exact ih hbefore

/-- What is known lasts until a reset. -/
theorem Makes.eq_of_known {ms : List KindMapping} (h : c.Makes (some ms) log known)
    (hreset : ∀ e ∈ log, e.call ≠ .reset) : known = some ms := by
  induction log with
  | nil =>
    cases h
    rfl
  | cons e log ih =>
    obtain ⟨hfirst, hrest⟩ := List.forall_mem_cons.mp hreset
    cases h with
    | @cons _ known₁ _ _ _ first rest =>
      obtain rfl : known₁ = some ms := by
        cases first.course with
        | lookup _ hlooksUp => exact hlooksUp.of_known.2.2
        | reset his _ _ => exact absurd his hfirst
        | other _ after => exact after
      exact ih rest hrest

/-- A list of kinds was found. -/
structure FoundBy (c : Cluster) (before : List MadeCall) (d : MadeCall) (D : Findings) : Prop where
  isLookup : (lookup? d.call).isSome
  needed : NeedsDiscovery before
  discovery : c.Discovers d.requests (some D)

theorem FoundBy.ne_reset {before : List MadeCall} {d : MadeCall} {D : Findings}
    (h : c.FoundBy before d D) : d.call ≠ .reset := by
  obtain ⟨look, hlook⟩ := Option.isSome_iff_exists.mp h.isLookup
  exact ne_reset_of_lookup? hlook

/-- What is known was found by a look-up after which there was no reset. -/
theorem Makes.origin {ms : List KindMapping} (h : c.Makes none log (some ms)) :
    ∃ us d vs D, log = us ++ d :: vs ∧ c.FoundBy us d D ∧ (∀ e ∈ vs, e.call ≠ .reset) ∧
      ms = D.mappings := by
  induction log using List.reverseRecOn with
  | nil => cases h
  | append_singleton log e ih =>
    obtain ⟨known₁, hbefore, hcall⟩ := makes_concat_iff.mp h
    -- nothing has changed
    have hkept : known₁ = some ms → e.call ≠ .reset → ∃ us d vs D, log ++ [e] = us ++ d :: vs ∧
        c.FoundBy us d D ∧ (∀ e ∈ vs, e.call ≠ .reset) ∧ ms = D.mappings := by
      rintro rfl hreset
      obtain ⟨us, d, vs, D, rfl, hfound, hvs, hms⟩ := ih hbefore
      refine ⟨us, d, vs ++ [e], D, by simp, hfound, fun e' he' => ?_, hms⟩
      rcases List.mem_append.mp he' with he' | he'
      · exact hvs e' he'
      · rwa [List.mem_singleton.mp he']
    cases hcall.course with
    | lookup hlook hlooksUp =>
      cases known₁ with
      | some ms' => exact hkept hlooksUp.of_known.2.2.symm (ne_reset_of_lookup? hlook)
      | none =>
        rcases hlooksUp.of_none with ⟨D, discovery, -, hms⟩ | ⟨message, -, -, hno⟩
        · have hfound : c.FoundBy log e D :=
            ⟨by rw [hlook]; rfl, hbefore.eq_none_iff.mp rfl, discovery⟩
          exact ⟨log, e, [], D, rfl, hfound, fun _ h => (nomatch h), Option.some.inj hms⟩
        · cases hno
    | reset _ _ after => cases after
    | other hother after =>
      refine hkept after.symm fun hreset => ?_
      simp [MadeCall.isAboutKinds, hreset] at hother

end Cluster

/-- What there is to say about the requests and the answers of calls to a cluster. -/
structure CachesDiscovery (c : Cluster) (log : List MadeCall) : Prop where
  /-- A look-up that needs discovery is answered from what it finds, or fails as discovery does. -/
  discovers : ∀ before e after look, log = before ++ e :: after → lookup? e.call = some look →
    NeedsDiscovery before → (∃ D, c.Discovers e.requests (some D) ∧ e.answer = look D.mappings) ∨
      c.Discovers e.requests none ∧ e.FailsDiscovery
  /-- It always sends requests, unless even the first one cannot be made. -/
  asks : ∀ before e after, log = before ++ e :: after → (lookup? e.call).isSome →
    NeedsDiscovery before → ∀ request, c.documentRequest? "/api/v1" = some request →
      ∃ answer rest, e.requests = ⟨request, answer⟩ :: rest
  /-- It fails if, and only if, the core group or the list of groups cannot be fetched and read. -/
  fails : ∀ before e after, log = before ++ e :: after → (lookup? e.call).isSome →
    NeedsDiscovery before → (e.FailsDiscovery ↔
      c.Fetches ApiResourceList.shape "/api/v1" e.requests none ∨
        ∃ us vs core, e.requests = us ++ vs ∧
          c.Fetches ApiResourceList.shape "/api/v1" us (some core) ∧
            c.Fetches ApiGroupList.shape "/apis" vs none)
  /-- All other look-ups send no requests, and are answered from what an earlier look-up has found,
  after which there was no reset. -/
  reuses : ∀ before e after look, log = before ++ e :: after → lookup? e.call = some look →
    ¬NeedsDiscovery before → e.requests = [] ∧ ∃ us d vs D, before = us ++ d :: vs ∧
      c.FoundBy us d D ∧ (∀ e' ∈ vs, e'.call ≠ .reset) ∧ e.answer = look D.mappings
  /-- What was found is what all look-ups are answered from, until there is a reset. -/
  lasts : ∀ us d vs e after D look, log = us ++ d :: (vs ++ e :: after) → c.FoundBy us d D →
    (∀ e' ∈ vs, e'.call ≠ .reset) → lookup? e.call = some look →
      e.requests = [] ∧ e.answer = look D.mappings
  /-- After a reset, what is answered was found after the reset. -/
  forgets : ∀ us r vs e after look, log = us ++ r :: (vs ++ e :: after) → r.call = .reset →
    lookup? e.call = some look →
      (∃ D, c.Discovers e.requests (some D) ∧ e.answer = look D.mappings) ∨
        (c.Discovers e.requests none ∧ e.FailsDiscovery) ∨
          e.requests = [] ∧ ∃ vs₁ d vs₂ D, vs = vs₁ ++ d :: vs₂ ∧
            c.FoundBy (us ++ r :: vs₁) d D ∧ e.answer = look D.mappings
  /-- A reset sends nothing. -/
  resets : ∀ e ∈ log, e.call = .reset → e.requests = []
  /-- Nothing is known when a look-up needs discovery, and only then. -/
  state : ∀ before after, log = before ++ after → ∃ known, c.Makes none before known ∧
    (known = none ↔ NeedsDiscovery before)

namespace Cluster

variable {c : Cluster} {known : Discovered} {log : List MadeCall}

/-- A call of many was made after those before it. -/
theorem Makes.at_call {before after : List MadeCall} {e : MadeCall}
    (h : c.Makes none (before ++ e :: after) known) :
    ∃ known₁ known₂, c.Makes none before known₁ ∧ c.Makes1 known₁ e known₂ := by
  obtain ⟨known₁, hbefore, hrest⟩ := makes_append_iff.mp h
  cases hrest with
  | cons first _ => exact ⟨known₁, _, hbefore, first⟩

theorem Makes1.looksUp {known' : Discovered} {e : MadeCall}
    {look : List KindMapping → e.call.Answer} (h : c.Makes1 known e known')
    (hlook : lookup? e.call = some look) :
    c.LooksUp (e.call.refusal? ·) look known e.requests e.answer known' := led_lookup hlook h

/-- A look-up that needs discovery. -/
theorem Makes.discovers {before after : List MadeCall} {e : MadeCall}
    {look : List KindMapping → e.call.Answer} (h : c.Makes none (before ++ e :: after) known)
    (hlook : lookup? e.call = some look) (hneeds : NeedsDiscovery before) :
    (∃ D, c.Discovers e.requests (some D) ∧ e.answer = look D.mappings) ∨
      c.Discovers e.requests none ∧ e.FailsDiscovery := by
  obtain ⟨known₁, known₂, hbefore, hcall⟩ := h.at_call
  obtain rfl := hbefore.eq_none_iff.mpr hneeds
  rcases (hcall.looksUp hlook).of_none with ⟨D, discovery, hanswer, -⟩ | ⟨message, hnone, hfails, -⟩
  · exact .inl ⟨D, discovery, hanswer⟩
  · exact .inr ⟨hnone, message, hfails⟩

/-- A look-up that needs no discovery. -/
theorem Makes.reuses {before after : List MadeCall} {e : MadeCall}
    {look : List KindMapping → e.call.Answer} (h : c.Makes none (before ++ e :: after) known)
    (hlook : lookup? e.call = some look) (hneeds : ¬NeedsDiscovery before) :
    e.requests = [] ∧ ∃ us d vs D, before = us ++ d :: vs ∧ c.FoundBy us d D ∧
      (∀ e' ∈ vs, e'.call ≠ .reset) ∧ e.answer = look D.mappings := by
  obtain ⟨known₁, known₂, hbefore, hcall⟩ := h.at_call
  cases known₁ with
  | none => exact absurd (hbefore.eq_none_iff.mp rfl) hneeds
  | some ms =>
    obtain ⟨us, d, vs, D, hsplit, hfound, hvs, rfl⟩ := hbefore.origin
    obtain ⟨hrequests, hanswer, -⟩ := (hcall.looksUp hlook).of_known
    exact ⟨hrequests, us, d, vs, D, hsplit, hfound, hvs, hanswer⟩

/-- What was found lasts until a reset. -/
theorem Makes.lasts {us vs after : List MadeCall} {d e : MadeCall} {D : Findings}
    {look : List KindMapping → e.call.Answer}
    (h : c.Makes none (us ++ d :: (vs ++ e :: after)) known) (hfound : c.FoundBy us d D)
    (hvs : ∀ e' ∈ vs, e'.call ≠ .reset) (hlook : lookup? e.call = some look) :
    e.requests = [] ∧ e.answer = look D.mappings := by
  obtain ⟨known₁, hbefore, hrest⟩ := makes_append_iff.mp h
  obtain rfl := hbefore.eq_none_iff.mpr hfound.needed
  cases hrest with
  | @cons _ known₂ _ _ _ first rest =>
    obtain ⟨look', hlook'⟩ := Option.isSome_iff_exists.mp hfound.isLookup
    -- the same answers have been given, so this is what was found
    obtain rfl : known₂ = some D.mappings := by
      rcases (first.looksUp hlook').of_none with ⟨D', discovery, -, rfl⟩ | ⟨message, hnone, -, -⟩
      · cases discovery.unique hfound.discovery
        rfl
      · cases hnone.unique hfound.discovery
    -- it is still known, as there was no reset
    obtain ⟨known₃, hmiddle, hrest⟩ := makes_append_iff.mp rest
    obtain rfl := hmiddle.eq_of_known hvs
    cases hrest with
    | cons hcall _ =>
      obtain ⟨hrequests, hanswer, -⟩ := (hcall.looksUp hlook).of_known
      exact ⟨hrequests, hanswer⟩

/-- After a reset, only what was found after it is used. -/
theorem Makes.forgets {us vs after : List MadeCall} {reset e : MadeCall}
    {look : List KindMapping → e.call.Answer}
    (h : c.Makes none (us ++ reset :: (vs ++ e :: after)) known) (hreset : reset.call = .reset)
    (hlook : lookup? e.call = some look) (hneeds : ¬NeedsDiscovery (us ++ reset :: vs)) :
    e.requests = [] ∧ ∃ vs₁ d vs₂ D, vs = vs₁ ++ d :: vs₂ ∧
      c.FoundBy (us ++ reset :: vs₁) d D ∧ e.answer = look D.mappings := by
  have hassoc : us ++ reset :: (vs ++ e :: after) = (us ++ reset :: vs) ++ e :: after := by simp
  rw [hassoc] at h
  obtain ⟨hrequests, us', d, vs', D, hsplit, hfound, hvs', hanswer⟩ := h.reuses hlook hneeds
  refine ⟨hrequests, ?_⟩
  -- what was found is not the reset itself
  have hother : reset ≠ d := by
    rintro rfl
    exact hfound.ne_reset hreset
  rcases List.append_eq_append_iff.mp hsplit with ⟨as, rfl, has⟩ | ⟨bs, rfl, hbs⟩
  · cases as with
    | nil => exact absurd (List.cons.inj has).1 hother
    | cons a as =>
      obtain ⟨rfl, rfl⟩ := List.cons.inj has
      exact ⟨as, d, vs', D, rfl, hfound, hanswer⟩
  · -- otherwise the reset would come after what was found
    cases bs with
    | nil => exact absurd (List.cons.inj hbs).1.symm hother
    | cons b bs =>
      obtain ⟨rfl, rfl⟩ := List.cons.inj hbs
      exact absurd hreset (hvs' reset (by simp))

end Cluster

/-- **Discovery is cached until a reset.** Whatever calls are made to a cluster, one after another,
and whatever the server answers: a look-up of kinds sends the requests of discovery if, and only if,
it is the first one, or the first one after a reset, or comes after one whose discovery has failed.
Discovery that fails leaves nothing behind; what is found otherwise answers all look-ups until the
next reset, and none after that. -/
theorem discovery_is_cached_until_reset (c : Cluster) {known : Discovered} {log : List MadeCall}
    (h : c.Makes none log known) : CachesDiscovery c log where
  discovers before e after look hlog hlook hneeds := by
    subst hlog
    exact h.discovers hlook hneeds
  asks before e after hlog hlookup hneeds request hrequest := by
    subst hlog
    obtain ⟨look, hlook⟩ := Option.isSome_iff_exists.mp hlookup
    rcases h.discovers hlook hneeds with ⟨D, discovery, -⟩ | ⟨discovery, -⟩
    · exact discovery.exists_cons hrequest
    · exact discovery.exists_cons hrequest
  fails before e after hlog hlookup hneeds := by
    subst hlog
    obtain ⟨look, hlook⟩ := Option.isSome_iff_exists.mp hlookup
    rw [← discovers_none_iff]
    rcases h.discovers hlook hneeds with ⟨D, discovery, hanswer⟩ | ⟨discovery, hfails⟩
    · refine iff_of_false (not_failsDiscovery hlook hanswer) fun hnone => ?_
      cases discovery.unique hnone
    · exact iff_of_true hfails discovery
  reuses before e after look hlog hlook hneeds := by
    subst hlog
    exact h.reuses hlook hneeds
  lasts us d vs e after D look hlog hfound hvs hlook := by
    subst hlog
    exact h.lasts hfound hvs hlook
  forgets us r vs e after look hlog hreset hlook := by
    subst hlog
    -- after the reset it is found out anew, or a look-up in between has done so
    by_cases hneeds : NeedsDiscovery (us ++ r :: vs)
    · have hassoc : us ++ r :: (vs ++ e :: after) = (us ++ r :: vs) ++ e :: after := by simp
      rw [hassoc] at h
      rcases h.discovers hlook hneeds with hfound | hfails
      · exact .inl hfound
      · exact .inr (.inl hfails)
    · exact .inr (.inr (h.forgets hreset hlook hneeds))
  resets e he hreset := by
    obtain ⟨before, after, rfl⟩ := List.append_of_mem he
    obtain ⟨known₁, known₂, -, hcall⟩ := h.at_call
    cases hcall.course with
    | lookup hlook _ => exact absurd hreset (ne_reset_of_lookup? hlook)
    | reset _ silent _ => exact silent
    | other hother _ => simp [MadeCall.isAboutKinds, hreset] at hother
  state before after hlog := by
    subst hlog
    obtain ⟨known₁, hbefore, -⟩ := makes_append_iff.mp h
    exact ⟨known₁, hbefore, hbefore.eq_none_iff⟩

namespace Sample

/-- A server without kinds. -/
def serveNothing (request : HttpRequest) : Option HttpResponse :=
  match request.url.render with
  | "http://127.0.0.1:8001/api/v1" => answering "\x7b\"groupVersion\":\"v1\"\x7d"
  | "http://127.0.0.1:8001/apis" => answering "\x7b\x7d"
  | _ => none

/-- A call that the server answers, or leaves without an answer. -/
def exchanged (isUp : Bool) (call : Call) (known : Discovered) :
    Requests × call.Answer × Discovered :=
  ((cluster.answer call).run known).play
    (fun request state => (if isUp then serveNothing request else none, state)) ()

/-- A call of this kind, and what is known after it. -/
def madeCall (isUp : Bool) (call : Call) (known : Discovered) : MadeCall × Discovered :=
  (⟨call, (exchanged isUp call known).1, (exchanged isUp call known).2.1⟩,
    (exchanged isUp call known).2.2)

theorem makes1_madeCall (isUp : Bool) (call : Call) (known : Discovered) :
    cluster.Makes1 known (madeCall isUp call known).1 (madeCall isUp call known).2 := by
  exact Dialogue.led_play
    (fun request state => (if isUp then serveNothing request else none, state)) _ ()

/-- Some calls one after another, and what is known after them. -/
def madeCalls : List (Bool × Call) → Discovered → List MadeCall × Discovered
  | [], known => ([], known)
  | (isUp, call) :: calls, known =>
    let first := madeCall isUp call known
    let rest := madeCalls calls first.2
    (first.1 :: rest.1, rest.2)

theorem makes_madeCalls (calls : List (Bool × Call)) (known : Discovered) :
    cluster.Makes known (madeCalls calls known).1 (madeCalls calls known).2 := by
  induction calls generalizing known with
  | nil => exact .nil known
  | cons first calls ih => exact .cons (makes1_madeCall first.1 first.2 known) (ih _)

/-- A look-up without an answer, two with answers, a reset, and one more. -/
def history : List (Bool × Call) :=
  [(false, .resolve .claim), (true, .resolve .claim), (true, .mappingForKind ⟨"", "Pod"⟩),
    (true, .reset), (true, .mappingForVersion ⟨"", "Pod"⟩ "v1")]

end Sample

open Sample in
theorem discovery_is_cached_until_reset_sample :
    cluster.Makes none (madeCalls history none).1 (madeCalls history none).2 ∧
      CachesDiscovery cluster (madeCalls history none).1 ∧
        (madeCalls history none).1.map (·.requests.length) = [1, 2, 0, 0, 2] :=
  ⟨makes_madeCalls history none,
    discovery_is_cached_until_reset cluster (makes_madeCalls history none), by decide +kernel⟩

end PlaneRestore
