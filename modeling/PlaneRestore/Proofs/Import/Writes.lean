import PlaneRestore.Proofs.Cluster.Relay
import PlaneRestore.Proofs.Import.Careful
import PlaneRestore.Proofs.Import.History
/-!
In which order an import writes.

* `WritesInOrder log`: nothing is replaced before all that is created is there, and nothing is
  created afterwards. `AllCareful.writesInOrder` finds this in careful logs, and
  `Work.writesInOrder_importState` in those of all imports.
* `Requests.InOrder` says the same of requests; by `Cluster.Relays.inOrder` they are in the order of
  the calls to which they belong.
-/

namespace PlaneRestore

/-- Calls that replace come after those that create, and these have succeeded by then. -/
def WritesInOrder (log : List LoggedCall) : Prop :=
  log.Pairwise fun earlier later =>
    (later.call.method = .put → earlier.call.method = .post → earlier.IsSettled) ∧
      (earlier.call.method = .put → later.call.method ≠ .post)

/-- Requests that replace come after those that create, and the server has answered these by then:
the objects have been created, or there were such objects already. -/
def Requests.InOrder (requests : Requests) : Prop :=
  requests.Pairwise fun earlier later =>
    (later.1.method = .put → earlier.1.method = .post →
      ∃ response, earlier.2 = some response ∧ response.IsSettled) ∧
      (earlier.1.method = .put → later.1.method ≠ .post)

theorem Call.exists_create_of_method {call : Call} (h : call.method = .post) :
    ∃ m r, call = .create m r := by
  cases call with
  | create m r => exact ⟨m, r, rfl⟩
  | list | update | mappingForKind | mappingForVersion | reset | resolve | observe => cases h

theorem Call.exists_update_of_method {call : Call} (h : call.method = .put) :
    ∃ m r, call = .update m r := by
  cases call with
  | update m r => exact ⟨m, r, rfl⟩
  | list | create | mappingForKind | mappingForVersion | reset | resolve | observe => cases h

/-! ### Careful logs -/

section Careful

variable {s : ExportedState} {o : ImportOptions} {log : List LoggedCall}

theorem AllCareful.of_concat {e : LoggedCall} (h : AllCareful s o (log ++ [e])) :
    AllCareful s o log := by
  rintro u e' v rfl
  exact h u e' (v ++ [e]) (by simp)

theorem AllCareful.writesInOrder (h : AllCareful s o log) : WritesInOrder log := by
  induction log using List.reverseRecOn with
  | nil => exact .nil
  | append_singleton log e ih =>
    have hlast := h log e [] rfl
    refine List.pairwise_append.mpr
      ⟨ih h.of_concat, List.pairwise_singleton _ _, fun e' he' e'' he'' => ?_⟩
    obtain rfl := List.mem_singleton.mp he''
    -- the last write is careful about all before it: the creations are settled when it replaces
    refine ⟨fun hput hpost => ?_, fun hput hpost => ?_⟩
    · obtain ⟨m, r, hcall⟩ := Call.exists_update_of_method hput
      obtain ⟨m', r', hcall'⟩ := Call.exists_create_of_method hpost
      rw [hcall] at hlast
      exact hlast.settled e' (List.mem_filter.mpr ⟨he', by rw [hcall']; rfl⟩)
    · -- all manifests had been brought when something was replaced, and so there is no next one
      obtain ⟨m, r, hcall⟩ := Call.exists_create_of_method hpost
      obtain ⟨m', r', hcall'⟩ := Call.exists_update_of_method hput
      obtain ⟨u, v, rfl⟩ := List.append_of_mem he'
      have hreplaced := h u e' (v ++ [e'']) (by simp)
      rw [hcall] at hlast
      rw [hcall'] at hreplaced
      obtain ⟨task, hnext⟩ := hlast
      have hmore := (List.getElem?_eq_some_iff.mp hnext.next).1
      have hbrought := hreplaced.brought
      simp only [creations, List.filter_append, List.length_append] at hmore hbrought
      omega

end Careful

/-! ### Imports -/

section Import

variable {o : ImportOptions} {m : Memory} {ts : Turns} {log : List LoggedCall}

/-- An import works on one exported state, which it remembers or finds in the archive. -/
theorem Work.exists_importRun {r : Option (Except ImportError ImportReport × Memory)}
    (h : (importState o).Led m ts r) (hm : ∀ s, m.state = some s → s.Reachable)
    (hfiles : ∀ (path : String) (s : ExportedState),
      (⟨.extract path, .ok s⟩ : Dialogue.Turn Question Question.Answer) ∈ ts → s.Reachable) :
    ∃ s, s.Reachable ∧ ImportRun s o ts (r.map (·.1)) := by
  have hread : ∀ {path s}, ⟨.extract path, .ok s⟩ ∈ ts → ⟨.extract path, .ok s⟩ ∈ ts.readings :=
    fun hmem => List.mem_filter.mpr ⟨hmem, rfl⟩
  -- the archive is not read, or it is read once as no state is remembered
  rcases readsIfUnknown_importState h with hnone | ⟨hstate, found, hone⟩
  · have hfinds : ∀ s, Turns.Finds s ts := fun s path s' hmem => by
      have := hread hmem
      rw [hnone] at this
      cases this
    cases hstate : m.state with
    | none => exact ⟨.empty, .empty, m, r, by simp [hstate], hfinds _, h, rfl⟩
    | some s => exact ⟨s, hm s hstate, m, r, by simp [hstate], hfinds _, h, rfl⟩
  · cases found with
    -- nothing was found, and any state will do
    | error e =>
      refine ⟨.empty, .empty, m, r, by simp [hstate], fun path s' hmem => ?_, h, rfl⟩
      have := hread hmem
      rw [hone] at this
      cases List.mem_singleton.mp this
    | ok s =>
      have hmem : ⟨.extract o.inputArchive, .ok s⟩ ∈ ts.readings := by simp [hone]
      refine ⟨s, hfiles _ s (List.mem_filter.mp hmem).1, m, r, by simp [hstate], ?_, h, rfl⟩
      intro path s' hmem'
      have := hread hmem'
      rw [hone] at this
      cases List.mem_singleton.mp this
      rfl

/-- What an importer remembers after a preflight it has remembered before, or has found. -/
theorem Work.Checks.origin {archive : String} {issues : List PreflightIssue} {m' : Memory}
    {s : ExportedState} (h : Checks archive m ts issues m') (hs : m'.state = some s) :
    m.state = some s ∨ ⟨.extract archive, .ok s⟩ ∈ ts := by
  have hheld : ∀ {us found}, Holds archive m us found m' →
      m.state = some s ∨ ⟨.extract archive, .ok s⟩ ∈ us := by
    intro us found holds
    rcases holds.cases_state with ⟨s', hm, -, -, hm'⟩ | ⟨-, rfl, hm'⟩
    · exact .inl (hm.trans (hm'.symm.trans hs))
    · cases found with
      | error e => cases hm'.symm.trans hs
      | ok s' =>
        cases hm'.symm.trans hs
        exact .inr (List.mem_singleton_self _)
  cases h with
  | refused | cancelled => exact .inl hs
  | unread holds | readCancelled holds | undescribed holds | compared holds =>
    exact (hheld holds).imp id (List.mem_cons_of_mem _)

theorem Work.writesInOrder_importState {r : Option (Except ImportError ImportReport × Memory)}
    (h : (importState o).Led m ts r) (hm : ∀ s, m.state = some s → s.Reachable)
    (hfiles : ∀ (path : String) (s : ExportedState),
      (⟨.extract path, .ok s⟩ : Dialogue.Turn Question Question.Answer) ∈ ts → s.Reachable)
    (hlog : Starts log (callLog ts)) : WritesInOrder log := by
  obtain ⟨s, hs, hrun⟩ := exists_importRun h hm hfiles
  exact (hrun.allCareful_of_starts hs.wellFormed hlog).writesInOrder

end Import

/-! ### Requests -/

namespace Cluster

variable {c : Cluster} {ws : WebTurns} {ts : Turns} {log : List (LoggedCall × Requests)}

theorem Serves.of_isSettled {e : LoggedCall} {requests : Requests} (h : c.Serves e requests)
    (he : e.IsSettled) :
    ∃ request response, requests = [⟨request, some response⟩] ∧ response.IsSettled := by
  obtain ⟨m, resource, a, rfl, applied, happlied⟩ := he
  refine h.settled ?_
  cases a with
  | ok created => exact .inl ⟨created, rfl⟩
  | error e =>
    cases e with
    | alreadyExists k n => exact .inr ⟨k, n, rfl⟩
    | _ => cases happlied

/-- Requests are in the order of the calls to which they belong. -/
theorem Relays.inOrder (h : c.Relays ws ts log) (horder : WritesInOrder (log.map (·.1))) :
    (requestLog ws).InOrder := by
  rw [h.requests, Requests.InOrder, List.pairwise_flatMap]
  refine ⟨fun p hp => ?_, ?_⟩
  · -- the requests of one call have the same method
    refine List.pairwise_of_forall_mem_list fun t ht t' ht' => ?_
    have heq : t.1.method = t'.1.method :=
      ((h.serves p hp).method t ht).trans ((h.serves p hp).method t' ht').symm
    refine ⟨fun hput hpost => ?_, fun hput hpost => ?_⟩
    · cases (hpost.symm.trans heq).trans hput
    · cases (hput.symm.trans heq).trans hpost
  -- requests of different calls are in the order of the calls
  · refine (List.pairwise_map.mp horder).imp_of_mem fun {p p'} hp hp' hcalls t ht t' ht' => ?_
    have hmethod := (h.serves p hp).method t ht
    have hmethod' := (h.serves p' hp').method t' ht'
    refine ⟨fun hput hpost => ?_, fun hput hpost => ?_⟩
    · have hsettled := hcalls.1 (hmethod'.symm.trans hput) (hmethod.symm.trans hpost)
      obtain ⟨request, response, hone, hresponse⟩ := (h.serves p hp).of_isSettled hsettled
      rw [hone, List.mem_singleton] at ht
      exact ⟨response, by rw [ht], hresponse⟩
    · exact hcalls.2 (hmethod.symm.trans hput) (hmethod'.symm.trans hpost)

end Cluster

end PlaneRestore
