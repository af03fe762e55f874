import PlaneRestore.Cli.Run
import PlaneRestore.Proofs.Import.Writes
import PlaneRestore.Proofs.Trace.Play
/-!
What the command line sends to a control plane.

* `ImportCommand.preflight` is the preflight of a command by itself, and `ImportCommand.goOn` what
  is done about its issues.
* `ImportCommand.led_run_checked`: a command that checks asks for the deployment of the engine, and
  nothing else is sent unless its preflight finds nothing.
* `misfits_are_spared`: so the command line never writes to a control plane that does not fit, and
  in no run anything is replaced before all that was created is there.
-/

namespace PlaneRestore

namespace ImportCommand

variable {c : ImportCommand} {o : ImportOptions} {m : Memory} {ts : Turns} {ws : WebTurns}

/-! ### The parts of a run -/

/-- What is done once the preflight has found some issues. -/
def goOn (c : ImportCommand) (issues : List PreflightIssue) :
    Work (Except (List PreflightIssue) ImportReport) := do
  if issues.isEmpty then return .ok (← Work.importState c.options) else return .error issues

theorem work_of_skip (h : c.skipPreflight = true) : c.work = c.goOn [] := by
  rw [work, h]
  rfl

theorem work_of_check (h : c.skipPreflight = false) :
    c.work = Work.preflight c.options >>= c.goOn := by
  rw [work, h]
  rfl

/-- The cluster of the settings, whether it can be reached or not. -/
def target (c : ImportCommand) : Cluster :=
  ⟨c.config.address, c.config.token.filter (· ≠ ""), c.config.engineNamespace,
    c.config.engineDeployment, c.config.requestTimeout⟩

theorem eq_target_of_ofConfig {source : String → SourceFile} {cluster : Cluster}
    (h : Cluster.ofConfig source c.config = .ok cluster) : cluster = c.target := by
  rw [Cluster.ofConfig] at h
  split at h
  · cases h
  · obtain ⟨-, -, h⟩ := bind_eq_ok_iff.mp h
    exact (Except.ok.inj h).symm

/-- The cluster of the settings, unless it cannot be reached with them. -/
def reach (c : ImportCommand) : Web (Except ConfigError Cluster) := do
  let certificate ←
    match c.config.certificateAuthority with
    | some path => Web.ask (.open path)
    | none => pure SourceFile.absent
  return Cluster.ofConfig (fun _ => certificate) c.config

theorem led_reach {r : Option (Except ConfigError Cluster)} (h : Dialogue.Led c.reach ws r) :
    requestLog ws = [] ∧ ∀ cluster, r = some (.ok cluster) → cluster = c.target := by
  -- once the file has been read, or there is none, nothing more is asked
  have hdone : ∀ {file us}, Dialogue.Led
      (.done (Cluster.ofConfig (fun _ => file) c.config) : Web (Except ConfigError Cluster)) us r →
        us = [] ∧ ∀ cluster, r = some (.ok cluster) → cluster = c.target := by
    intro file us h
    obtain ⟨rfl, rfl | rfl⟩ := Dialogue.led_done h
    · exact ⟨rfl, by simp⟩
    · exact ⟨rfl, fun cluster hr => eq_target_of_ofConfig (Option.some.inj hr)⟩
  rw [reach] at h
  cases hpath : c.config.certificateAuthority with
  | none =>
    rw [hpath] at h
    obtain ⟨rfl, hr⟩ := hdone h
    exact ⟨rfl, hr⟩
  | some path =>
    rw [hpath] at h
    cases h with
    | brokenOff => exact ⟨rfl, by simp⟩
    | turn file rest =>
      obtain ⟨rfl, hr⟩ := hdone rest
      exact ⟨rfl, hr⟩

/-- What is done once it is known whether there is a cluster. -/
def afterReaching (c : ImportCommand) : Except ConfigError Cluster → Web Outcome
  | .error e =>
    return .failure [] ("Failed to create control plane client: " ++ e.message .plain) none
  | .ok cluster => return c.outcome (← cluster.lead (c.work.run.run .empty)).1

theorem run_eq : c.run = c.reach >>= c.afterReaching := by
  rw [run, reach]
  cases c.config.certificateAuthority with
  | none => rfl
  | some path => rfl

/-- What a run comes to if a cluster can be reached is what becomes of its work. -/
theorem led_afterReaching_iff {cluster : Cluster} {r : Option Outcome} :
    Dialogue.Led (c.afterReaching (.ok cluster)) ws r ↔
      ∃ r', cluster.Leads (c.work.run.run .empty) none ws r' ∧
        r = r'.map fun p => c.outcome p.1.1 := by
  have hmap : c.afterReaching (.ok cluster) =
      (fun p => c.outcome p.1) <$> cluster.lead (c.work.run.run .empty) := by
    rw [map_eq_pure_bind]
    rfl
  rw [hmap, Dialogue.led_map_iff]
  constructor
  · rintro ⟨r₁, h, rfl⟩
    obtain ⟨r', hled, rfl⟩ := Cluster.led_lead_iff.mp h
    exact ⟨r', hled, by rw [Option.map_map]; rfl⟩
  · rintro ⟨r', hled, rfl⟩
    exact ⟨_, Cluster.led_lead_iff.mpr ⟨r', hled, rfl⟩, by rw [Option.map_map]; rfl⟩

/-- Nothing is sent before there is a cluster. A run without one fails, and otherwise it does its
work. -/
theorem led_run {r : Option Outcome} (h : Dialogue.Led c.run ws r) :
    (requestLog ws = [] ∧ ∀ outcome, r = some outcome → outcome.code = 1) ∨
      ∃ us vs r', ws = us ++ vs ∧ requestLog us = [] ∧
        Dialogue.Led c.reach us (some (.ok c.target)) ∧
          c.target.Leads (c.work.run.run .empty) none vs r' ∧
            r = r'.map fun p => c.outcome p.1.1 := by
  rw [run_eq] at h
  rcases Dialogue.led_bind_iff.mp h with ⟨rfl, hreach⟩ | ⟨reached, us, vs, rfl, hreach, hrest⟩
  · exact .inl ⟨(led_reach hreach).1, by simp⟩
  have hsilent := (led_reach hreach).1
  cases reached with
  -- without a cluster there is an error to report
  | error e =>
    obtain ⟨rfl, hr⟩ := Dialogue.led_done hrest
    rw [List.append_nil]
    refine .inl ⟨hsilent, fun outcome houtcome => ?_⟩
    rcases hr with rfl | rfl
    · cases houtcome
    · cases houtcome
      rfl
  | ok cluster =>
    obtain rfl := (led_reach hreach).2 cluster rfl
    obtain ⟨r', hled, rfl⟩ := led_afterReaching_iff.mp hrest
    exact .inr ⟨us, vs, r', rfl, hsilent, hreach, hled, rfl⟩

/-- The preflight of a command by itself; none if no cluster can be reached. -/
def preflight (c : ImportCommand) : Web (Option (Except ImportError (List PreflightIssue))) := do
  match ← c.reach with
  | .error _ => return none
  | .ok cluster => return some (← cluster.lead ((Work.preflight c.options).run.run .empty)).1

theorem led_preflight_iff {result : Except ImportError (List PreflightIssue)} :
    Dialogue.Led c.preflight ws (some (some result)) ↔ ∃ us vs m known, ws = us ++ vs ∧
      Dialogue.Led c.reach us (some (.ok c.target)) ∧
        c.target.Leads ((Work.preflight c.options).run.run .empty) none vs
          (some ((result, m), known)) := by
  -- the preflight forgets the memory, as there is no import after it
  have hmap : ∀ cluster : Cluster,
      (do return some (← cluster.lead ((Work.preflight c.options).run.run .empty)).1 :
        Web (Option (Except ImportError (List PreflightIssue)))) =
      (fun p => some p.1) <$> cluster.lead ((Work.preflight c.options).run.run .empty) := by
    intro cluster
    rw [map_eq_pure_bind]
  rw [preflight, Dialogue.led_bind_iff]
  constructor
  · rintro (⟨hno, -⟩ | ⟨reached, us, vs, rfl, hreach, hcheck⟩)
    · cases hno
    · cases reached with
      | error e => cases (Dialogue.led_done_some hcheck).2
      | ok cluster =>
        obtain rfl := (led_reach hreach).2 cluster rfl
        dsimp only at hcheck
        rw [hmap] at hcheck
        obtain ⟨r₁, h, hr⟩ := Dialogue.led_map_iff.mp hcheck
        obtain ⟨r', hled, rfl⟩ := Cluster.led_lead_iff.mp h
        match r', hr with
        | some ((found, m), known), hr =>
          cases hr
          exact ⟨us, vs, m, known, rfl, hreach, hled⟩
  · rintro ⟨us, vs, m, known, rfl, hreach, hled⟩
    refine .inr ⟨_, us, vs, rfl, hreach, ?_⟩
    dsimp only
    rw [hmap]
    exact Dialogue.led_map_iff.mpr ⟨_, Cluster.led_lead_iff.mpr ⟨_, hled, rfl⟩, rfl⟩

/-! ### What is sent by a preflight -/

/-- By one answer and by one file, the engine of a cluster fits what was exported: it has the same
version, and all of the flags. -/
def FoundFit (cluster : Cluster) (archive : String) (ws : WebTurns) : Prop :=
  ∃ request answer observed file isCancelled s exported,
    cluster.engineRequest? = some request ∧ requestLog ws = [⟨request, answer⟩] ∧
      Cluster.engineTold answer = some observed ∧
        (⟨.open archive, file⟩ : Dialogue.Turn WebQuestion WebQuestion.Answer) ∈ ws ∧
          ExportedState.extract archive file isCancelled = .ok s ∧ s.exportMeta = .ok exported ∧
            observed.version = exported.engineVersion ∧
              ∀ f ∈ exported.featureFlags, f ∈ observed.featureFlags

section Preflight

variable {cluster : Cluster} {known : Discovered}

/-- Observing takes the request for the engine, and no other. -/
theorem serves_observe {answer : Option (Except ClientError EngineInfo)} {requests : Requests}
    (h : cluster.Serves ⟨.observe, answer⟩ requests) :
    (requests = [] ∧ ∀ info, answer ≠ some (.ok info)) ∨
      ∃ request a, cluster.engineRequest? = some request ∧ requests = [⟨request, a⟩] ∧
        ∀ info, answer = some (.ok info) → Cluster.engineTold a = some info := by
  obtain ⟨known, known', hled⟩ := h
  rcases Cluster.led_observe hled with ⟨rfl, hno⟩ | ⟨request, a, hrequest, rfl, htold⟩
  · exact .inl ⟨rfl, fun info hanswer => hno info known' (by rw [hanswer]; rfl)⟩
  · exact .inr ⟨request, a, hrequest, rfl, fun info hanswer =>
      htold info known' (by rw [hanswer]; rfl)⟩

/-- All that is asked of the control plane by a preflight is what it is. -/
theorem starts_preflight {log : List LoggedCall}
    {r : Option (Except ImportError (List PreflightIssue) × Memory)}
    (h : (Work.preflight o).Led m ts r) (hlog : Starts log (callLog ts)) :
    log = [] ∨ ∃ a, log = [⟨.observe, a⟩] := by
  rcases Work.callLog_preflight h with hnone | ⟨a, hone⟩
  · rw [hnone] at hlog
    exact .inl (List.eq_nil_of_length_eq_zero (Nat.le_zero.mp hlog.length_le))
  · rw [hone] at hlog
    exact starts_singleton_iff.mp hlog

theorem leads_preflight
    {r : Option ((Except ImportError (List PreflightIssue) × Memory) × Discovered)}
    (h : cluster.Leads ((Work.preflight o).run.run m) known ws r) :
    requestLog ws = [] ∨ ∃ request answer, cluster.engineRequest? = some request ∧
      requestLog ws = [⟨request, answer⟩] := by
  obtain ⟨us, log, hled, hrelays, -⟩ := h.relays
  rw [hrelays.requests]
  rcases starts_preflight hled hrelays.calls with hnone | ⟨a, hone⟩
  · rw [List.map_eq_nil_iff.mp hnone]
    exact .inl rfl
  · obtain ⟨⟨e, requests⟩, rfl, rfl⟩ := List.map_eq_singleton_iff.mp hone
    rcases serves_observe (hrelays.serves _ (List.mem_singleton_self _)) with
      ⟨rfl, -⟩ | ⟨request, a, hrequest, rfl, -⟩
    · exact .inl rfl
    · exact .inr ⟨request, a, hrequest, rfl⟩

/-- Where a preflight finds nothing, there is nothing to be found in what it was answered. -/
theorem foundFit_of_leads_preflight {m' : Memory} {known' : Discovered}
    (h : cluster.Leads ((Work.preflight o).run.run .empty) known ws
      (some ((.ok [], m'), known'))) : FoundFit cluster o.inputArchive ws := by
  have hrequests := leads_preflight h
  obtain ⟨us, log, hled, hrelays, hcalls⟩ := h.relays
  obtain ⟨_, hissues, hchecks⟩ := Work.led_preflight_iff.mp hled
  cases hissues
  obtain ⟨observed, vs, s, exported, rfl, holds, hmeta, hfits⟩ := Work.checks_nil_iff.mp hchecks
  have hfile : ⟨.extract o.inputArchive, .ok s⟩ ∈ vs := by
    rcases holds.cases_state with ⟨s', hno, -⟩ | ⟨-, rfl, -⟩
    · cases hno
    · exact List.mem_singleton_self _
  obtain ⟨file, isCancelled, hopen, hextract⟩ := hrelays.files _ s (List.mem_cons_of_mem _ hfile)
  -- the answer to the only request is the one that told of the engine
  have hfirst := hcalls (by simp)
  obtain ⟨⟨e, requests⟩, log', rfl, he, -⟩ := List.map_eq_cons_iff.mp hfirst
  obtain rfl : e = ⟨.observe, some (.ok observed)⟩ := he
  rcases serves_observe (hrelays.serves _ (List.mem_cons_self ..)) with
    ⟨-, hno⟩ | ⟨request, a, hrequest, rfl, htold⟩
  · exact absurd rfl (hno observed)
  · have hone : requestLog ws = [⟨request, a⟩] := by
      have hall := hrelays.requests
      rw [List.flatMap_cons, List.singleton_append] at hall
      rcases hrequests with hnone | ⟨request', a', -, hone⟩
      · cases hnone.symm.trans hall
      · obtain ⟨hturn, -⟩ := List.cons.inj (hone.symm.trans hall)
        rw [hone, hturn]
    exact ⟨request, a, observed, file, isCancelled, s, exported, hrequest, hone, htold observed rfl,
      hopen, hextract, hmeta, hfits⟩

end Preflight

/-! ### Runs that check -/

/-- The session of a command that checks begins with the preflight. -/
theorem run_work_of_check (h : c.skipPreflight = false) : c.work.run.run m =
    (Work.preflight c.options).run.run m >>= fun p => match p with
      | (.ok issues, m') => (c.goOn issues).run.run m'
      | (.error e, m') => .done (.error e, m') := by
  rw [work_of_check h, Dialogue.run_bind]
  refine bind_congr fun p => ?_
  obtain ⟨result, m'⟩ := p
  cases result <;> rfl

theorem run_goOn_of_ne_nil {issues : List PreflightIssue} (h : issues ≠ []) :
    (c.goOn issues).run.run m = .done (.ok (.error issues), m) := by
  rw [goOn, if_neg (by simpa using h)]
  rfl

/-- The work of a command that checks is over with its preflight, unless that finds nothing. -/
theorem leads_work_of_check (hcheck : c.skipPreflight = false) {cluster : Cluster}
    {known : Discovered} {r : Option ((Except ImportError
      (Except (List PreflightIssue) ImportReport) × Memory) × Discovered)}
    (h : cluster.Leads (c.work.run.run m) known ws r) :
    ∃ us vs r', ws = us ++ vs ∧
      cluster.Leads ((Work.preflight c.options).run.run m) known us r' ∧
        ((vs = [] ∧ ∀ result m' known', r = some ((result, m'), known') →
            ∃ issues, result = .ok (.error issues)) ∨
          ∃ m' known', r' = some ((.ok [], m'), known')) := by
  rw [run_work_of_check hcheck] at h
  rcases Cluster.leads_bind_iff.mp h with
    ⟨rfl, hpreflight⟩ | ⟨⟨result, m'⟩, known', us, vs, rfl, hpreflight, hgoOn⟩
  · exact ⟨ws, [], none, (List.append_nil ws).symm, hpreflight, .inl ⟨rfl, by simp⟩⟩
  obtain ⟨ts, log, hwork, -⟩ := hpreflight.relays
  obtain ⟨issues, rfl, -⟩ := Work.led_preflight_iff.mp hwork
  refine ⟨us, vs, _, rfl, hpreflight, ?_⟩
  -- only without issues anything is done after the preflight
  by_cases hissues : issues = []
  · subst hissues
    exact .inr ⟨m', known', rfl⟩
  · dsimp only at hgoOn
    rw [run_goOn_of_ne_nil hissues] at hgoOn
    obtain ⟨rfl, hr⟩ := Cluster.leads_done hgoOn
    refine .inl ⟨rfl, fun result m'' known'' hresult => ?_⟩
    rcases hr with rfl | rfl
    · cases hresult
    · cases hresult
      exact ⟨issues, rfl⟩

/-- At first the engine is asked for. The run fails there, or the preflight has found nothing. -/
theorem led_run_checked (hcheck : c.skipPreflight = false) {r : Option Outcome}
    (h : Dialogue.Led c.run ws r) :
    ∃ us vs, ws = us ++ vs ∧
      (requestLog us = [] ∨ ∃ request answer, c.target.engineRequest? = some request ∧
        requestLog us = [⟨request, answer⟩]) ∧
      ((vs = [] ∧ ∀ outcome, r = some outcome → outcome.code = 1) ∨
        (Dialogue.Led c.preflight us (some (some (.ok []))) ∧
          FoundFit c.target c.options.inputArchive us)) := by
  rcases led_run h with ⟨hsilent, hcode⟩ | ⟨us₁, ws, r', rfl, hsilent, hreach, hled, rfl⟩
  · exact ⟨ws, [], (List.append_nil ws).symm, .inl hsilent, .inl ⟨rfl, hcode⟩⟩
  obtain ⟨us₂, vs, r₁, rfl, hpreflight, hrest⟩ := leads_work_of_check hcheck hled
  -- all that was sent until then was sent by the preflight
  have hrequests : requestLog (us₁ ++ us₂) = requestLog us₂ := by
    rw [requestLog_append, hsilent, List.nil_append]
  refine ⟨us₁ ++ us₂, vs, (List.append_assoc ..).symm, ?_, ?_⟩
  · rw [hrequests]
    exact leads_preflight hpreflight
  rcases hrest with ⟨rfl, hfails⟩ | ⟨m', known', rfl⟩
  · refine .inl ⟨rfl, fun outcome houtcome => ?_⟩
    obtain ⟨⟨⟨result, m'⟩, known'⟩, rfl, rfl⟩ := Option.map_eq_some_iff.mp houtcome
    obtain ⟨issues, rfl⟩ := hfails _ _ _ rfl
    rfl
  · refine .inr ⟨led_preflight_iff.mpr ⟨us₁, us₂, m', known', rfl, hreach, hpreflight⟩, ?_⟩
    obtain ⟨request, answer, observed, file, isCancelled, s, exported, hrequest, hone, htold,
      hopen, hfit⟩ := foundFit_of_leads_preflight hpreflight
    exact ⟨request, answer, observed, file, isCancelled, s, exported, hrequest,
      hrequests.trans hone, htold, List.mem_append_right us₁ hopen, hfit⟩

/-- After a preflight that has found something, the run is over. -/
theorem led_run_refused (hcheck : c.skipPreflight = false) {us vs : WebTurns}
    {r : Option Outcome} {issues : List PreflightIssue} (h : Dialogue.Led c.run (us ++ vs) r)
    (hpreflight : Dialogue.Led c.preflight us (some (some (.ok issues)))) (hissues : issues ≠ []) :
    vs = [] ∧ ∀ outcome, Dialogue.Led c.run us (some outcome) ↔
      outcome = c.outcome (.ok (.error issues)) := by
  obtain ⟨us₁, us₂, m', known', rfl, hreach, hled⟩ := led_preflight_iff.mp hpreflight
  have hend : Dialogue.Led c.run (us₁ ++ us₂) (some (c.outcome (.ok (.error issues)))) := by
    have hwork : c.target.Leads (c.work.run.run .empty) none us₂
        (some ((.ok (.error issues), m'), known')) := by
      rw [run_work_of_check hcheck, ← List.append_nil us₂]
      refine Cluster.leads_bind_iff.mpr (.inr ⟨_, _, _, _, rfl, hled, ?_⟩)
      dsimp only
      rw [run_goOn_of_ne_nil hissues]
      exact .ended _
    rw [run_eq]
    exact hreach.bind_ended (led_afterReaching_iff.mpr ⟨_, hwork, rfl⟩)
  -- whatever else is said of the run, it goes on after the preflight
  have hover : ∀ {vs r}, Dialogue.Led c.run (us₁ ++ us₂ ++ vs) r →
      vs = [] ∧ (r = none ∨ r = some (c.outcome (.ok (.error issues)))) := by
    intro vs r h
    rw [run_eq, List.append_assoc] at h
    obtain ⟨r', hwork, rfl⟩ := led_afterReaching_iff.mp (hreach.resume h)
    rw [run_work_of_check hcheck] at hwork
    have hrest := hled.resume hwork
    dsimp only at hrest
    rw [run_goOn_of_ne_nil hissues] at hrest
    obtain ⟨rfl, rfl | rfl⟩ := Cluster.leads_done hrest
    · exact ⟨rfl, .inl rfl⟩
    · exact ⟨rfl, .inr rfl⟩
  refine ⟨(hover h).1, fun outcome => ⟨fun hrun => ?_, ?_⟩⟩
  · rw [← List.append_nil (us₁ ++ us₂)] at hrun
    rcases (hover hrun).2 with hno | houtcome
    · cases hno
    · exact Option.some.inj houtcome
  · rintro rfl
    exact hend

/-! ### Writes -/

section Writes

variable {log : List LoggedCall}
  {r : Option (Except ImportError (Except (List PreflightIssue) ImportReport) × Memory)}

theorem writesInOrder_goOn {issues : List PreflightIssue} (h : (c.goOn issues).Led m ts r)
    (hm : ∀ s, m.state = some s → s.Reachable)
    (hfiles : ∀ (path : String) (s : ExportedState),
      (⟨.extract path, .ok s⟩ : Dialogue.Turn Question Question.Answer) ∈ ts → s.Reachable)
    (hlog : Starts log (callLog ts)) : WritesInOrder log := by
  by_cases hissues : issues = []
  · subst hissues
    rcases Work.led_bind h with ⟨r', himport, -⟩ | ⟨report, m', us, vs, rfl, himport, hend⟩
    · exact Work.writesInOrder_importState himport hm hfiles hlog
    · obtain ⟨rfl, -⟩ := Work.led_done (r := (Except.ok (Except.ok report), m')) hend
      rw [List.append_nil] at hfiles hlog
      exact Work.writesInOrder_importState himport hm hfiles hlog
  · rw [Work.Led, run_goOn_of_ne_nil hissues] at h
    obtain ⟨rfl, -⟩ := Work.led_done h
    rw [List.eq_nil_of_length_eq_zero (Nat.le_zero.mp hlog.length_le)]
    exact .nil

/-- The calls of a preflight write nothing. -/
theorem writesInOrder_preflight
    {r : Option (Except ImportError (List PreflightIssue) × Memory)}
    (h : (Work.preflight o).Led m ts r) (hlog : Starts log (callLog ts)) :
    WritesInOrder log ∧ ∀ e ∈ log, e.call.method = .get := by
  rcases starts_preflight h hlog with rfl | ⟨a, rfl⟩
  · exact ⟨.nil, fun e he => nomatch he⟩
  · refine ⟨List.pairwise_singleton _ _, fun e he => ?_⟩
    rw [List.mem_singleton.mp he]
    rfl

/-- All calls of a command are in order. -/
theorem writesInOrder_work (h : c.work.Led .empty ts r)
    (hfiles : ∀ (path : String) (s : ExportedState),
      (⟨.extract path, .ok s⟩ : Dialogue.Turn Question Question.Answer) ∈ ts → s.Reachable)
    (hlog : Starts log (callLog ts)) : WritesInOrder log := by
  cases hskip : c.skipPreflight with
  | true =>
    rw [work_of_skip hskip] at h
    exact writesInOrder_goOn h (fun s hs => nomatch hs) hfiles hlog
  | false =>
    rw [work_of_check hskip] at h
    rcases Work.led_bind h with ⟨r', hled, -⟩ | ⟨issues, m', us, vs, rfl, hled, hrest⟩
    · exact (writesInOrder_preflight hled hlog).1
    rw [callLog_append] at hlog
    rcases starts_append_iff.mp hlog with hfirst | ⟨log', rfl, hlater⟩
    · exact (writesInOrder_preflight hled hfirst).1
    -- the import goes on with what the preflight has read, if that was read
    obtain ⟨_, _, hchecks⟩ := Work.led_preflight_iff.mp hled
    have hm' : ∀ s, m'.state = some s → s.Reachable := fun s hs => by
      rcases hchecks.origin hs with hno | hmem
      · cases hno
      · exact hfiles _ s (List.mem_append_left vs hmem)
    have horder := writesInOrder_goOn hrest hm'
      (fun path s hs => hfiles path s (List.mem_append_right us hs)) hlater
    obtain ⟨hfirst, hget⟩ := writesInOrder_preflight hled (.refl _)
    refine List.pairwise_append.mpr ⟨hfirst, horder, fun e he e' _ => ?_⟩
    rw [hget e he]
    exact ⟨fun _ hpost => (nomatch hpost), fun hput => (nomatch hput)⟩

end Writes

/-- The requests of every run are in order. -/
theorem inOrder_of_led_run {r : Option Outcome} (h : Dialogue.Led c.run ws r) :
    (requestLog ws).InOrder := by
  rcases led_run h with ⟨hsilent, -⟩ | ⟨us, vs, r', rfl, hsilent, -, hled, -⟩
  · rw [hsilent]
    exact .nil
  · obtain ⟨ts, log, hwork, hrelays, -⟩ := hled.relays
    rw [requestLog_append, hsilent, List.nil_append]
    exact hrelays.inOrder (writesInOrder_work hwork (fun _ _ => hrelays.reachable) hrelays.calls)

end ImportCommand

open ImportCommand in
/-- What there is to say about the requests of a command. -/
structure ChecksFirst (c : ImportCommand) (ws : WebTurns) (r : Option Outcome) : Prop where
  /-- At first the deployment of the engine is asked for. A run that does not even get as far as
  that fails. -/
  asks : c.skipPreflight = false →
    (requestLog ws = [] ∧ ∀ outcome, r = some outcome → outcome.code = 1) ∨
      ∃ request answer later, c.target.engineRequest? = some request ∧
        requestLog ws = ⟨request, answer⟩ :: later
  /-- After a preflight that finds something, nothing else is asked of anyone, and the run fails. -/
  refuses : c.skipPreflight = false → ∀ us vs issues, ws = us ++ vs →
    Dialogue.Led c.preflight us (some (some (.ok issues))) → issues ≠ [] →
      vs = [] ∧ (requestLog ws).length ≤ 1 ∧ ∀ outcome, Dialogue.Led c.run ws (some outcome) ↔
        outcome = .failure (issueLines issues)
          (toString issues.length ++ " preflight check(s) failed") none
  /-- Before a second request, the preflight has found nothing, by the answer to the first one and
  by the archive. -/
  fits : c.skipPreflight = false → 1 < (requestLog ws).length → ∃ us vs, ws = us ++ vs ∧
    Dialogue.Led c.preflight us (some (some (.ok []))) ∧
      FoundFit c.target c.options.inputArchive us
  /-- Whether there was a preflight or not, nothing is replaced before all that was to be created is
  there, by the answers of the server, and nothing is created after that. -/
  writes : (requestLog ws).InOrder

/-- **The command line checks before it writes.** Whatever is in the archive, and whatever the
server answers: a command that does not skip its preflight asks for the engine at first, and if it
finds something then it fails, and has sent nothing else. In every run, PUT comes after all POST
requests, and these have been answered with success by then, or with a conflict. -/
theorem command_line_checks_first {environment : String → Option String} {words : List String}
    {c : ImportCommand} (hc : Command.ofWords environment words = .ok (.importState c))
    {ws : WebTurns} {r : Option Outcome} (h : Dialogue.Led (runWords environment words) ws r) :
    ChecksFirst c ws r := by
  rw [runWords, hc] at h
  change Dialogue.Led c.run ws r at h
  refine ⟨fun hcheck => ?_, fun hcheck us vs issues hws hpreflight hissues => ?_,
    fun hcheck hmore => ?_, ImportCommand.inOrder_of_led_run h⟩
  · obtain ⟨us, vs, rfl, hfirst, hrest⟩ := ImportCommand.led_run_checked hcheck h
    rcases hfirst with hnone | ⟨request, answer, hrequest, hone⟩
    · rcases hrest with ⟨rfl, hcode⟩ | ⟨-, request, answer, -, -, -, -, -, -, hone, -⟩
      · rw [List.append_nil]
        exact .inl ⟨hnone, hcode⟩
      · cases hnone.symm.trans hone
    · rw [requestLog_append, hone]
      exact .inr ⟨request, answer, _, hrequest, rfl⟩
  -- with issues, the run ends where its preflight did
  · subst hws
    obtain ⟨rfl, hfails⟩ := ImportCommand.led_run_refused hcheck h hpreflight hissues
    rw [List.append_nil]
    refine ⟨rfl, ?_, hfails⟩
    obtain ⟨us₁, us₂, m, known, rfl, hreach, hled⟩ := ImportCommand.led_preflight_iff.mp hpreflight
    rw [requestLog_append, (ImportCommand.led_reach hreach).1, List.nil_append]
    rcases ImportCommand.leads_preflight hled with hnone | ⟨request, answer, -, hone⟩
    · simp [hnone]
    · simp [hone]
  · obtain ⟨us, vs, rfl, hfirst, ⟨rfl, -⟩ | hpassed⟩ := ImportCommand.led_run_checked hcheck h
    -- a preflight alone sends at most one request
    · rw [List.append_nil] at hmore
      rcases hfirst with hnone | ⟨request, answer, -, hone⟩
      · simp [hnone] at hmore
      · simp [hone] at hmore
    · exact ⟨us, vs, rfl, hpassed⟩

namespace Sample

def deployment : String :=
  "\x7b\"spec\":\x7b\"template\":\x7b\"spec\":\x7b\"containers\":[\x7b\"image\":\"e:1\"\x7d]"
    ++ "\x7d\x7d\x7d\x7d"

/-- There is a server with an engine, but there is no archive. -/
def answerWeb : (q : WebQuestion) → Unit → q.Answer × Unit
  | .request _, _ => (none, ())
  | .guarded _ _, _ => (.answered (some ⟨200, some deployment.toUTF8.toList⟩), ())
  | .checkpoint _, _ => (.answered (), ())
  | .now, _ => (0, ())
  | .sleepUntil _, _ => (none, ())
  | .report _, _ => ((), ())
  | .open _, _ => (.absent, ())

def commandWords : List String := ["import", "--server", "http://127.0.0.1:8001"]

def importCommand : ImportCommand :=
  ⟨.default, false, false, { ClusterConfig.default with server := "http://127.0.0.1:8001" }⟩

/-- The turns of the command, and its outcome. -/
def commandRun : WebTurns × Outcome := (runWords (fun _ => none) commandWords).play answerWeb ()

end Sample

open Sample in
theorem command_line_checks_first_sample :
    ChecksFirst importCommand commandRun.1 (some commandRun.2) ∧
      (requestLog commandRun.1).map (·.1.url.render) =
          ["http://127.0.0.1:8001/apis/apps/v1/namespaces/example-system/deployments/engine"] ∧
        commandRun.2.code = 1 := by
  have hwords :
      Command.ofWords (fun _ => none) commandWords = .ok (.importState importCommand) := by
    decide +kernel
  exact ⟨command_line_checks_first hwords (Dialogue.led_play answerWeb _ ()), by decide +kernel,
    by decide +kernel⟩

end PlaneRestore
