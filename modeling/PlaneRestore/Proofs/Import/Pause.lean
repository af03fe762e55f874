import PlaneRestore.Proofs.Import.Careful
/-!
Objects that stay paused.

`import_pauses_safely`: every call of every run is careful. So an object of a kind that is managed
and nothing else is paused as soon as it is there, and stays so until managed resources are
unpaused.
-/

namespace PlaneRestore

open MemoryPlane Words

variable {s : ExportedState} {o : ImportOptions} {p q : MemoryPlane}

namespace MemoryPlane

theorem serves_service {log : List LoggedCall} (h : p.Serves log q) : SameService p q := by
  induction h with
  | nil p => exact .refl p
  | cons first _ ih => exact first.changes.1.trans ih

/-- Every call of a log is taken in by some plane with the same service. -/
theorem Serves.took {log : List LoggedCall} {e : LoggedCall} (h : p.Serves log q) (he : e ∈ log) :
    ∃ p₁ p₂, SameService p p₁ ∧ p₁.Takes e p₂ := by
  obtain ⟨u, v, rfl⟩ := List.append_of_mem he
  obtain ⟨p₁, hu, hv⟩ := steps_append_iff.mp h
  cases hv with
  | cons first _ => exact ⟨p₁, _, serves_service hu, first⟩

/-- A category is always resolved into the same mappings. -/
theorem Serves.resolved {log : List LoggedCall} {c : Category} {mappings : List KindMapping}
    (h : p.Serves log q) (hmem : HasResolved log c mappings) : mappings = p.resolve c := by
  obtain ⟨p₁, _, hservice, htakes⟩ := h.took hmem
  rw [htakes.resolved, resolve, resolve, hservice.kinds]

end MemoryPlane

/-- Resources of the kind are managed, and neither composite resources nor claims. -/
structure MemoryPlane.IsManagedOnly (p : MemoryPlane) (k : GroupKind) : Prop where
  managed : k ∈ kindsOf (p.resolve .managed)
  noComposite : k ∉ kindsOf (p.resolve .composite)
  noClaim : k ∉ kindsOf (p.resolve .claim)

theorem created_paused {log : List LoggedCall} {m : KindMapping} {r : Resource}
    {task : Manifest × Bool} (hcareful : CreatesCarefully s log m r task) (hserves : p.Serves log q)
    (hreset : hasReset log = true) (hkind : p.IsManagedOnly m.groupKind) :
    r.annotation? pausedKey = some "true" := by
  obtain ⟨version, hmapped⟩ := hcareful.mapped
  obtain ⟨_, _, -, htakes⟩ := Serves.took hserves hmapped
  have hsame : m.groupKind = r.groupKind := htakes.mapped
  refine (hcareful.paused hreset ?_).1
  obtain ⟨mappings, hresolved⟩ := hcareful.resolved hreset .managed (by simp [Category.pausable])
  rw [← hsame]
  refine List.mem_flatMap.mpr ⟨_, hresolved, ?_⟩
  have hmanaged := hkind.managed
  rw [← Serves.resolved hserves hresolved] at hmanaged
  simpa [LoggedCall.pausableKinds, Category.pausable] using hmanaged

/-- An object of a kind that is managed and nothing else is never replaced before the end, and in
the end only if managed resources are unpaused. -/
theorem not_updated {log : List LoggedCall} {m : KindMapping}
    (hcareful : UpdatesCarefully s o log m) (hserves : p.Serves log q)
    (hkind : p.IsManagedOnly m.groupKind)
    (hend : o.unpauseAfterImport = false ∨
      ∀ mappings, ¬HasResolvedInEnd s log .managed mappings) : False := by
  obtain ⟨c, hc, mappings, hresolved, hm⟩ := hcareful.resolved
  have hmappings : mappings = p.resolve c := by
    obtain ⟨u, v, rfl, -, hmem⟩ := hresolved
    exact Serves.resolved hserves (List.mem_append_right u hmem)
  have hmem : m.groupKind ∈ kindsOf (p.resolve c) :=
    List.mem_map_of_mem (hmappings ▸ hm)
  rw [unpausedCategories, List.mem_cons, List.mem_cons] at hc
  -- the kind would be in a category that is unpaused, and it is in the managed one alone
  rcases hc with rfl | rfl | hc
  · exact hkind.noComposite hmem
  · exact hkind.noClaim hmem
  · rw [managedCategories] at hc
    split at hc
    · next hflag =>
      obtain rfl := List.mem_singleton.mp hc
      rcases hend with hend | hend
      · rw [hend] at hflag
        cases hflag
      · exact hend mappings hresolved
    · cases hc

/-- What comes into a free slot after the reset is paused, and stays so. -/
theorem stays_paused {p₁ : MemoryPlane} {u v : List LoggedCall} {x : Slot}
    (hcareful : AllCareful s o (u ++ v)) (hu : p.Serves u p₁) (hv : p₁.Serves v q)
    (hreset : hasReset u = true) (hkind : p.IsManagedOnly x.kind)
    (hend : o.unpauseAfterImport = false ∨
      ∀ mappings, ¬HasResolvedInEnd s (u ++ v) .managed mappings)
    (hfree : p₁.get? x = none) {r : Resource} (hr : q.get? x = some r) :
    r.annotation? pausedKey = some "true" := by
  -- by the calls that follow, the last of them apart
  induction v using List.reverseRecOn generalizing q r with
  | nil =>
    cases hv
    rw [hfree] at hr
    cases hr
  | append_singleton v e ih =>
    obtain ⟨q₁, hv, he⟩ := steps_append_iff.mp hv
    have htakes := steps_singleton_iff.mp he
    have hserves : p.Serves (u ++ v) q₁ := steps_append_iff.mpr ⟨p₁, hu, hv⟩
    rw [← List.append_assoc] at hcareful hend
    have hbefore : AllCareful s o (u ++ v) := by
      rintro u' e' v' huv
      exact hcareful u' e' (v' ++ [e]) (by rw [huv]; simp)
    have hend' : o.unpauseAfterImport = false ∨
        ∀ mappings, ¬HasResolvedInEnd s (u ++ v) .managed mappings :=
      hend.imp_right fun h mappings hresolved => h mappings (hresolved.append [e])
    have hkept : q₁.get? x = some r → r.annotation? pausedKey = some "true" :=
      fun h => ih hbefore hv hend' h
    have hcall := hcareful (u ++ v) e [] rfl
    obtain ⟨-, hchanges⟩ := htakes.changes
    generalize e.call = c at hcall hchanges
    cases hchanges with
    | nothing h => exact hkept (get?_congr h x ▸ hr)
    | @created m r' _ h =>
      rw [get?_of_put h] at hr
      split at hr
      · next hx =>
        -- the object is new
        cases hr
        obtain ⟨task, hcall⟩ := hcall
        have hreset' : hasReset (u ++ v) = true := by
          rw [hasReset, List.any_append, ← hasReset, hreset, Bool.true_or]
        rw [Resource.annotation?, annotationsValue?_stored, ← Resource.annotation?]
        rw [hx] at hkind
        exact created_paused hcall hserves hreset' hkind
      · exact hkept hr
    | @replaced m r' _ h =>
      rw [get?_of_put h] at hr
      split at hr
      · next hx =>
        -- the object is one that may not be replaced
        rw [hx] at hkind
        exact (not_updated hcall hserves hkind hend').elim
      · exact hkept hr

/-- **Every call of every run is careful**, whether the run succeeds, fails or is broken off. So an
object of a kind that is managed and nothing else is paused at every point of the run, if its slot
was free at some point after the reset; only that managed resources are unpaused in the end may
change this. -/
theorem import_pauses_safely {ts : Turns} {result : Option (Except ImportError ImportReport)}
    (hs : s.Reachable) (hrun : ImportRun s o ts result) :
    AllCareful s o (callLog ts) ∧
      ∀ (u v rest : List LoggedCall) (p p₁ q : MemoryPlane) (x : Slot) (r : Resource),
        callLog ts = u ++ v ++ rest → p.Serves u p₁ → p₁.Serves v q → hasReset u = true →
          p.IsManagedOnly x.kind → p₁.get? x = none → q.get? x = some r →
            (o.unpauseAfterImport = false ∨
              ∀ mappings, ¬HasResolvedInEnd s (u ++ v) .managed mappings) →
              r.annotation? pausedKey = some "true" := by
  have hcareful := hrun.allCareful hs.wellFormed
  refine ⟨hcareful, ?_⟩
  intro u v rest p p₁ q x r hlog hu hv hreset hkind hfree hr hend
  have hbefore : AllCareful s o (u ++ v) := by
    rintro u' e v' huv
    exact hcareful u' e (v' ++ rest) (by rw [hlog, huv]; simp)
  exact stays_paused hbefore hu hv hreset hkind hend hfree hr

theorem import_pauses_safely_sample :
    AllCareful Sample.state Sample.options (callLog Sample.turns) ∧
      ((Sample.planeAfter.get? ⟨⟨"aws.example.io", "Bucket"⟩, ⟨none, "logs"⟩⟩).bind
        (·.annotation? pausedKey)) = some "true" := by
  have h := import_pauses_safely Sample.reachable_state Sample.importRun_turns
  refine ⟨h.1, ?_⟩
  -- the eleventh call is the reset
  have hfacts : hasReset ((callLog Sample.turns).take 11) = true ∧
      ((Sample.plane.after ((callLog Sample.turns).take 11)).get?
        ⟨⟨"aws.example.io", "Bucket"⟩, ⟨none, "logs"⟩⟩).isNone = true ∧
      (Sample.planeAfter.get? ⟨⟨"aws.example.io", "Bucket"⟩, ⟨none, "logs"⟩⟩).isSome = true := by
    decide +kernel
  obtain ⟨hreset, hfree, hsome⟩ := hfacts
  have hsplit : callLog Sample.turns
      = (callLog Sample.turns).take 11 ++ (callLog Sample.turns).drop 11 ++ [] := by simp
  have hanswers := Sample.plane.answers_played Sample.state Sample.options
  rw [← Sample.turns, hsplit, List.append_nil, answers_append_iff] at hanswers
  have hafter : (Sample.plane.after ((callLog Sample.turns).take 11)).after
      ((callLog Sample.turns).drop 11) = Sample.planeAfter := by
    rw [after, after, ← List.foldl_append, List.take_append_drop]
    rfl
  obtain ⟨r, hr⟩ := Option.isSome_iff_exists.mp hsome
  rw [hr]
  refine h.2 _ _ _ _ _ _ _ r hsplit hanswers.1.serves hanswers.2.serves hreset ?_
    (Option.isNone_iff_eq_none.mp hfree) (hafter ▸ hr) (.inl rfl)
  exact ⟨by decide +kernel, by decide +kernel, by decide +kernel⟩

end PlaneRestore
