import PlaneRestore.Proofs.Import.Words
/-!
Calls that carry a state from one condition to another.

* `Steps R` leads from one state to another along a log, with a step of `R` for each call.
* `Carries R D pre L post`: from `pre`, the start of a word of `L` leads to `D`, and a whole word to
  `post`.
* `carries_answered` is the rule for one call; `Carries.mul`, `carries_iSup`, `Carries.kstar` and
  `carries_prod` are those for the ways in which languages are put together.

The rules look like those for programs that may crash: `D` has to be true after every call, and
whatever is done after the calls have broken off may rely on nothing else.
-/

namespace PlaneRestore

open Words (answered)
open scoped Computability

variable {σ : Type} {R : σ → LoggedCall → σ → Prop}

/-- Steps along a log, one for each call. -/
inductive Steps (R : σ → LoggedCall → σ → Prop) : σ → List LoggedCall → σ → Prop
  | nil (p : σ) : Steps R p [] p
  | cons {p q p' : σ} {e : LoggedCall} {log : List LoggedCall} (first : R p e q)
      (rest : Steps R q log p') : Steps R p (e :: log) p'

theorem steps_append_iff {p p' : σ} {u v : List LoggedCall} :
    Steps R p (u ++ v) p' ↔ ∃ q, Steps R p u q ∧ Steps R q v p' := by
  constructor
  · intro h
    induction u generalizing p with
    | nil => exact ⟨p, .nil p, h⟩
    | cons e u ih =>
      cases h with
      | cons first rest =>
        obtain ⟨q, hu, hv⟩ := ih rest
        exact ⟨q, .cons first hu, hv⟩
  · rintro ⟨q, hu, hv⟩
    induction hu with
    | nil => exact hv
    | cons first _ ih => exact .cons first (ih hv)

theorem steps_singleton_iff {p p' : σ} {e : LoggedCall} : Steps R p [e] p' ↔ R p e p' := by
  constructor
  · intro h
    cases h with
    | cons first rest =>
      cases rest
      exact first
  · exact fun h => .cons h (.nil p')

/-- The start of a word leads to `D`, and a whole word to `post`. -/
def Carries (R : σ → LoggedCall → σ → Prop) (D pre : σ → Prop) (L : Language LoggedCall)
    (post : σ → Prop) : Prop :=
  ∀ p, pre p → ∀ w ∈ L, ∀ log p', Starts log w → Steps R p log p' →
    D p' ∧ (log = w → post p')

variable {D pre I post : σ → Prop} {L M : Language LoggedCall}

theorem Carries.mono {pre' post' : σ → Prop} (h : Carries R D pre L post)
    (hpre : ∀ p, pre' p → pre p) (hpost : ∀ p, post p → post' p) :
    Carries R D pre' L post' := by
  intro p hp w hw log p' hstarts hsteps
  obtain ⟨hduring, hwhole⟩ := h p (hpre p hp) w hw log p' hstarts hsteps
  exact ⟨hduring, fun hlog => hpost p' (hwhole hlog)⟩

theorem carries_one (h : ∀ p, pre p → D p) : Carries R D pre 1 pre := by
  rintro p hp w hw log p' hstarts hsteps
  obtain rfl : w = [] := hw
  obtain rfl : log = [] := List.length_eq_zero_iff.mp (Nat.le_zero.mp hstarts.length_le)
  cases hsteps
  exact ⟨h p hp, fun _ => hp⟩

theorem Carries.mul (hL : Carries R D pre L I) (hM : Carries R D I M post) :
    Carries R D pre (L * M) post := by
  rintro p hp w hw log p' hstarts hsteps
  obtain ⟨u, hu, v, hv, rfl⟩ := Language.mem_mul.mp hw
  rcases starts_append_iff.mp hstarts with hstarts | ⟨log, rfl, hrest⟩
  · obtain ⟨hduring, hmid⟩ := hL p hp u hu log p' hstarts hsteps
    refine ⟨hduring, fun hlog => ?_⟩
    -- nothing is left of the second part
    have hle := hstarts.length_le
    rw [hlog, List.length_append] at hle
    obtain rfl : v = [] := List.length_eq_zero_iff.mp (by omega)
    rw [List.append_nil] at hlog
    exact (hM p' (hmid hlog) [] hv [] p' (.nil []) (.nil p')).2 rfl
  · obtain ⟨q, hfirst, hsteps⟩ := steps_append_iff.mp hsteps
    have hq := (hL p hp u hu u q (.refl u) hfirst).2 rfl
    obtain ⟨hduring, hpost⟩ := hM q hq v hv log p' hrest hsteps
    exact ⟨hduring, fun hlog => hpost (List.append_cancel_left hlog)⟩

theorem carries_iSup {ι : Sort*} {L : ι → Language LoggedCall}
    (h : ∀ i, Carries R D pre (L i) post) : Carries R D pre (⨆ i, L i) post := by
  intro p hp w hw
  obtain ⟨i, hw⟩ := Language.mem_iSup.mp hw
  exact h i p hp w hw

/-- What is known apart from the state may be used. -/
theorem carries_and {F : Prop} (h : F → Carries R D pre L post) :
    Carries R D (fun p => pre p ∧ F) L post := by
  rintro p ⟨hp, hfact⟩ w hw log p' hstarts hsteps
  exact h hfact p hp w hw log p' hstarts hsteps

/-- One call: whatever it is answered, and if it is answered well. -/
theorem carries_answered {c : Call} {good : c.Answer → Prop} (hpre : ∀ p, pre p → D p)
    (hany : ∀ p a p', pre p → R p ⟨c, a⟩ p' → D p')
    (hgood : ∀ p a p', pre p → good a → R p ⟨c, some a⟩ p' → post p') :
    Carries R D pre (answered c good) post := by
  rintro p hp w ⟨a, ha, rfl⟩ log p' hstarts hsteps
  rcases starts_singleton_iff.mp hstarts with rfl | ⟨a', rfl⟩
  · cases hsteps
    exact ⟨hpre p hp, fun hlog => nomatch hlog⟩
  · have hstep := steps_singleton_iff.mp hsteps
    refine ⟨hany p a' p' hp hstep, fun hlog => ?_⟩
    cases hlog
    exact hgood p a p' hp ha hstep

theorem Carries.kstar (h : Carries R D pre L pre) (hpre : ∀ p, pre p → D p) :
    Carries R D pre L∗ pre := by
  rw [Language.kstar_eq_iSup_pow]
  refine carries_iSup fun n => ?_
  induction n with
  | zero => exact carries_one hpre
  | succ n ih =>
    rw [pow_succ]
    exact ih.mul h

/-- A product: `stage done` is true after the factors of `done`. -/
theorem carries_prod {α : Type} {f : α → Language LoggedCall} (stage : List α → σ → Prop)
    {l : List α} (hstage : ∀ done p, stage done p → D p)
    (h : ∀ done a rest, l = done ++ a :: rest →
      Carries R D (stage done) (f a) (stage (done ++ [a]))) :
    Carries R D (stage []) (l.map f).prod (stage l) := by
  suffices hrest : ∀ rest done, l = done ++ rest →
      Carries R D (stage done) (rest.map f).prod (stage l) from hrest l [] rfl
  intro rest
  induction rest with
  | nil =>
    intro done hl
    obtain rfl : l = done := by simpa using hl
    exact carries_one (hstage l)
  | cons a rest ih =>
    intro done hl
    rw [List.map_cons, List.prod_cons]
    exact (h done a rest hl).mul (ih (done ++ [a]) (by simpa using hl))

/-- A product of pairs: `stage done` is true after the factors of `done`, and each pair says
something that does not depend on the state. -/
theorem carries_zipWith {α β : Type} {f : α → β → Language LoggedCall}
    (stage : List α → σ → Prop) {F : α → β → Prop} {l : List α} {bs : List β}
    (hlen : bs.length = l.length) (hstage : ∀ done p, stage done p → D p)
    (h : ∀ done a rest b, l = done ++ a :: rest →
      Carries R D (stage done) (f a b) fun p => stage (done ++ [a]) p ∧ F a b) :
    Carries R D (stage []) (List.zipWith f l bs).prod fun p =>
      stage l p ∧ List.Forall₂ F l bs := by
  -- the induction is on the factors that are left
  suffices hrest : ∀ rest bs done, l = done ++ rest → bs.length = rest.length →
      Carries R D (stage done) (List.zipWith f rest bs).prod fun p =>
        stage l p ∧ List.Forall₂ F rest bs from hrest l bs [] rfl hlen
  intro rest
  induction rest with
  | nil =>
    intro bs done hl hlen
    obtain rfl := List.length_eq_zero_iff.mp hlen
    obtain rfl : l = done := by simpa using hl
    exact (carries_one (hstage l)).mono (fun _ hp => hp) fun _ hp => ⟨hp, .nil⟩
  | cons a rest ih =>
    intro bs done hl hlen
    cases bs with
    | nil => cases hlen
    | cons b bs =>
      rw [List.zipWith_cons_cons, List.prod_cons]
      -- the first factor takes the stage one step further
      refine (h done a rest b hl).mul (carries_and fun hfact => ?_)
      refine (ih bs (done ++ [a]) (by simpa using hl) (by simpa using hlen)).mono
        (fun _ hp => hp) fun _ hp => ⟨hp.1, .cons hfact hp.2⟩

/-- A wait keeps what its two calls keep. -/
theorem carries_waiting (gate : Gate) (hpre : ∀ p, pre p → D p)
    (hmapping : ∀ good, Carries R D pre (answered (.mappingForKind gate.1) good) pre)
    (hlist : ∀ m good, Carries R D pre (answered (.list m) good) pre) :
    Carries R D pre (Words.waiting gate) pre :=
  carries_iSup fun m => ((hmapping _).mul ((hlist m _).kstar hpre)).mul (hlist m _)

end PlaneRestore
