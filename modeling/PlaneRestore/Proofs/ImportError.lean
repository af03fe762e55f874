import PlaneRestore.ImportError
/-!
Errors inside errors.

* `ImportError.causes` are the errors inside an error, each inside the one before.
* `ImportError.IsPlain`: an error that has none inside, and is not a cancellation itself.
* `ImportError.IsWrapper`: a way to say of an error what was going on, which puts it inside a new
  one.
-/

namespace PlaneRestore.ImportError

/-- The error inside an error that says what was going on. -/
def cause? : ImportError → Option ImportError
  | manifestFile _ e | importGroup _ e | category _ e | phase _ e => some e
  | _ => none

/-- The errors inside an error, the outermost first. -/
def causes : ImportError → List ImportError
  | manifestFile _ e | importGroup _ e | category _ e | phase _ e => e :: e.causes
  | _ => []

theorem causes_eq (e : ImportError) : e.causes = match e.cause? with
    | some e' => e' :: e'.causes
    | none => [] := by
  cases e <;> rfl

def isCancelled : ImportError → Bool
  | cancelled => true
  | _ => false

/-- An error that has nothing inside, and is no cancellation. -/
def IsPlain (e : ImportError) : Prop := e.cause? = none ∧ e.isCancelled = false

theorem IsPlain.ne_cancelled {e : ImportError} (h : e.IsPlain) : e ≠ cancelled := by
  rintro rfl
  cases h.2

/-- Says of an error what was going on, in words that an import uses. -/
inductive IsWrapper : (ImportError → ImportError) → Prop
  | file (file : String) : IsWrapper (manifestFile file)
  | group (group : String) : IsWrapper (importGroup group)
  | category (name : String) : IsWrapper (ImportError.category name)
  | phase (context : String) : IsWrapper (ImportError.phase context)

theorem IsWrapper.cause? {outer : ImportError → ImportError} (h : IsWrapper outer)
    (e : ImportError) : (outer e).cause? = some e := by
  cases h <;> rfl

theorem wrap_of_ne {outer : ImportError → ImportError} {e : ImportError} (h : e ≠ cancelled) :
    e.wrap outer = outer e := by
  cases e with
  | cancelled => exact absurd rfl h
  | _ => rfl

end PlaneRestore.ImportError
