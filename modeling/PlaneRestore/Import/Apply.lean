import PlaneRestore.Import.Work
/-!
Bringing one manifest to the control plane.

`Work.apply` creates the object of a manifest, and adopts one that is there already as it is.
-/

namespace PlaneRestore

/-- What became of a manifest. -/
inductive Applied where
  | created
  /-- The object was there, and was left as it is. -/
  | adopted
deriving DecidableEq, Repr, Inhabited

namespace Applied

/-- Reads the answer to the creation of an object. -/
def ofAnswer {α : Type} : Except ClientError α → Except ClientError Applied
  | .ok _ => return created
  | .error (.alreadyExists _ _) => return adopted
  | .error e => throw e

end Applied

namespace Work

/-- What the control plane answered about a resource, or its error. -/
def orApply {α : Type} (r : Resource) (answer : Except ClientError α) : Work α :=
  match answer with
  | .ok a => return a
  | .error e => throw (.apply r.display e)

/-- Creates the object of a manifest at the manifest's own version, without what only a server
fills in. -/
def apply (r : Resource) : Work Applied := do
  let mapping ← orApply r (← call (.mappingForVersion r.groupKind r.version))
  orApply r (Applied.ofAnswer (← call (.create mapping r.withoutServerFields)))

end Work

end PlaneRestore
