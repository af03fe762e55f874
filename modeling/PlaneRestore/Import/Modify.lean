import PlaneRestore.Import.Work
/-!
Changing all objects of a category.

* `Work.modifyAllBy` replaces every object of every kind in a category by what becomes of it. The
  change may remember something from one object to the next.
* `Work.modifyAll` does so with a change that remembers nothing.
-/

namespace PlaneRestore.Work

variable {σ : Type}

/-- Replaces one object. -/
def replace (mapping : KindMapping) (r : Resource) : Work Unit := do
  discard (orClient (← call (.update mapping r)))

/-- Replaces objects of a kind by what becomes of them, one after another. -/
def replaceAll (change : Resource → StateM σ Resource) (mapping : KindMapping) :
    List Resource → σ → Work σ
  | [], st => return st
  | r :: rs, st => do
    let changed := (change r).run st
    replace mapping changed.1
    replaceAll change mapping rs changed.2

/-- Changes all objects of some kinds, and answers how many there are. -/
def modifyKinds (change : Resource → StateM σ Resource) : List KindMapping → σ → Work Nat
  | [], _ => return 0
  | mapping :: mappings, st => do
    let objects ← orClient (← call (.list mapping))
    let st ← replaceAll change mapping objects st
    return objects.length + (← modifyKinds change mappings st)

/-- Changes all objects of a category, and answers how many there are. -/
def modifyAllBy (c : Category) (change : Resource → StateM σ Resource) (st : σ) : Work Nat :=
  inCategory c do modifyKinds change (← orClient (← call (.resolve c))) st

/-- Changes all objects of a category, each on its own, and answers how many there are. -/
def modifyAll (c : Category) (change : Resource → Resource) : Work Nat :=
  modifyAllBy c (fun r => pure (change r)) ()

end PlaneRestore.Work
