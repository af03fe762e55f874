import PlaneRestore.Boundary
import PlaneRestore.Table
/-!
A control plane in memory, for simulations.

* `MemoryPlane.answer` answers a call: it creates, replaces and lists objects, and can be told to
  fail, or to make objects ready as they are created.
* Objects are in slots, one for each kind and key.

The plane keeps a log of the calls that it has received, look-ups of mappings apart.
-/

namespace PlaneRestore

/-- The place of an object: its kind and its key. -/
structure Slot where
  kind : GroupKind
  key : ObjectKey
deriving DecidableEq, Repr, Inhabited

namespace Slot

instance : Ord Slot := ⟨fun a b => (compare a.kind b.kind).then (compare a.key b.key)⟩

instance : Std.LawfulEqOrd Slot where
  eq_of_compare {a b} h := by
    have h : (compare a.kind b.kind).then (compare a.key b.key) = .eq := h
    rw [Ordering.then_eq_eq] at h
    cases a
    cases b
    congr
    · exact Std.LawfulEqOrd.eq_of_compare h.1
    · exact Std.LawfulEqOrd.eq_of_compare h.2
  compare_self {a} := by
    show (compare a.kind a.kind).then (compare a.key a.key) = .eq
    rw [Ordering.then_eq_eq]
    exact ⟨Std.ReflOrd.compare_self, Std.ReflOrd.compare_self⟩

end Slot

/-- The slot that a resource names. -/
def Resource.slot (r : Resource) : Slot := ⟨r.groupKind, r.key⟩

/-- A control plane in memory. -/
structure MemoryPlane where
  /-- The kinds that are served, in the order of their registration. -/
  kinds : List KindMapping
  objects : List (Slot × Resource)
  /-- The calls that were received, look-ups of mappings apart. -/
  calls : Array Call
  engine : EngineInfo
  /-- How many of the next lists of a kind fail. -/
  listFailures : List (GroupKind × Nat)
  /-- The objects whose creation fails, whatever their namespace. -/
  createFailures : List (GroupKind × String)
  /-- The conditions that hold for the objects of a kind as soon as they are created. -/
  readyOnCreate : List (GroupKind × List String)
  /-- The kinds that cannot be looked up before the next reset. -/
  hidden : List GroupKind
  observeFailure : Option String
deriving Repr, Inhabited

namespace MemoryPlane

/-- A plane without kinds, objects and plans. -/
def empty : MemoryPlane := ⟨[], [], #[], ⟨"", []⟩, [], [], [], [], none⟩

/-! ### What a test sets up and looks at -/

/-- Puts an object into its slot. -/
def insert (r : Resource) (p : MemoryPlane) : MemoryPlane :=
  { p with objects := Table.put r.slot r p.objects }

def get? (p : MemoryPlane) (s : Slot) : Option Resource := Table.get? s p.objects

/-- The objects of a kind in the order of their keys. -/
def objectsOf (p : MemoryPlane) (k : GroupKind) : List Resource :=
  (p.objects.filter (·.1.kind = k)).map (·.2)

/-- Lets the next lists of a kind fail. -/
def failLists (k : GroupKind) (times : Nat) (p : MemoryPlane) : MemoryPlane :=
  { p with listFailures := Table.put k times p.listFailures }

/-- Lets the creation of an object fail. -/
def failCreate (k : GroupKind) (name : String) (p : MemoryPlane) : MemoryPlane :=
  { p with createFailures := (k, name) :: p.createFailures }

def failObserve (message : String) (p : MemoryPlane) : MemoryPlane :=
  { p with observeFailure := some message }

def clearCalls (p : MemoryPlane) : MemoryPlane := { p with calls := #[] }

/-! ### Calls -/

def isRegistered (p : MemoryPlane) (k : GroupKind) : Bool := p.kinds.any (·.groupKind = k)

def noMapping (k : GroupKind) : ClientError := .noMapping k.display

/-- All objects of a kind, unless lists of it have to fail. -/
def list (m : KindMapping) (p : MemoryPlane) :
    Except ClientError (List Resource) × MemoryPlane :=
  let k := m.groupKind
  match Table.get? k p.listFailures with
  | some (n + 1) =>
    (.error (.transport ("simulated list failure for " ++ k.display)),
      { p with listFailures := Table.put k n p.listFailures })
  | _ => (.ok (p.objectsOf k), p)

/-- The object as it is stored when it is created. -/
def stored (p : MemoryPlane) (k : GroupKind) (r : Resource) : Resource :=
  ((Table.get? k p.readyOnCreate).getD []).foldl (fun r c => r.setCondition (.plain c true)) r

/-- Adds an object. -/
def create (m : KindMapping) (r : Resource) (p : MemoryPlane) :
    Except ClientError Resource × MemoryPlane :=
  let k := m.groupKind
  let slot : Slot := ⟨k, r.key⟩
  if !p.isRegistered k then (.error (noMapping k), p)
  else if p.createFailures.contains (k, r.key.name) then
    (.error (.api 422 ("simulated create failure for " ++ r.key.display)), p)
  else if (p.get? slot).isSome then (.error (.alreadyExists k.display r.key.display), p)
  else
    let r := p.stored k r
    (.ok r, { p with objects := Table.put slot r p.objects })

/-- Replaces an object. -/
def update (m : KindMapping) (r : Resource) (p : MemoryPlane) :
    Except ClientError Resource × MemoryPlane :=
  let slot : Slot := ⟨m.groupKind, r.key⟩
  if (p.get? slot).isSome then (.ok r, { p with objects := Table.put slot r p.objects })
  else (.error (.notFound m.groupKind.display r.key.display), p)

/-- How a kind is served; the first registered way counts. -/
def mappingForKind (k : GroupKind) (p : MemoryPlane) : Except ClientError KindMapping :=
  match p.kinds.find? (·.groupKind = k) with
  | some m => if p.hidden.contains k then throw (noMapping k) else return m
  | none => throw (noMapping k)

/-- How a kind is served at a version. -/
def mappingForVersion (k : GroupKind) (version : String) (p : MemoryPlane) :
    Except ClientError KindMapping :=
  if p.hidden.contains k then throw (noMapping k)
  else
    match p.kinds.find? fun m => m.groupKind = k && m.version = version with
    | some m => return m
    | none => throw (.noMapping (k.display ++ " in version " ++ version))

/-- The registered kinds of a category. -/
def resolve (c : Category) (p : MemoryPlane) : List KindMapping :=
  p.kinds.filter (·.hasCategory c.name)

def observe (p : MemoryPlane) : Except ClientError EngineInfo :=
  match p.observeFailure with
  | some message => throw (.transport message)
  | none => return p.engine

/-- Writes a call to the log. -/
def log (c : Call) (p : MemoryPlane) : MemoryPlane := { p with calls := p.calls.push c }

/-- Answers a call. -/
def answer (p : MemoryPlane) : (c : Call) → c.Answer × MemoryPlane
  | .list m => (p.log (.list m)).list m
  | .create m r => (p.log (.create m r)).create m r
  | .update m r => (p.log (.update m r)).update m r
  | .mappingForKind k => (p.mappingForKind k, p)
  | .mappingForVersion k v => (p.mappingForVersion k v, p)
  | .reset => ((), { p.log .reset with hidden := [] })
  | .resolve c => (.ok (p.resolve c), p.log (.resolve c))
  | .observe => (p.observe, p.log .observe)

end MemoryPlane

end PlaneRestore
