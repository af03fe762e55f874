import PlaneRestore.Json.Basic
import PlaneRestore.State.Group
/-!
What an import does and has done.

`baseGroups` are the groups that come first; an `ImportReport` counts what was done.
-/

namespace PlaneRestore

/-- The groups that are imported first, in this order: none of them needs a kind that another one
installs. -/
def baseGroups : List String :=
  ["namespaces", "configmaps", "secrets", "controllerconfigs.pkg.example.io",
    "deploymentruntimeconfigs.pkg.example.io", "storeconfigs.secrets.example.io",
    "compositionrevisions.apiextensions.example.io", "compositions.apiextensions.example.io",
    "compositeresourcedefinitions.apiextensions.example.io", "providers.pkg.example.io",
    "functions.pkg.example.io", "configurations.pkg.example.io"]

def isBaseGroup (group : String) : Bool := baseGroups.contains group

/-- How much was imported of each group, and how much unpaused of each category. -/
structure ImportReport where
  base : List (String × Nat)
  remaining : List (String × Nat)
  unpaused : List (String × Nat)
deriving DecidableEq, Repr, Inhabited

namespace ImportReport

def empty : ImportReport := ⟨[], [], []⟩

def baseTotal (r : ImportReport) : Nat := totalOf r.base

def remainingTotal (r : ImportReport) : Nat := totalOf r.remaining

def total (r : ImportReport) : Nat := r.baseTotal + r.remainingTotal

def toJson (r : ImportReport) : Json :=
  .ofEntries [("base", .ofCounts r.base), ("remaining", .ofCounts r.remaining),
    ("unpaused", .ofCounts r.unpaused)]

end ImportReport

end PlaneRestore
