/-!
Canonical codes.

* `Code.ofLengths?` makes the code in which each symbol has a word of the given length; it refuses
  lengths that do not make up a complete code, unless one symbol at most is used.
* `Code.words` lists how many words each length has, and `Code.symbols` the symbols in the order of
  their words.
-/

namespace PlaneRestore.Gzip

/-- The length of the longest word. -/
def maxWordLength : Nat := 15

/-- A canonical code. -/
structure Code where
  /-- How many words have the length one, two, and so on. -/
  words : List Nat
  /-- The symbols in the order of their words, shorter words first. -/
  symbols : Array Nat
deriving Repr, Inhabited

namespace Code

/-- The share of all long words that begin with a word of the given lengths. -/
def share (lengths : List Nat) : Nat :=
  lengths.foldl (fun n l => if l = 0 then n else n + Nat.pow 2 (maxWordLength - l)) 0

/-- The symbols whose words have the given length. -/
def symbolsOfLength (lengths : List Nat) (l : Nat) : List Nat :=
  lengths.zipIdx.filterMap fun (l', s) => if l' = l then some s else none

/-- The code whose words have the given lengths, zero for symbols without a word. -/
def ofLengths? (mayBePartial : Bool) (lengths : List Nat) : Option Code :=
  let used := (lengths.filter (· ≠ 0)).length
  if share lengths ≠ Nat.pow 2 maxWordLength && !(mayBePartial && used ≤ 1) then none
  else
    let byLength := (List.range' 1 maxWordLength).map (symbolsOfLength lengths)
    some ⟨byLength.map List.length, byLength.flatten.toArray⟩

end Code

end PlaneRestore.Gzip
