import PlaneRestore.Gzip.Huffman
/-!
Expanding compressed data.

`Inflate.run input` is what the compressed bytes expand to, as far as that can be told, and why it
ended: the data was complete, the input ran out, or it is corrupt. A copy from before the start of
the output reads zeros.
-/

namespace PlaneRestore.Gzip

/-- Why expanding ends, and after how many bits of the input. -/
inductive Stop where
  | complete (bits : Nat)
  | starved
  | corrupt (bits : Nat)
deriving DecidableEq, Repr

namespace Inflate

/-- How far the input was read, and the output so far. -/
structure Progress where
  position : Nat
  output : Array UInt8

/-- A step of expanding, with the input at hand. -/
abbrev Step := ReaderT (Array UInt8) (EStateM Stop Progress)

/-- One bit of the input. -/
def bit : Step Nat := do
  let input ← read
  let p ← get
  match input[p.position / 8]? with
  | some b =>
    set { p with position := p.position + 1 }
    return b.toNat / Nat.pow 2 (p.position % 8) % 2
  | none => throw .starved

/-- A number of `n` bits, the lowest first. -/
def number : Nat → Step Nat
  | 0 => return 0
  | n + 1 => do
    let low ← bit
    let high ← number n
    return low + 2 * high

def corrupt : Step α := do throw (.corrupt (← get).position)

/-- Appends a byte to the output. -/
def emit (b : UInt8) : Step Unit := modify fun p => { p with output := p.output.push b }

/-- Reads a word of a code and gives its symbol. `first` is the first word of the current length,
`index` the number of the symbols with shorter words, and `word` the bits so far. -/
def symbolFrom (c : Code) : List Nat → (first index word : Nat) → Step Nat
  | [], _, _, _ => corrupt
  | count :: longer, first, index, word => do
    let word := 2 * word + (← bit)
    let first := 2 * first
    if word < first + count then
      match c.symbols[index + (word - first)]? with
      | some s => return s
      | none => corrupt
    else symbolFrom c longer (first + count) (index + count) word

/-- Reads a word of a code. -/
def symbol (c : Code) : Step Nat := symbolFrom c c.words 0 0 0

/-- The shortest length, and how many bits are added to it, for the symbols from 257 on. -/
def lengths : List (Nat × Nat) :=
  [(3, 0), (4, 0), (5, 0), (6, 0), (7, 0), (8, 0), (9, 0), (10, 0), (11, 1), (13, 1), (15, 1),
    (17, 1), (19, 2), (23, 2), (27, 2), (31, 2), (35, 3), (43, 3), (51, 3), (59, 3), (67, 4),
    (83, 4), (99, 4), (115, 4), (131, 5), (163, 5), (195, 5), (227, 5), (258, 0)]

/-- The shortest distance, and how many bits are added to it. -/
def distances : List (Nat × Nat) :=
  [(1, 0), (2, 0), (3, 0), (4, 0), (5, 1), (7, 1), (9, 2), (13, 2), (17, 3), (25, 3), (33, 4),
    (49, 4), (65, 5), (97, 5), (129, 6), (193, 6), (257, 7), (385, 7), (513, 8), (769, 8),
    (1025, 9), (1537, 9), (2049, 10), (3073, 10), (4097, 11), (6145, 11), (8193, 12), (12289, 12),
    (16385, 13), (24577, 13)]

/-- A base with added bits, from a table. -/
def scaled (table : List (Nat × Nat)) (i : Nat) : Step Nat := do
  match table[i]? with
  | some (base, bits) => return base + (← number bits)
  | none => corrupt

/-- Copies bytes from further back in the output. -/
def copy (distance : Nat) : Nat → Step Unit
  | 0 => return
  | n + 1 => do
    let out := (← get).output
    emit (if distance ≤ out.size then out.getD (out.size - distance) 0 else 0)
    copy distance n

/-- Expands the symbols of a block up to its end. -/
def symbols (literals distanceCode : Code) : Nat → Step Unit
  | 0 => corrupt
  | fuel + 1 => do
    let s ← symbol literals
    if s < 256 then
      emit (UInt8.ofNat s)
      symbols literals distanceCode fuel
    else if s = 256 then return
    else do
      let length ← scaled lengths (s - 257)
      let distance ← scaled distances (← symbol distanceCode)
      copy distance length
      symbols literals distanceCode fuel

/-- Copies bytes of the input. -/
def literalBytes : Nat → Step Unit
  | 0 => return
  | n + 1 => do
    emit (UInt8.ofNat (← number 8))
    literalBytes n

/-- A block that is not compressed: its length, twice, and its bytes. -/
def storedBlock : Step Unit := do
  modify fun p => { p with position := (p.position + 7) / 8 * 8 }
  let length ← number 16
  let check ← number 16
  if length + check = 65535 then literalBytes length else corrupt

/-- The code for literals and lengths that needs no description. -/
def fixedLiterals : Option Code :=
  Code.ofLengths? false
    (List.replicate 144 8 ++ List.replicate 112 9 ++ List.replicate 24 7 ++ List.replicate 8 8)

/-- The code for distances that needs no description. -/
def fixedDistances : Option Code := Code.ofLengths? false (List.replicate 32 5)

/-- The order in which the lengths of the words for lengths are given. -/
def lengthOrder : List Nat := [16, 17, 18, 0, 8, 7, 9, 6, 10, 5, 11, 4, 12, 3, 13, 2, 14, 1, 15]

/-- Numbers of three bits, as many as the places they are for. -/
def threeBits : List Nat → Step (List (Nat × Nat))
  | [] => return []
  | place :: rest => do
    let n ← number 3
    return (place, n) :: (← threeBits rest)

/-- The lengths of words, `total` of them; a length may be repeated, or zero be. -/
def wordLengths (c : Code) (total : Nat) : Nat → List Nat → Step (List Nat)
  | 0, _ => corrupt
  | fuel + 1, done => do
    if total ≤ done.length then
      if done.length = total then return done else corrupt
    else
      let s ← symbol c
      if s < 16 then wordLengths c total fuel (done ++ [s])
      else if s = 16 then
        match done.getLast? with
        | some l => do
          let n ← number 2
          wordLengths c total fuel (done ++ List.replicate (3 + n) l)
        | none => corrupt
      else if s = 17 then do
        let n ← number 3
        wordLengths c total fuel (done ++ List.replicate (3 + n) 0)
      else do
        let n ← number 7
        wordLengths c total fuel (done ++ List.replicate (11 + n) 0)

/-- Takes a code, if the lengths of its words make one up. -/
def accept (c : Option Code) : Step Code :=
  match c with
  | some c => return c
  | none => corrupt

/-- The two codes that a block describes. -/
def describedCodes : Step (Code × Code) := do
  let literals := 257 + (← number 5)
  let distances := 1 + (← number 5)
  let count := 4 + (← number 4)
  if 286 < literals || 30 < distances then corrupt
  else
    let given ← threeBits (lengthOrder.take count)
    let ofPlace (i : Nat) : Nat := ((given.find? (·.1 = i)).map (·.2)).getD 0
    let c ← accept (Code.ofLengths? false ((List.range 19).map ofPlace))
    let all ← wordLengths c (literals + distances) (literals + distances + 1) []
    let first ← accept (Code.ofLengths? true (all.take literals))
    let second ← accept (Code.ofLengths? true (all.drop literals))
    return (first, second)

/-- One block; whether it is the last one. -/
def block (fuel : Nat) : Step Bool := do
  let last ← bit
  let kind ← number 2
  if kind = 0 then storedBlock
  else if kind = 1 then symbols (← accept fixedLiterals) (← accept fixedDistances) fuel
  else if kind = 2 then do
    let (literals, distances) ← describedCodes
    symbols literals distances fuel
  else corrupt
  return last = 1

/-- Expands blocks up to the last one. -/
def blocks (bits : Nat) : Nat → Step Unit
  | 0 => corrupt
  | fuel + 1 => do
    if ← block bits then return else blocks bits fuel

/-- What compressed bytes expand to, and why it ends there. -/
def run (input : Array UInt8) : Array UInt8 × Stop :=
  let bits := 8 * input.size + 1
  match (blocks bits bits).run input ⟨0, #[]⟩ with
  | .ok _ p => (p.output, .complete p.position)
  | .error stop p => (p.output, stop)

end Inflate

end PlaneRestore.Gzip
