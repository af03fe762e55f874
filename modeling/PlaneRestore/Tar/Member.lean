import PlaneRestore.Gzip.Stream
import PlaneRestore.Tar.Extension
/-!
The members of a tar archive.

`members s` are the members that a stream holds, and whether the archive is broken after them. A
member with a long name, or with records for the next one, counts as a part of the next member. An
archive ends with a block of zeros, or with the stream.
-/

namespace PlaneRestore.Tar

/-- More bytes than this cannot even be asked for. Up to it the memory is taken to be sufficient. -/
def memoryLimit : Nat := Nat.pow 2 63 - 1

/-- A member of an archive. -/
structure Member where
  name : String
  kind : Kind
  /-- The access mode, unless it cannot be read. -/
  mode? : Option Nat
  size : Nat
  /-- The data, as far as it is there. -/
  data : List UInt8
  /-- Whether there is room for the data, and reading it ends without a fault. -/
  isReadable : Bool
deriving DecidableEq, Repr, Inhabited

/-- What was told about the next member. -/
structure Announced where
  name : Option (List UInt8)
  link : Option (List UInt8)
  records : Option (List UInt8)

namespace Announced

def nothing : Announced := ⟨none, none, none⟩

def isNothing (a : Announced) : Bool := a.name.isNone && a.link.isNone && a.records.isNone

/-- The name of the next member: a long name, or one from the records, or that of its header. -/
def nameOf (a : Announced) (h : Header) : List UInt8 :=
  match a.name with
  | some name => if name.getLast? = some 0 then name.dropLast else name
  | none => (a.records.bind (valueOf? "path")).getD h.name

/-- The size of the next member: that of its header, or one from the records if that is zero. -/
def sizeOf? (a : Announced) (h : Header) : Option Nat := do
  let size ← h.size?
  if size = 0 then
    some (((a.records.bind (strictValueOf? "size")).bind decimal?).getD 0)
  else some size

end Announced

/-- A size rounded up to whole blocks. -/
def padded (size : Nat) : Nat := (size + blockSize - 1) / blockSize * blockSize

/-- The map of a sparse member: where its data goes, and how much of it is still to come. -/
structure SparseMap where
  position : Nat
  left : Nat

/-- Adds one piece to the map of a sparse member; pieces are aligned and in order. -/
def SparseMap.add? (size : Nat) (m : SparseMap) (piece : List UInt8) : Option SparseMap :=
  let offset := field piece 0 12
  let length := field piece 12 12
  if offset.headD 0 = 0 || length.headD 0 = 0 then some m
  else do
    let offset ← octal? offset
    let length ← octal? length
    if length ≠ 0 && (size - m.left) % blockSize ≠ 0 then none
    else if offset < m.position || Nat.pow 2 64 ≤ offset + length || m.left < length then none
    else some ⟨offset + length, m.left - length⟩

/-- Pieces of 24 bytes. -/
def pieces : Nat → List UInt8 → List (List UInt8)
  | 0, _ => []
  | n + 1, bytes => bytes.take 24 :: pieces n (bytes.drop 24)

/-- Reads the blocks with further pieces; how many there are, and the map with them. -/
def furtherPieces? (size : Nat) : Nat → SparseMap → List UInt8 → Option (Nat × SparseMap)
  | 0, _, _ => none
  | fuel + 1, m, bytes => do
    if bytes.length < blockSize then none
    else
      let m ← (pieces 21 bytes).foldlM (SparseMap.add? size) m
      if (bytes.drop 504).headD 0 = 1 then
        let (n, m) ← furtherPieces? size fuel m (bytes.drop blockSize)
        some (n + 1, m)
      else some (1, m)

/-- How many blocks belong to the header of a sparse member, if its map is sound. -/
def sparseBlocks? (h : Header) (size : Nat) (rest : List UInt8) : Option Nat := do
  if !h.isGnu then none
  else
    let m ← (pieces 4 (h.drop 386)).foldlM (SparseMap.add? size) ⟨0, size⟩
    let (n, m) ←
      if (h.drop 482).headD 0 = 1 then furtherPieces? size (rest.length + 1) m rest
      else some (0, m)
    if some m.position = octal? (field h 483 12) && m.left = 0 then some n else none

/-- What comes next in a stream. -/
inductive Next where
  | ended
  | broken
  | header (h : Header) (size : Nat) (rest : List UInt8)

/-- The next header. -/
def next (a : Announced) (s : Stream) : Next :=
  let h := s.bytes.take blockSize
  if s.bytes.isEmpty then (if s.isBroken then .broken else .ended)
  else if h.length < blockSize then .broken
  else if Header.isZero h then .ended
  else if !Header.isConfirmed h then .broken
  else
    match a.sizeOf? h with
    | some size =>
      if Nat.pow 2 64 ≤ size + blockSize - 1 then .broken
      else .header h size (s.bytes.drop blockSize)
    | none => .broken

/-- The members of a stream from a header on, and whether the archive is broken after them. -/
def membersFrom : Nat → Announced → Stream → List Member × Bool
  | 0, _, _ => ([], true)
  | fuel + 1, a, s =>
    match next a s with
    | .broken => ([], true)
    | .ended => ([], !a.isNothing)
    | .header h size rest =>
      let kind := h.kind
      let data := rest.take size
      let after : Stream := ⟨rest.drop (padded size), s.isBroken⟩
      let isWhole := padded size ≤ rest.length
      -- what is announced for the next member has to be whole, and is announced once
      let announce (seen : Option (List UInt8)) (a : Announced) : List Member × Bool :=
        if seen.isSome || !isWhole then ([], true) else membersFrom fuel a after
      let isKnown := h.isStandard || h.isGnu
      if isKnown && kind = .longName then announce a.name { a with name := some data }
      else if isKnown && kind = .longLink then announce a.link { a with link := some data }
      else if isKnown && kind = .extension then announce a.records { a with records := some data }
      else
        let m : Member :=
          ⟨Text.Utf8.decodeLossy (a.nameOf h), kind, h.mode?, size, data,
            data.length = size || !s.isBroken && size ≤ memoryLimit⟩
        if kind = .sparse then
          -- the blocks with the rest of the map come before the data
          match sparseBlocks? h size rest with
          | none => ([], true)
          | some n =>
            let all := n * blockSize + padded size
            if rest.length < all then ([m], true)
            else
              let (ms, isBroken) := membersFrom fuel .nothing ⟨rest.drop all, s.isBroken⟩
              (m :: ms, isBroken)
        else if isWhole then
          let (ms, isBroken) := membersFrom fuel .nothing after
          (m :: ms, isBroken)
        else ([m], true)

/-- The members that a stream holds, and whether the archive is broken after them. -/
def members (s : Stream) : List Member × Bool :=
  membersFrom (s.bytes.length / blockSize + 1) .nothing s

end PlaneRestore.Tar
