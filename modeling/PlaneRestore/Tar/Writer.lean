import PlaneRestore.Tar.Header
/-!
Writing tar archives.

`write members` is an archive that holds the given members, and ends with two blocks of zeros.
-/

namespace PlaneRestore.Tar

/-- What is written about a member. -/
structure Written where
  /-- At most a hundred bytes. -/
  name : List UInt8
  flag : UInt8
  mode : Nat
  data : List UInt8
deriving DecidableEq, Repr, Inhabited

/-- Fills up with zeros. -/
def fill (size : Nat) (bytes : List UInt8) : List UInt8 :=
  bytes.take size ++ List.replicate (size - bytes.length) 0

/-- A number in octal digits, as many as there are places. -/
def octal : Nat → Nat → List UInt8
  | 0, _ => []
  | places + 1, n => octal places (n / 8) ++ [UInt8.ofNat (48 + n % 8)]

/-- The fields of a header up to its checksum, and those after it. -/
def headerParts (m : Written) : List UInt8 × List UInt8 :=
  (fill 100 m.name ++ octal 7 m.mode ++ [0] ++ octal 7 0 ++ [0] ++ octal 7 0 ++ [0]
      ++ octal 11 m.data.length ++ [0] ++ octal 11 0 ++ [0],
    m.flag :: fill 355 (List.replicate 100 0 ++ [0x75, 0x73, 0x74, 0x61, 0x72, 0x20, 0x20, 0]))

/-- The header of a member. -/
def writeHeader (m : Written) : List UInt8 :=
  let (front, back) := headerParts m
  let sum := (front ++ back).foldl (fun n b => n + b.toNat) (8 * 32)
  front ++ octal 6 sum ++ [0, 0x20] ++ back

/-- A member, filled up to whole blocks. -/
def writeMember (m : Written) : List UInt8 :=
  writeHeader m ++ m.data ++ List.replicate ((blockSize - m.data.length % blockSize) % blockSize) 0

/-- An archive with the given members. -/
def write (members : List Written) : List UInt8 :=
  members.flatMap writeMember ++ List.replicate (2 * blockSize) 0

end PlaneRestore.Tar
