import PlaneRestore.Gzip.Checksum
/-!
Writing compressed files.

`write bytes` is a file that expands to `bytes`. The data is stored as it is.
-/

namespace PlaneRestore.Gzip

/-- A number in bytes, the lower ones first. -/
def littleEndian : Nat → Nat → List UInt8
  | 0, _ => []
  | places + 1, n => UInt8.ofNat (n % 256) :: littleEndian places (n / 256)

/-- Stores bytes in blocks of at most 65535. -/
def storedBlocks : Nat → List UInt8 → List UInt8
  | 0, _ => []
  | fuel + 1, bytes =>
    let part := bytes.take 65535
    let rest := bytes.drop 65535
    let isLast := rest.isEmpty
    (if isLast then 1 else 0) :: littleEndian 2 part.length
      ++ littleEndian 2 (65535 - part.length) ++ part
      ++ (if isLast then [] else storedBlocks fuel rest)

/-- A file that expands to the given bytes. -/
def write (bytes : List UInt8) : List UInt8 :=
  [0x1F, 0x8B, 8, 0, 0, 0, 0, 0, 0, 255] ++ storedBlocks (bytes.length / 65535 + 1) bytes
    ++ littleEndian 4 (Checksum.of bytes).toNat ++ littleEndian 4 bytes.length

end PlaneRestore.Gzip
