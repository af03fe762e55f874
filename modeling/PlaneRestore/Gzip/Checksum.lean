/-!
The checksum of 32 bits over bytes.

`Checksum.update` takes in one byte; `Checksum.of` is the checksum of a list of bytes.
-/

namespace PlaneRestore.Gzip.Checksum

/-- Divides by the polynomial, one bit at a time. -/
def divide : Nat → UInt32 → UInt32
  | 0, r => r
  | n + 1, r => divide n (if r &&& 1 = 1 then (r >>> 1) ^^^ 0xEDB88320 else r >>> 1)

/-- Takes one byte into the remainder. -/
def update (r : UInt32) (b : UInt8) : UInt32 := divide 8 (r ^^^ b.toUInt32)

/-- The checksum of a list of bytes. -/
def of (bytes : List UInt8) : UInt32 := bytes.foldl update 0xFFFFFFFF ^^^ 0xFFFFFFFF

end PlaneRestore.Gzip.Checksum
