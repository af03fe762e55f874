import PlaneRestore.Gzip.Checksum
import PlaneRestore.Gzip.Inflate
/-!
Compressed files.

`Stream.ofGzip file` is what can be read out of a compressed file. Reading ends with a fault if the
file breaks off, is corrupt, or does not have the length and the checksum that it tells; what was
read before that is still there, but of a corrupt file only what was expanded in earlier rounds.
-/

namespace PlaneRestore

/-- What can be read from a source, and whether reading on after that fails. -/
structure Stream where
  bytes : List UInt8
  /-- Reading on is a fault, not the end. -/
  isBroken : Bool
deriving DecidableEq, Repr, Inhabited

namespace Gzip

/-- Every compressed file starts with these bytes. -/
def magic : List UInt8 := [0x1F, 0x8B]

/-- Drops a text of less than 64 KiB that ends with a zero. -/
def dropText? (bytes : List UInt8) : Option (List UInt8) :=
  match bytes.dropWhile (· ≠ 0) with
  | _ :: rest => if bytes.length - rest.length ≤ 65536 then some rest else none
  | [] => none

/-- A number of two bytes, the lower one first. -/
def word? : List UInt8 → Option (Nat × List UInt8)
  | a :: b :: rest => some (a.toNat + 256 * b.toNat, rest)
  | _ => none

/-- Whether a flag is set. -/
def hasFlag (flags : UInt8) (bit : UInt8) : Bool := flags &&& bit ≠ 0

/-- Checks the sum of the header, if there is one. -/
def checkHeader? (flags : UInt8) (file rest : List UInt8) : Option (List UInt8) :=
  if hasFlag flags 2 then do
    let header := file.take (file.length - rest.length)
    let (sum, rest) ← word? rest
    if (Checksum.of header).toNat % 65536 = sum then some rest else none
  else some rest

/-- What follows the header of a compressed file. -/
def body? (file : List UInt8) : Option (List UInt8) :=
  match file with
  | 0x1F :: 0x8B :: method :: flags :: rest =>
    if method ≠ 8 || hasFlag flags 0xE0 || rest.length < 6 then none
    else do
      let rest := rest.drop 6
      let rest ←
        if hasFlag flags 4 then do
          let (n, rest) ← word? rest
          if rest.length < n then none else some (rest.drop n)
        else some rest
      let rest ← if hasFlag flags 8 then dropText? rest else some rest
      let rest ← if hasFlag flags 16 then dropText? rest else some rest
      checkHeader? flags file rest
  | _ => none

/-- A number of four bytes, the lower ones first. -/
def number (bytes : List UInt8) : Nat :=
  bytes.foldr (fun b n => b.toNat + 256 * n) 0

/-- Whether the bytes after the compressed data tell its checksum and its length. -/
def isConfirmed (output : List UInt8) (trailer : List UInt8) : Bool :=
  8 ≤ trailer.length && number (trailer.take 4) = (Checksum.of output).toNat
    && number ((trailer.drop 4).take 4) = output.length % Nat.pow 2 32

/-- How many bytes are expanded into one round of the output. -/
def outputRound : Nat := 32768

/-- How many bytes of a file are taken in at a time. -/
def inputRound : Nat := 8192

/-- How much of the output was expanded before the round in which the data proved corrupt. -/
def deliveredBeforeFault (headerSize : Nat) (data : Array UInt8) (output bits : Nat) : Nat :=
  -- data is taken in by rounds, too: what earlier rounds of it make up was expanded before
  let fault := headerSize + (bits - 1) / 8
  let earlier := fault / inputRound * inputRound - headerSize
  max (output / outputRound * outputRound) (Inflate.run (data.take earlier)).1.size

/-- What can be read out of a compressed file. -/
def Stream.ofGzip (file : List UInt8) : Stream :=
  match body? file with
  | none => ⟨[], true⟩
  | some body =>
    let data := body.toArray
    let (output, stop) := Inflate.run data
    match stop with
    | .complete bits =>
      let output := output.toList
      ⟨output, !isConfirmed output (body.drop ((bits + 7) / 8))⟩
    | .starved => ⟨output.toList, true⟩
    | .corrupt bits =>
      let n := deliveredBeforeFault (file.length - body.length) data output.size bits
      ⟨output.toList.take n, true⟩

end Gzip

end PlaneRestore
