import PlaneRestore.Text.Blank
import PlaneRestore.Text.Utf8
/-!
Headers of the members of a tar archive.

* A header is a block of 512 bytes; `Header.isConfirmed` checks its checksum.
* `octal?` and `number?` read the numbers in it; `Header.name` puts together the name of the member.
-/

namespace PlaneRestore.Tar

/-- The size of a block. -/
def blockSize : Nat := 512

/-- A header: the bytes of one block. -/
abbrev Header := List UInt8

/-- A field of a header. -/
def field (h : Header) (offset size : Nat) : List UInt8 := (h.drop offset).take size

/-- The bytes in front of the first zero. -/
def text (bytes : List UInt8) : List UInt8 := bytes.takeWhile (· ≠ 0)

/-- A number in octal digits, with white space around it, and perhaps a plus sign. -/
def octal? (bytes : List UInt8) : Option Nat := do
  let cs := Text.trimBlanks (← Text.Utf8.decodeChars? (text bytes))
  let digits := match cs with
    | '+' :: rest => rest
    | _ => cs
  let isOctal (c : Char) : Bool := '0' ≤ c && c ≤ '7'
  let n := digits.foldl (fun n d => n * 8 + (d.toNat - '0'.toNat)) 0
  if digits.isEmpty || !digits.all isOctal || Nat.pow 2 64 ≤ n then none else some n

/-- A number in octal digits, or in binary if the first bit is set; of a binary number the last
eight bytes count. -/
def number? (bytes : List UInt8) : Option Nat :=
  match bytes with
  | b :: rest =>
    if b < 0x80 then octal? bytes
    else
      let digits := if bytes.length = 8 then (b ^^^ 0x80) :: rest else rest.drop (rest.length - 8)
      some (digits.foldl (fun n d => n * 256 + d.toNat) 0)
  | [] => none

namespace Header

def isZero (h : Header) : Bool := h.all (· = 0)

/-- The sum of the bytes, with blanks in the place of the sum itself. -/
def sum (h : Header) : Nat :=
  (h.take 148 ++ h.drop 156).foldl (fun n b => n + b.toNat) (8 * 32)

/-- Whether the header tells the sum of its bytes. -/
def isConfirmed (h : Header) : Bool :=
  (octal? (field h 148 8)).any fun n => n % Nat.pow 2 32 = h.sum

/-- Whether the header has the standard form. -/
def isStandard (h : Header) : Bool :=
  field h 257 6 = [0x75, 0x73, 0x74, 0x61, 0x72, 0] && field h 263 2 = [0x30, 0x30]

/-- Whether the header has the other widespread form. -/
def isGnu (h : Header) : Bool :=
  field h 257 6 = [0x75, 0x73, 0x74, 0x61, 0x72, 0x20] && field h 263 2 = [0x20, 0]

/-- The name; the standard form may split it in two. -/
def name (h : Header) : List UInt8 :=
  let last := text (field h 0 100)
  let first := text (field h 345 155)
  if h.isStandard && !first.isEmpty then first ++ 0x2F :: last else last

def mode? (h : Header) : Option Nat := octal? (field h 100 8)

def size? (h : Header) : Option Nat := number? (field h 124 12)

end Header

/-- What a member is. -/
inductive Kind where
  | file
  | directory
  | link
  | symlink
  | char
  | block
  | fifo
  | continuous
  | sparse
  | longName
  | longLink
  | extension
  | globalExtension
  | other (flag : UInt8)
deriving DecidableEq, Repr, Inhabited

/-- The kind that a flag stands for. -/
def Kind.ofFlag (flag : UInt8) : Kind :=
  match Char.ofNat flag.toNat with
  | '\x00' | '0' => file
  | '1' => link
  | '2' => symlink
  | '3' => char
  | '4' => block
  | '5' => directory
  | '6' => fifo
  | '7' => continuous
  | 'S' => sparse
  | 'L' => longName
  | 'K' => longLink
  | 'x' => extension
  | 'g' => globalExtension
  | _ => other flag

/-- The name of a kind in messages. -/
def Kind.describe : Kind → String
  | file => "Regular"
  | directory => "Directory"
  | link => "Link"
  | symlink => "Symlink"
  | char => "Char"
  | block => "Block"
  | fifo => "Fifo"
  | continuous => "Continuous"
  | sparse => "GNUSparse"
  | longName => "GNULongName"
  | longLink => "GNULongLink"
  | extension => "XHeader"
  | globalExtension => "XGlobalHeader"
  | other flag => "__Nonexhaustive(" ++ toString flag.toNat ++ ")"

def Header.kind (h : Header) : Kind := Kind.ofFlag ((h.drop 156).headD 0)

end PlaneRestore.Tar
