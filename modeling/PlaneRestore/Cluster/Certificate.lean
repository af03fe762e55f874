import PlaneRestore.Text.Base64
import PlaneRestore.Text.Split
import PlaneRestore.Text.Utf8
/-!
Files with a certificate.

`Certificate.isReadable` says whether the first certificate in a file can be read: it stands between
its boundary lines in Base64, and its outer structure is that of a certificate.
-/

namespace PlaneRestore.Certificate

/-! ### Tagged values -/

/-- A value with its tag. -/
structure Tagged where
  tag : Nat
  content : List UInt8
deriving DecidableEq, Repr

/-- The length of a value: one byte below 128, or the count of the bytes that hold it. -/
def length? : List UInt8 → Option (Nat × List UInt8)
  | [] => none
  | b :: rest =>
    if b.toNat < 0x80 then some (b.toNat, rest)
    else
      let count := b.toNat - 0x80
      if count = 0 ∨ 4 < count ∨ rest.length < count then none
      else some ((rest.take count).foldl (fun n b => n * 256 + b.toNat) 0, rest.drop count)

/-- The value at the front. -/
def next? : List UInt8 → Option (Tagged × List UInt8)
  | [] => none
  | tag :: rest => do
    let (n, rest) ← length? rest
    if rest.length < n then none else some (⟨tag.toNat, rest.take n⟩, rest.drop n)

theorem length?_lt {bytes rest : List UInt8} {n : Nat} (h : length? bytes = some (n, rest)) :
    rest.length < bytes.length := by
  cases bytes with
  | nil => simp [length?] at h
  | cons b bs =>
    simp only [length?] at h
    split at h
    · cases h
      simp
    · split at h
      · cases h
      · simp only [Option.some.injEq, Prod.mk.injEq] at h
        obtain ⟨_, rfl⟩ := h
        simp only [List.length_drop, List.length_cons]
        omega

theorem next?_lt {bytes rest : List UInt8} {v : Tagged} (h : next? bytes = some (v, rest)) :
    rest.length < bytes.length := by
  cases bytes with
  | nil => simp [next?] at h
  | cons b bs =>
    simp only [next?, Option.bind_eq_bind, Option.bind_eq_some_iff] at h
    obtain ⟨⟨n, r⟩, hn, h⟩ := h
    have := length?_lt hn
    split at h
    · cases h
    · simp only [Option.some.injEq, Prod.mk.injEq] at h
      obtain ⟨_, rfl⟩ := h
      simp only [List.length_drop, List.length_cons]
      omega

/-- All values, one after another. -/
def all? (bytes : List UInt8) : Option (List Tagged) :=
  if bytes.isEmpty then some []
  else
    match _h : next? bytes with
    | some (v, rest) => (all? rest).map (v :: ·)
    | none => none
termination_by bytes.length
decreasing_by exact next?_lt _h

/-! ### Certificates -/

/-- The tags of whole numbers, bit strings, names of algorithms, and sequences. -/
def wholeTag : Nat := 0x02

def bitsTag : Nat := 0x03

def identifierTag : Nat := 0x06

def sequenceTag : Nat := 0x30

/-- A sequence that begins with the name of an algorithm. -/
def isAlgorithm (v : Tagged) : Bool :=
  v.tag = sequenceTag && ((all? v.content).bind List.head?).any (·.tag = identifierTag)

/-- A sequence of an algorithm and a key. -/
def isKey (v : Tagged) : Bool :=
  v.tag = sequenceTag &&
    match all? v.content with
    | some [algorithm, key] => isAlgorithm algorithm && key.tag = bitsTag
    | _ => false

/-- A sequence of values. -/
def isSequence (v : Tagged) : Bool := v.tag = sequenceTag && (all? v.content).isSome

/-- What a certificate says: after an optional version number, algorithm, issuer, validity,
subject and key, and then what only later versions have. -/
def isStatement (v : Tagged) : Bool :=
  v.tag = sequenceTag &&
    match (all? v.content).map fun vs => vs.dropWhile (·.tag = 0xA0) with
    | some (number :: algorithm :: issuer :: validity :: subject :: key :: more) =>
      number.tag = wholeTag && isAlgorithm algorithm && isSequence issuer && isSequence validity
        && isSequence subject && isKey key && more.all fun v => [0x81, 0x82, 0xA3].contains v.tag
    | _ => false

/-- A certificate: what it says, the algorithm of the signature, and the signature. -/
def isCertificate (bytes : List UInt8) : Bool :=
  match next? bytes with
  | some (v, _) =>
    v.tag = sequenceTag &&
      match all? v.content with
      | some [statement, algorithm, signature] =>
        isStatement statement && isAlgorithm algorithm && signature.tag = bitsTag
      | _ => false
  | none => false

/-! ### Files -/

/-- The names that a certificate goes by in boundary lines. -/
def labels : List String := ["CERTIFICATE", "X509 CERTIFICATE", "TRUSTED CERTIFICATE"]

/-- The text without white space at its end. -/
def trimEnd (cs : List Char) : List Char :=
  (cs.reverse.dropWhile fun c => c = ' ' || c = '\t' || c = '\r').reverse

/-- The lines from the first certificate on, and the line that ends it. -/
def begin? : List (List Char) → Option (List (List Char) × List Char)
  | [] => none
  | line :: rest =>
    match labels.find? fun l => ("-----BEGIN " ++ l ++ "-----").toList = line with
    | some l => some (rest, ("-----END " ++ l ++ "-----").toList)
    | none => begin? rest

/-- Whether the first certificate in a file can be read. -/
def isReadable (bytes : List UInt8) : Bool :=
  let lines := (Text.splitAll '\n' (Text.Utf8.decodeLossy bytes).toList).map trimEnd
  match begin? lines with
  | some (lines, ending) =>
    let body := lines.takeWhile (· ≠ ending)
    body.length < lines.length && ((Text.Base64.decode? body.flatten).any isCertificate)
  | none => false

end PlaneRestore.Certificate
