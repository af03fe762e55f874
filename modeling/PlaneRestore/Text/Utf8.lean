/-!
UTF-8.

* `Utf8.decode? bytes` reads well-formed UTF-8 only.
* `Utf8.decodeLossy bytes` never fails: every maximal ill-formed part becomes one replacement
  character (U+FFFD).
* `Utf8.encode s` is the list of the bytes of `s`.
-/

namespace PlaneRestore.Text.Utf8

/-- The bytes of a text. -/
def encode (s : String) : List UInt8 :=
  s.toUTF8.toList

/-- A continuation byte lies between 0x80 and 0xBF. -/
def isContinuation (b : UInt8) : Bool :=
  0x80 ≤ b && b ≤ 0xBF

/-- The six payload bits of a continuation byte. -/
def payload (b : UInt8) : Nat :=
  b.toNat % 64

/-- Whether `b` may be the second byte after the leading byte `lead`: rules out overlong forms,
surrogates, and code points above U+10FFFF. -/
def isSecond (lead b : UInt8) : Bool :=
  if lead == 0xE0 then 0xA0 ≤ b && b ≤ 0xBF
  else if lead == 0xED then 0x80 ≤ b && b ≤ 0x9F
  else if lead == 0xF0 then 0x90 ≤ b && b ≤ 0xBF
  else if lead == 0xF4 then 0x80 ≤ b && b ≤ 0x8F
  else isContinuation b

/-- What the front of a byte list is: a character and its length, or an ill-formed part and its
length. -/
inductive Front where
  | char (c : Char) (length : Nat)
  | bad (length : Nat)

/-- Reads one character, or the maximal ill-formed part, at the front. -/
def front (b : UInt8) (rest : List UInt8) : Front :=
  if b < 0x80 then .char (Char.ofNat b.toNat) 1
  else if 0xC2 ≤ b && b ≤ 0xDF then
    match rest with
    | b₂ :: _ =>
      if isSecond b b₂ then .char (Char.ofNat ((b.toNat - 0xC0) * 64 + payload b₂)) 2 else .bad 1
    | [] => .bad 1
  else if 0xE0 ≤ b && b ≤ 0xEF then
    match rest with
    -- an ill-formed part is as long as it could have been the front of a character
    | b₂ :: rest =>
      if isSecond b b₂ then
        match rest with
        | b₃ :: _ =>
          if isContinuation b₃ then
            .char (Char.ofNat (((b.toNat - 0xE0) * 64 + payload b₂) * 64 + payload b₃)) 3
          else .bad 2
        | [] => .bad 2
      else .bad 1
    | [] => .bad 1
  else if 0xF0 ≤ b && b ≤ 0xF4 then
    match rest with
    | b₂ :: rest =>
      if isSecond b b₂ then
        match rest with
        | b₃ :: rest =>
          if isContinuation b₃ then
            match rest with
            | b₄ :: _ =>
              if isContinuation b₄ then
                .char (Char.ofNat
                  ((((b.toNat - 0xF0) * 64 + payload b₂) * 64 + payload b₃) * 64 + payload b₄)) 4
              else .bad 3
            | [] => .bad 3
          else .bad 2
        | [] => .bad 2
      else .bad 1
    | [] => .bad 1
  else .bad 1

/-- Decodes with a choice for ill-formed parts: `some c` puts `c` in their place, `none` fails. -/
def decodeWith (replacement : Option Char) : Nat → List UInt8 → Array Char → Option (Array Char)
  | _, [], acc => some acc
  | 0, _ :: _, acc => some acc
  | fuel + 1, b :: rest, acc =>
    match front b rest with
    | .char c n => decodeWith replacement fuel (rest.drop (n - 1)) (acc.push c)
    | .bad n =>
      match replacement with
      | some r => decodeWith replacement fuel (rest.drop (n - 1)) (acc.push r)
      | none => none

/-- The characters of well-formed UTF-8. -/
def decodeChars? (bytes : List UInt8) : Option (List Char) :=
  (decodeWith none bytes.length bytes #[]).map Array.toList

/-- The text of well-formed UTF-8. -/
def decode? (bytes : List UInt8) : Option String :=
  (decodeChars? bytes).map String.ofList

/-- The text with U+FFFD in place of every maximal ill-formed part. -/
def decodeLossy (bytes : List UInt8) : String :=
  String.ofList (((decodeWith (some '\uFFFD') bytes.length bytes #[]).map Array.toList).getD [])

end PlaneRestore.Text.Utf8
