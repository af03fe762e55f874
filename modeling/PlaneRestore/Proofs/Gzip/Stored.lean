import Mathlib.Algebra.Order.Group.Nat
import PlaneRestore.Gzip.Stream
import PlaneRestore.Gzip.Writer
/-!
Files that are written can be read.

`Inflate.Gives input x p a p'`: with the input at hand, the step `x` leads from `p` to `p'` and
gives `a`. Steps are followed through stored blocks in this way, from bits to bytes and from bytes
to blocks; so `Stream.ofGzip_write` finds that a file expands to what it was written from.
-/

namespace PlaneRestore.Gzip

namespace Inflate

variable {input : Array UInt8} {α β : Type} {x : Step α} {f : α → Step β} {a : α} {b : β}
  {p p' p'' : Progress} {out : Array UInt8}

/-- A step leads from one point to another, and gives something. -/
def Gives (input : Array UInt8) (x : Step α) (p : Progress) (a : α) (p' : Progress) : Prop :=
  x.run input p = .ok a p'

theorem Gives.bind (hx : Gives input x p a p') (hf : Gives input (f a) p' b p'') :
    Gives input (x >>= f) p b p'' := by
  have hrun : (x >>= f).run input p = EStateM.bind (x.run input) (fun a => (f a).run input) p := rfl
  rw [Gives, hrun, EStateM.bind, hx]
  exact hf

theorem gives_pure (a : α) (p : Progress) : Gives input (pure a) p a p := rfl

/-! ### Bits and bytes -/

theorem gives_bit {byte : UInt8} {i j : Nat} (h : input[i]? = some byte) (hj : j < 8)
    (out : Array UInt8) :
    Gives input bit ⟨8 * i + j, out⟩ (byte.toNat / 2 ^ j % 2) ⟨8 * i + j + 1, out⟩ := by
  have hindex : (8 * i + j) / 8 = i := by omega
  have hplace : (8 * i + j) % 8 = j := by omega
  have hread : Gives input (read : Step (Array UInt8)) ⟨8 * i + j, out⟩ input
      ⟨8 * i + j, out⟩ := rfl
  have hget : Gives input (get : Step Progress) ⟨8 * i + j, out⟩ ⟨8 * i + j, out⟩
      ⟨8 * i + j, out⟩ := rfl
  refine hread.bind (hget.bind ?_)
  simp only [hindex, hplace, h]
  rfl

/-- The bits of a number are those of one byte, as long as they do not go beyond it. -/
theorem gives_number {byte : UInt8} {i : Nat} (h : input[i]? = some byte) (n j : Nat)
    (hfit : j + n ≤ 8) (out : Array UInt8) :
    Gives input (number n) ⟨8 * i + j, out⟩ (byte.toNat / 2 ^ j % 2 ^ n) ⟨8 * i + j + n, out⟩ := by
  -- the lowest bit is read first, and the others make up a number from the next place on
  induction n generalizing j with
  | zero =>
    rw [Nat.pow_zero, Nat.mod_one]
    exact gives_pure 0 _
  | succ n ih =>
    have hvalue : byte.toNat / 2 ^ j % 2 ^ (n + 1)
        = byte.toNat / 2 ^ j % 2 + 2 * (byte.toNat / 2 ^ (j + 1) % 2 ^ n) := by
      rw [Nat.pow_succ' (n := n), Nat.mod_mul, Nat.div_div_eq_div_mul, ← Nat.pow_succ]
    have hrest := ih (j + 1) (by omega)
    rw [hvalue, ← Nat.add_assoc (8 * i + j) n 1, Nat.add_right_comm]
    exact (gives_bit h (by omega) out).bind (hrest.bind (gives_pure _ _))

/-- A byte at a place. -/
theorem gives_byte {byte : UInt8} {i : Nat} (h : input[i]? = some byte) (out : Array UInt8) :
    Gives input (number 8) ⟨8 * i, out⟩ byte.toNat ⟨8 * (i + 1), out⟩ := by
  have hread := gives_number h 8 0 (by omega) out
  have hsmall : byte.toNat % 2 ^ 8 = byte.toNat := Nat.mod_eq_of_lt byte.toNat_lt
  rwa [Nat.pow_zero, Nat.div_one, hsmall, Nat.add_zero, ← Nat.mul_succ] at hread

/-- A longer number is read in two parts, of which the lower comes first. -/
theorem number_add (m n : Nat) : number (m + n) = do
    let low ← number m
    let high ← number n
    return low + 2 ^ m * high := by
  induction m with
  | zero => simp only [number, pure_bind, Nat.pow_zero, Nat.one_mul, Nat.zero_add, bind_pure]
  | succ m ih =>
    rw [Nat.succ_add, number, ih, number]
    simp only [bind_assoc, pure_bind]
    refine bind_congr fun low => bind_congr fun mid => bind_congr fun high => congrArg pure ?_
    rw [Nat.pow_succ', Nat.mul_add, Nat.mul_assoc, Nat.add_assoc]

/-- Two bytes make up a number. -/
theorem gives_word {low high : UInt8} {i : Nat} (hlow : input[i]? = some low)
    (hhigh : input[i + 1]? = some high) (out : Array UInt8) : Gives input (number 16) ⟨8 * i, out⟩
      (low.toNat + 256 * high.toNat) ⟨8 * (i + 2), out⟩ := by
  rw [number_add 8 8]
  exact (gives_byte hlow out).bind ((gives_byte hhigh out).bind (gives_pure _ _))

/-- Bytes stand in the input from some place on. -/
def StandAt (input : Array UInt8) (i : Nat) (bs : List UInt8) : Prop :=
  ∀ k < bs.length, input[i + k]? = bs[k]?

theorem standAt_append_iff {i : Nat} {bs cs : List UInt8} :
    StandAt input i (bs ++ cs) ↔ StandAt input i bs ∧ StandAt input (i + bs.length) cs := by
  constructor
  · intro h
    constructor
    · intro k hk
      rw [h k (by rw [List.length_append]; omega), List.getElem?_append_left hk]
    · intro k hk
      have hread := h (bs.length + k) (by rw [List.length_append]; omega)
      rwa [List.getElem?_append_right (Nat.le_add_right ..), Nat.add_sub_cancel_left,
        ← Nat.add_assoc] at hread
  · rintro ⟨hbs, hcs⟩ k hk
    rw [List.length_append] at hk
    -- a place is in the first part, or as far into the second one
    by_cases hleft : k < bs.length
    · rw [hbs k hleft, List.getElem?_append_left hleft]
    · obtain ⟨j, rfl⟩ := Nat.exists_eq_add_of_le (Nat.le_of_not_lt hleft)
      rw [← Nat.add_assoc, hcs j (by omega), List.getElem?_append_right (Nat.le_add_right ..),
        Nat.add_sub_cancel_left]

theorem standAt_cons_iff {i : Nat} {byte : UInt8} {bs : List UInt8} :
    StandAt input i (byte :: bs) ↔ input[i]? = some byte ∧ StandAt input (i + 1) bs := by
  have hsingle : StandAt input i [byte] ↔ input[i]? = some byte := by
    simp [StandAt]
  rw [← List.singleton_append, standAt_append_iff, hsingle]
  rfl

/-- Bytes that are there are copied. -/
theorem gives_literalBytes {part : List UInt8} {i : Nat} (h : StandAt input i part)
    (out : Array UInt8) : Gives input (literalBytes part.length) ⟨8 * i, out⟩ ()
      ⟨8 * (i + part.length), out ++ part⟩ := by
  induction part generalizing i out with
  | nil =>
    rw [List.length_nil, Nat.add_zero, Array.appendList_nil]
    exact gives_pure () _
  | cons byte part ih =>
    obtain ⟨hfirst, hrest⟩ := standAt_cons_iff.mp h
    have hemit : Gives input (emit (UInt8.ofNat byte.toNat)) ⟨8 * (i + 1), out⟩ ()
        ⟨8 * (i + 1), out.push byte⟩ := by
      rw [UInt8.ofNat_toNat]
      rfl
    -- one byte is copied, and the others after it
    have hcopied := ih hrest (out.push byte)
    have hlength : i + (byte :: part).length = i + 1 + part.length := by
      rw [List.length_cons]
      omega
    rw [hlength, Array.appendList_cons]
    exact (gives_byte hfirst out).bind (hemit.bind hcopied)

/-! ### Stored blocks -/

theorem littleEndian_two (n : Nat) :
    littleEndian 2 n = [UInt8.ofNat (n % 256), UInt8.ofNat (n / 256 % 256)] := rfl

theorem gives_littleEndian {n i : Nat} (hn : n ≤ 65535) (h : StandAt input i (littleEndian 2 n))
    (out : Array UInt8) : Gives input (number 16) ⟨8 * i, out⟩ n ⟨8 * (i + 2), out⟩ := by
  rw [littleEndian_two] at h
  obtain ⟨hlow, hrest⟩ := standAt_cons_iff.mp h
  have hread := gives_word hlow (standAt_cons_iff.mp hrest).1 out
  have hvalue : (UInt8.ofNat (n % 256)).toNat + 256 * (UInt8.ofNat (n / 256 % 256)).toNat = n := by
    rw [UInt8.toNat_ofNat', UInt8.toNat_ofNat']
    omega
  rwa [hvalue] at hread

/-- A block that is stored as it is. -/
def stored (isLast : Bool) (part : List UInt8) : List UInt8 :=
  (if isLast then 1 else 0) :: littleEndian 2 part.length
    ++ littleEndian 2 (65535 - part.length) ++ part

theorem gives_storedBlock {part : List UInt8} {i : Nat} (hlength : part.length ≤ 65535)
    (h : StandAt input (i + 1)
      (littleEndian 2 part.length ++ littleEndian 2 (65535 - part.length) ++ part))
    (out : Array UInt8) : Gives input storedBlock ⟨8 * i + 3, out⟩ ()
      ⟨8 * (i + 5 + part.length), out ++ part⟩ := by
  obtain ⟨hnumbers, hpart⟩ := standAt_append_iff.mp h
  obtain ⟨hcount, hcheck⟩ := standAt_append_iff.mp hnumbers
  -- the bits that are left of the first byte are passed over
  have halign : Gives input (modify fun p => { p with position := (p.position + 7) / 8 * 8 })
      ⟨8 * i + 3, out⟩ PUnit.unit ⟨8 * (i + 1), out⟩ := by
    have hposition : (8 * i + 3 + 7) / 8 * 8 = 8 * (i + 1) := by omega
    rw [← hposition]
    rfl
  refine halign.bind ((gives_littleEndian hlength hcount out).bind
    ((gives_littleEndian (by omega) hcheck out).bind ?_))
  rw [if_pos (by omega)]
  exact gives_literalBytes hpart out

theorem gives_block {part : List UInt8} {i : Nat} (isLast : Bool) (hlength : part.length ≤ 65535)
    (h : StandAt input i (stored isLast part)) (fuel : Nat) (out : Array UInt8) :
    Gives input (block fuel) ⟨8 * i, out⟩ isLast ⟨8 * (i + 5 + part.length), out ++ part⟩ := by
  obtain ⟨hfirst, hrest⟩ := standAt_cons_iff.mp h
  have hlast := gives_bit hfirst (j := 0) (by omega) out
  have hkind := gives_number hfirst 2 1 (by omega) out
  have hbits : (if isLast then 1 else 0 : UInt8).toNat / 2 ^ 0 % 2 = isLast.toNat ∧
      (if isLast then 1 else 0 : UInt8).toNat / 2 ^ 1 % 2 ^ 2 = 0 := by
    cases isLast <;> decide
  rw [hbits.1] at hlast
  rw [hbits.2] at hkind
  refine hlast.bind (hkind.bind ?_)
  rw [if_pos rfl]
  refine (gives_storedBlock hlength hrest out).bind ?_
  cases isLast <;> exact gives_pure _ _

theorem length_stored (isLast : Bool) (part : List UInt8) :
    (stored isLast part).length = 5 + part.length := by
  simp only [stored, littleEndian_two, List.length_append, List.length_cons, List.length_nil]

/-- What fits into one block is stored in the last one. -/
theorem storedBlocks_of_le {bytes : List UInt8} (n : Nat) (h : bytes.length ≤ 65535) :
    storedBlocks (n + 1) bytes = stored true bytes := by
  rw [storedBlocks]
  simp only [List.take_of_length_le h, List.drop_of_length_le h, List.isEmpty_nil, if_true,
    List.append_nil]
  rfl

theorem storedBlocks_of_lt {bytes : List UInt8} (n : Nat) (h : 65535 < bytes.length) :
    storedBlocks (n + 1) bytes
      = stored false (bytes.take 65535) ++ storedBlocks n (bytes.drop 65535) := by
  have hmore : (bytes.drop 65535).isEmpty = false := by
    rw [List.isEmpty_eq_false_iff, ← List.length_pos_iff, List.length_drop]
    omega
  rw [storedBlocks]
  simp only [hmore, Bool.false_eq_true, if_false]
  rfl

theorem length_le_storedBlocks {bytes : List UInt8} (n : Nat)
    (h : bytes.length < 65535 * (n + 1)) : bytes.length ≤ (storedBlocks (n + 1) bytes).length := by
  induction n generalizing bytes with
  | zero =>
    rw [storedBlocks_of_le 0 (by omega), length_stored]
    omega
  | succ n ih =>
    by_cases hfits : bytes.length ≤ 65535
    · rw [storedBlocks_of_le (n + 1) hfits, length_stored]
      omega
    · have hrest : (bytes.drop 65535).length
          ≤ (storedBlocks (n + 1) (bytes.drop 65535)).length := ih (by rw [List.length_drop]; omega)
      rw [List.length_drop] at hrest
      rw [storedBlocks_of_lt (n + 1) (Nat.lt_of_not_le hfits), List.length_append, length_stored,
        List.length_take]
      omega

/-- Blocks are read up to the last one. -/
theorem gives_blocks {bytes : List UInt8} {i : Nat} (bits n fuel : Nat)
    (hn : bytes.length < 65535 * (n + 1)) (hfuel : n < fuel)
    (h : StandAt input i (storedBlocks (n + 1) bytes)) (out : Array UInt8) :
    Gives input (blocks bits fuel) ⟨8 * i, out⟩ ()
      ⟨8 * (i + (storedBlocks (n + 1) bytes).length), out ++ bytes⟩ := by
  induction n generalizing bytes i fuel out with
  | zero =>
    obtain ⟨fuel, rfl⟩ := Nat.exists_eq_add_of_lt hfuel
    have hfits : bytes.length ≤ 65535 := by omega
    rw [storedBlocks_of_le 0 hfits] at h ⊢
    rw [length_stored, ← Nat.add_assoc]
    exact (gives_block true hfits h bits out).bind (gives_pure _ _)
  | succ n ih =>
    obtain ⟨fuel, rfl⟩ := Nat.exists_eq_add_of_lt hfuel
    -- what fits into one block is the last one; otherwise a full block comes first
    by_cases hfits : bytes.length ≤ 65535
    · rw [storedBlocks_of_le (n + 1) hfits] at h ⊢
      rw [length_stored, ← Nat.add_assoc]
      exact (gives_block true hfits h bits out).bind (gives_pure _ _)
    · have hlong : 65535 < bytes.length := Nat.lt_of_not_le hfits
      have hpart : (bytes.take 65535).length = 65535 := by
        rw [List.length_take]
        omega
      rw [storedBlocks_of_lt (n + 1) hlong] at h ⊢
      obtain ⟨hfirst, hrest⟩ := standAt_append_iff.mp h
      have hblock := gives_block false (Nat.le_of_eq hpart) hfirst bits out
      rw [length_stored, ← Nat.add_assoc] at hrest
      have hroom : (bytes.drop 65535).length < 65535 * (n + 1) := by
        rw [List.length_drop]
        omega
      -- the rest is read from behind this block, with what was read before it
      have hlater := ih (n + 1 + fuel) hroom (by omega) hrest (out ++ bytes.take 65535)
      have hout : out ++ bytes.take 65535 ++ bytes.drop 65535 = out ++ bytes := by
        refine Array.toList_inj.mp ?_
        rw [Array.toList_appendList, Array.toList_appendList, Array.toList_appendList,
          List.append_assoc, List.take_append_drop]
      have hplace : i + 5 + (bytes.take 65535).length
            + (storedBlocks (n + 1) (bytes.drop 65535)).length
          = i + (stored false (bytes.take 65535)
            ++ storedBlocks (n + 1) (bytes.drop 65535)).length := by
        rw [List.length_append, length_stored]
        omega
      rw [hout, hplace] at hlater
      exact hblock.bind hlater

end Inflate

/-! ### Files -/

theorem number_littleEndian (places n : Nat) :
    number (littleEndian places n) = n % 256 ^ places := by
  induction places generalizing n with
  | zero => rw [Nat.pow_zero, Nat.mod_one]; rfl
  | succ places ih =>
    have hstep : number (littleEndian (places + 1) n)
        = (UInt8.ofNat (n % 256)).toNat + 256 * number (littleEndian places (n / 256)) := rfl
    have hlow : (UInt8.ofNat (n % 256)).toNat = n % 256 := by
      rw [UInt8.toNat_ofNat']
      exact Nat.mod_mod n 256
    rw [hstep, ih, hlow, Nat.pow_succ', Nat.mod_mul]

theorem length_littleEndian (places n : Nat) : (littleEndian places n).length = places := by
  induction places generalizing n with
  | zero => rfl
  | succ places ih => rw [littleEndian, List.length_cons, ih]

/-- What comes after the header of a file without names and sums in it. -/
theorem body?_plain (body : List UInt8) :
    body? ([0x1F, 0x8B, 8, 0, 0, 0, 0, 0, 0, 255] ++ body) = some body := by
  simp [body?, hasFlag, checkHeader?]

/-- The length and the checksum after the data are confirmed. -/
theorem isConfirmed_trailer (bytes : List UInt8) :
    isConfirmed bytes (littleEndian 4 (Checksum.of bytes).toNat ++ littleEndian 4 bytes.length)
      = true := by
  have hfour : ∀ n, (littleEndian 4 n).length = 4 := length_littleEndian 4
  have hsum : (Checksum.of bytes).toNat % 256 ^ 4 = (Checksum.of bytes).toNat :=
    Nat.mod_eq_of_lt (Checksum.of bytes).toNat_lt
  rw [isConfirmed, List.take_left' (hfour _), List.drop_left' (hfour _),
    List.take_of_length_le (Nat.le_of_eq (hfour _)), number_littleEndian, number_littleEndian, hsum,
    List.length_append, hfour, hfour]
  simp

theorem Inflate.run_of_gives {input : Array UInt8} {p : Progress}
    (h : Gives input (blocks (8 * input.size + 1) (8 * input.size + 1)) ⟨0, #[]⟩ () p) :
    run input = (p.output, .complete p.position) := by
  rw [Gives] at h
  unfold run
  dsimp only
  rw [h]

/-- Stored blocks expand to what is stored in them, whatever comes after. -/
theorem Inflate.run_storedBlocks (bytes trailer : List UInt8) :
    run (storedBlocks (bytes.length / 65535 + 1) bytes ++ trailer).toArray = (bytes.toArray,
      .complete (8 * (storedBlocks (bytes.length / 65535 + 1) bytes).length)) := by
  have hroom : bytes.length < 65535 * (bytes.length / 65535 + 1) := by omega
  have hlength := length_le_storedBlocks (bytes.length / 65535) hroom
  have hstand : StandAt (storedBlocks (bytes.length / 65535 + 1) bytes ++ trailer).toArray 0
      (storedBlocks (bytes.length / 65535 + 1) bytes) := by
    intro k hk
    rw [Nat.zero_add, List.getElem?_toArray, List.getElem?_append_left hk]
  -- there are fewer blocks than bits
  have hfuel : bytes.length / 65535
      < 8 * (storedBlocks (bytes.length / 65535 + 1) bytes ++ trailer).toArray.size + 1 := by
    rw [List.size_toArray, List.length_append]
    omega
  have hgives := gives_blocks (8 * (storedBlocks (bytes.length / 65535 + 1) bytes
    ++ trailer).toArray.size + 1) _ _ hroom hfuel hstand #[]
  rw [Nat.zero_add] at hgives
  have hout : (#[] : Array UInt8) ++ bytes = bytes.toArray := by
    refine Array.toList_inj.mp ?_
    rw [Array.toList_appendList, List.nil_append]
  rw [hout] at hgives
  exact run_of_gives hgives

/-- A file that was written expands to what it was made of. -/
theorem Stream.ofGzip_write (bytes : List UInt8) :
    Stream.ofGzip (write bytes) = ⟨bytes, false⟩ := by
  have hbody : body? (write bytes) = some (storedBlocks (bytes.length / 65535 + 1) bytes
      ++ (littleEndian 4 (Checksum.of bytes).toNat ++ littleEndian 4 bytes.length)) := by
    rw [write, List.append_assoc, List.append_assoc]
    exact body?_plain _
  rw [Stream.ofGzip, hbody]
  dsimp only
  rw [Inflate.run_storedBlocks]
  have hbits : ∀ n, (8 * n + 7) / 8 = n := by omega
  dsimp only
  rw [hbits, List.drop_left, isConfirmed_trailer]
  rfl

end PlaneRestore.Gzip
