import Mathlib.Data.List.Basic
import PlaneRestore.Tar.Member
/-!
The sections of a tar archive.

A section is a header, the data that the header tells the size of, and padding up to the next block.
Some sections only announce something about the next one; each other is a member.

* `Tar.Reads a xs b ms`: after the announcement `a` the sections `xs` are whole and make up the
  members `ms`, and `b` is announced at last.
* `Tar.membersFrom_of_reads`: what is read of whole sections. `Tar.reads_of_membersFrom`: an archive
  that is not broken has nothing but whole sections.
* `Tar.isBroken_of_cut`: an archive that ends inside of a section is broken.
-/

namespace PlaneRestore.Tar

/-- A part of an archive, with a header of its own. -/
structure Section where
  header : Header
  data : List UInt8
  padding : List UInt8

/-- A header opens a section of a size. -/
structure Opens (a : Announced) (h : Header) (size : Nat) : Prop where
  length : h.length = blockSize
  notZero : Header.isZero h = false
  confirmed : Header.isConfirmed h = true
  recorded : a.sizeOf? h = some size

/-- A size of more than 64 bits, rounded up to whole blocks, is taken for none. -/
def IsSmall (size : Nat) : Prop := size + blockSize - 1 < Nat.pow 2 64

/-- A header of a section that only tells something about the next one. -/
def Header.IsAnnouncement (h : Header) : Prop :=
  (h.isStandard || h.isGnu) = true ∧
    (h.kind = .longName ∨ h.kind = .longLink ∨ h.kind = .extension)

/-- What a header that announces nothing is not. -/
theorem Header.ne_of_not_isAnnouncement {h : Header} (plain : ¬h.IsAnnouncement) :
    ∀ k ∈ [Kind.longName, .longLink, .extension],
      ((h.isStandard || h.isGnu) && decide (h.kind = k)) = false := by
  intro k hk
  refine Bool.eq_false_iff.mpr fun heq => plain ?_
  obtain ⟨hknown, hkind⟩ := Bool.and_eq_true_iff.mp heq
  simp only [List.mem_cons, List.not_mem_nil, or_false] at hk
  exact ⟨hknown, by rwa [of_decide_eq_true hkind]⟩

namespace Section

def bytes (x : Section) : List UInt8 := x.header ++ (x.data ++ x.padding)

/-- All data and all padding is there. -/
structure IsWhole (a : Announced) (x : Section) : Prop where
  opens : Opens a x.header x.data.length
  small : IsSmall x.data.length
  filled : x.data.length + x.padding.length = padded x.data.length

/-- What is announced with a section, if nothing of the kind was announced before. -/
inductive Announces (x : Section) : Announced → Announced → Prop where
  | longName {a : Announced} (kind : x.header.kind = .longName) (first : a.name = none) :
      Announces x a { a with name := some x.data }
  | longLink {a : Announced} (kind : x.header.kind = .longLink) (first : a.link = none) :
      Announces x a { a with link := some x.data }
  | extension {a : Announced} (kind : x.header.kind = .extension) (first : a.records = none) :
      Announces x a { a with records := some x.data }

/-- An announcement is made, unless the same was announced before. -/
theorem exists_announces {a : Announced} (x : Section) (hann : x.header.IsAnnouncement) :
    (∃ a', x.Announces a a') ∨
      ((x.header.kind = .longName → a.name ≠ none) ∧ (x.header.kind = .longLink → a.link ≠ none) ∧
        (x.header.kind = .extension → a.records ≠ none)) := by
  rcases hann.2 with hkind | hkind | hkind
  · by_cases hfirst : a.name = none
    · exact .inl ⟨_, .longName hkind hfirst⟩
    · exact .inr (by simp [hkind, hfirst])
  · by_cases hfirst : a.link = none
    · exact .inl ⟨_, .longLink hkind hfirst⟩
    · exact .inr (by simp [hkind, hfirst])
  · by_cases hfirst : a.records = none
    · exact .inl ⟨_, .extension hkind hfirst⟩
    · exact .inr (by simp [hkind, hfirst])

/-- A section as a member. -/
def member (a : Announced) (x : Section) : Member :=
  ⟨Text.Utf8.decodeLossy (a.nameOf x.header), x.header.kind, x.header.mode?, x.data.length, x.data,
    true⟩

end Section

/-- Whole sections, and what they make up. -/
inductive Reads : Announced → List Section → Announced → List Member → Prop where
  | done (a : Announced) : Reads a [] a []
  | announced {a a' b : Announced} {x : Section} {xs : List Section} {ms : List Member}
      (whole : x.IsWhole a) (known : (x.header.isStandard || x.header.isGnu) = true)
      (tells : x.Announces a a') (rest : Reads a' xs b ms) : Reads a (x :: xs) b ms
  | member {a b : Announced} {x : Section} {xs : List Section} {ms : List Member}
      (whole : x.IsWhole a) (plain : ¬x.header.IsAnnouncement) (full : x.header.kind ≠ .sparse)
      (rest : Reads .nothing xs b ms) : Reads a (x :: xs) b (x.member a :: ms)

/-- A stream ends where nothing is left, or with a block of zeros. -/
def IsAtEnd (s : Stream) : Prop :=
  s = ⟨[], false⟩ ∨ blockSize ≤ s.bytes.length ∧ Header.isZero (s.bytes.take blockSize) = true

variable {a b : Announced} {s : Stream} {h : Header} {size fuel : Nat} {rest : List UInt8}
  {ms : List Member} {xs : List Section}

/-! ### Headers -/

/-- What the first block is, if it opens a section. -/
theorem Opens.next (hopens : Opens a h size) (hbytes : s.bytes = h ++ rest) : next a s =
    if Nat.pow 2 64 ≤ size + blockSize - 1 then .broken else .header h size rest := by
  have htake : s.bytes.take blockSize = h := by
    rw [hbytes, ← hopens.length, List.take_left]
  have hdrop : s.bytes.drop blockSize = rest := by
    rw [hbytes, ← hopens.length, List.drop_left]
  have hne : s.bytes.isEmpty = false := by
    have hlength := congrArg List.length htake
    rw [hopens.length] at hlength
    cases hs : s.bytes with
    | nil => simp [hs, blockSize] at hlength
    | cons b bs => rfl
  simp only [Tar.next, htake, hdrop, hne, hopens.length, hopens.notZero, hopens.confirmed,
    hopens.recorded, Nat.lt_irrefl, Bool.not_true, Bool.false_eq_true, if_false]

theorem next_eq_header_iff :
    next a s = .header h size rest ↔ s.bytes = h ++ rest ∧ Opens a h size ∧ IsSmall size := by
  constructor
  · intro hnext
    simp only [next] at hnext
    split at hnext
    · split at hnext <;> cases hnext
    · split at hnext
      · cases hnext
      · next hlength =>
        split at hnext
        · cases hnext
        · next hzero =>
          split at hnext
          · cases hnext
          · next hconfirmed =>
            split at hnext
            · next n hsize =>
              split at hnext
              · cases hnext
              · next hbound =>
                cases hnext
                -- all checks have been passed
                have htake : (s.bytes.take blockSize).length = blockSize :=
                  Nat.le_antisymm (List.length_take_le ..) (Nat.le_of_not_lt hlength)
                exact ⟨(List.take_append_drop ..).symm, ⟨htake, by simpa using hzero,
                  by simpa using hconfirmed, hsize⟩, Nat.lt_of_not_le hbound⟩
            · cases hnext
  · rintro ⟨hbytes, hopens, hsmall⟩
    rw [hopens.next hbytes, if_neg (Nat.not_le.mpr hsmall)]

theorem next_eq_ended_iff : next a s = .ended ↔ IsAtEnd s := by
  obtain ⟨bytes, isBroken⟩ := s
  cases bytes with
  | nil => cases isBroken <;> simp [next, IsAtEnd, blockSize]
  | cons b bytes =>
    -- a stream with bytes is at its end if they start with a whole block of zeros
    have hlength : ((b :: bytes).take blockSize).length < blockSize ↔
        ¬blockSize ≤ (b :: bytes).length := by
      rw [List.length_take]
      omega
    simp only [IsAtEnd, Stream.mk.injEq, reduceCtorEq, false_and, false_or]
    constructor
    · intro hnext
      simp only [next, List.isEmpty_cons, Bool.false_eq_true, if_false] at hnext
      split at hnext
      · cases hnext
      · next hfull =>
        split at hnext
        · next hzero => exact ⟨not_not.mp (hlength.not.mp hfull), hzero⟩
        · split at hnext
          · cases hnext
          · split at hnext
            · split at hnext <;> cases hnext
            · cases hnext
    · rintro ⟨hfull, hzero⟩
      simp only [next, List.isEmpty_cons, Bool.false_eq_true, if_false,
        if_neg (hlength.not.mpr (not_not.mpr hfull)), hzero, if_true]

/-! ### Whole sections -/

theorem le_padded (size : Nat) : size ≤ padded size := by
  rw [padded, blockSize]
  omega

namespace Section

variable {x : Section}

theorem IsWhole.length_bytes (h : x.IsWhole a) :
    x.bytes.length = blockSize + padded x.data.length := by
  rw [bytes, List.length_append, List.length_append, h.opens.length, h.filled]

theorem IsWhole.next (h : x.IsWhole a) (tail : List UInt8) (isBroken : Bool) :
    Tar.next a ⟨x.bytes ++ tail, isBroken⟩
      = .header x.header x.data.length (x.data ++ (x.padding ++ tail)) := by
  refine next_eq_header_iff.mpr ⟨?_, h.opens, h.small⟩
  rw [bytes, List.append_assoc, List.append_assoc]

/-- The data and the rest, after the header of a whole section. -/
theorem IsWhole.parts (h : x.IsWhole a) (tail : List UInt8) :
    (x.data ++ (x.padding ++ tail)).take x.data.length = x.data ∧
      (x.data ++ (x.padding ++ tail)).drop (padded x.data.length) = tail ∧
      padded x.data.length ≤ (x.data ++ (x.padding ++ tail)).length := by
  refine ⟨List.take_left, ?_, ?_⟩
  · rw [← h.filled, ← List.append_assoc, ← List.length_append, List.drop_left]
  · rw [← h.filled, List.length_append, List.length_append]
    omega

end Section

/-- The section that a header opens, if all of it is there. -/
theorem exists_section (h' : Opens a h size) (hsmall : IsSmall size)
    (hbytes : s.bytes = h ++ rest) (hwhole : padded size ≤ rest.length) :
    ∃ x : Section, x.IsWhole a ∧ x.header = h ∧
      x.data = rest.take size ∧ x.data.length = size ∧
      s.bytes = x.bytes ++ rest.drop (padded size) := by
  have hle := le_padded size
  have hsize : (rest.take size).length = size := by
    rw [List.length_take]
    omega
  refine ⟨⟨h, rest.take size, (rest.drop size).take (padded size - size)⟩, ⟨?_, ?_, ?_⟩, rfl, rfl,
    hsize, ?_⟩
  · rw [hsize]
    exact h'
  · rw [hsize]
    exact hsmall
  · rw [hsize, List.length_take, List.length_drop]
    omega
  · rw [hbytes, Section.bytes, List.append_assoc, List.append_assoc, List.append_right_inj]
    -- after the data comes the padding, and the rest after both
    have hskip : rest.drop (padded size) = (rest.drop size).drop (padded size - size) := by
      rw [List.drop_drop]
      congr 1
      omega
    rw [hskip, List.take_append_drop, List.take_append_drop]

/-! ### Section by section -/

section Step

variable {x : Section} (hx : x.IsWhole a) (fuel : Nat) (tail : List UInt8) (isBroken : Bool)

include hx

theorem membersFrom_announced {a' : Announced}
    (known : (x.header.isStandard || x.header.isGnu) = true) (tells : x.Announces a a') :
    membersFrom (fuel + 1) a ⟨x.bytes ++ tail, isBroken⟩
      = membersFrom fuel a' ⟨tail, isBroken⟩ := by
  obtain ⟨htake, hdrop, hwhole⟩ := hx.parts tail
  rw [membersFrom, hx.next tail isBroken]
  simp only [htake, hdrop, hwhole, known]
  cases tells with
  | longName kind first => simp [kind, first]
  | longLink kind first => simp [kind, first]
  | extension kind first => simp [kind, first]

theorem membersFrom_member (plain : ¬x.header.IsAnnouncement) (full : x.header.kind ≠ .sparse) :
    membersFrom (fuel + 1) a ⟨x.bytes ++ tail, isBroken⟩ =
      let later := membersFrom fuel .nothing ⟨tail, isBroken⟩
      (x.member a :: later.1, later.2) := by
  obtain ⟨htake, hdrop, hwhole⟩ := hx.parts tail
  rw [membersFrom, hx.next tail isBroken]
  have hplain := Header.ne_of_not_isAnnouncement plain
  simp only [htake, hdrop, hwhole, hplain .longName (by simp), hplain .longLink (by simp),
    hplain .extension (by simp), full, Bool.false_eq_true, if_false, if_true, decide_true,
    Bool.true_or]
  rfl

end Step

/-- Whole sections are read one after another, and what comes after them is read on. -/
theorem Reads.membersFrom (h : Reads a xs b ms) (fuel : Nat) (tail : List UInt8)
    (isBroken : Bool) :
    membersFrom (xs.length + fuel) a ⟨xs.flatMap Section.bytes ++ tail, isBroken⟩ =
      let later := Tar.membersFrom fuel b ⟨tail, isBroken⟩
      (ms ++ later.1, later.2) := by
  induction h with
  | done a =>
    rw [List.length_nil, Nat.zero_add, List.flatMap_nil, List.nil_append]
    rfl
  -- each section uses up one step of the fuel
  | @announced a a' b x xs ms whole known tells rest ih =>
    have hlength : (x :: xs).length + fuel = (xs.length + fuel) + 1 := by
      rw [List.length_cons]
      omega
    rw [hlength, List.flatMap_cons, List.append_assoc,
      membersFrom_announced whole _ _ _ known tells, ih]
  | @member a b x xs ms whole plain full rest ih =>
    have hlength : (x :: xs).length + fuel = (xs.length + fuel) + 1 := by
      rw [List.length_cons]
      omega
    rw [hlength, List.flatMap_cons, List.append_assoc,
      membersFrom_member whole _ _ _ plain full, ih]
    rfl

/-! ### Archives that are broken -/

/-- An archive that ends before a section does is broken. -/
theorem isBroken_of_cut (hnext : next a s = .header h size rest) (hcut : rest.length < padded size)
    (fuel : Nat) : (membersFrom (fuel + 1) a s).2 = true := by
  have hpart : ¬padded size ≤ rest.length := Nat.not_le.mpr hcut
  rw [membersFrom, hnext]
  simp only [hpart, decide_false, Bool.not_false, Bool.or_true, if_true, if_false]
  split
  · rfl
  · split
    · rfl
    · split
      · rfl
      · split
        -- the data of a sparse member is even further away
        · cases sparseBlocks? h size rest with
          | none => rfl
          | some n =>
            have hmore : rest.length < n * blockSize + padded size := by omega
            simp only [hmore, if_true]
        · rfl

/-- An archive that announces the same thing twice is broken. -/
theorem isBroken_of_twice (hnext : next a s = .header h size rest) (hann : h.IsAnnouncement)
    (htwice : (h.kind = .longName → a.name ≠ none) ∧ (h.kind = .longLink → a.link ≠ none) ∧
      (h.kind = .extension → a.records ≠ none)) (fuel : Nat) :
    (membersFrom (fuel + 1) a s).2 = true := by
  obtain ⟨hknown, hkind⟩ := hann
  obtain ⟨hname, hlink, hrecords⟩ := htwice
  rw [membersFrom, hnext]
  rcases hkind with hkind | hkind | hkind
  · obtain ⟨name, hsome⟩ := Option.ne_none_iff_exists'.mp (hname hkind)
    simp [hknown, hkind, hsome]
  · obtain ⟨link, hsome⟩ := Option.ne_none_iff_exists'.mp (hlink hkind)
    simp [hknown, hkind, hsome]
  · obtain ⟨records, hsome⟩ := Option.ne_none_iff_exists'.mp (hrecords hkind)
    simp [hknown, hkind, hsome]

/-- A sparse member is counted among the members, if the archive is read on after it. -/
theorem exists_sparse (hnext : next a s = .header h size rest) (hsparse : h.kind = .sparse)
    (fuel : Nat) : (membersFrom (fuel + 1) a s).2 = true ∨
      ∃ m ∈ (membersFrom (fuel + 1) a s).1, m.kind = .sparse := by
  rw [membersFrom, hnext]
  simp only [hsparse, reduceCtorEq, decide_false, Bool.and_false, Bool.false_eq_true, if_false,
    if_true]
  cases sparseBlocks? h size rest with
  | none => exact .inl rfl
  | some n =>
    dsimp only
    split
    · exact .inl rfl
    · exact .inr ⟨_, List.mem_cons_self, rfl⟩

/-- An archive that is not broken goes on with a whole section, or is at its end. -/
theorem membersFrom_succ_of_false (hread : membersFrom (fuel + 1) a s = (ms, false))
    (hfull : ∀ m ∈ ms, m.kind ≠ .sparse) :
    (IsAtEnd s ∧ a.isNothing = true ∧ ms = []) ∨
      (∃ x tail a', Section.IsWhole a x ∧ (x.header.isStandard || x.header.isGnu) = true ∧
        x.Announces a a' ∧ s.bytes = x.bytes ++ tail ∧
          membersFrom fuel a' ⟨tail, s.isBroken⟩ = (ms, false)) ∨
        ∃ x tail ms', Section.IsWhole a x ∧ ¬x.header.IsAnnouncement ∧ x.header.kind ≠ .sparse ∧
          s.bytes = x.bytes ++ tail ∧ ms = x.member a :: ms' ∧
            membersFrom fuel .nothing ⟨tail, s.isBroken⟩ = (ms', false) := by
  cases hnext : next a s with
  | ended =>
    rw [membersFrom, hnext] at hread
    simp only [Prod.mk.injEq, Bool.not_eq_false'] at hread
    exact .inl ⟨next_eq_ended_iff.mp hnext, hread.2, hread.1.symm⟩
  | broken =>
    rw [membersFrom, hnext] at hread
    cases hread
  | header h size rest =>
    obtain ⟨hbytes, hopens, hsmall⟩ := next_eq_header_iff.mp hnext
    -- the next header is looked for after the padding, so all of it is there
    have hwhole : padded size ≤ rest.length := by
      by_contra hcut
      have hbroken := isBroken_of_cut hnext (Nat.lt_of_not_le hcut) fuel
      rw [hread] at hbroken
      cases hbroken
    obtain ⟨x, hx, rfl, -, hsize, hsplit⟩ := exists_section hopens hsmall hbytes hwhole
    generalize rest.drop (padded size) = tail at hsplit
    obtain ⟨bytes, isBroken⟩ := s
    obtain rfl : bytes = x.bytes ++ tail := hsplit
    by_cases hann : x.header.IsAnnouncement
    -- what was announced before cannot be announced again
    · rcases x.exists_announces (a := a) hann with ⟨a', tells⟩ | htwice
      · rw [membersFrom_announced hx _ _ _ hann.1 tells] at hread
        exact .inr (.inl ⟨x, tail, a', hx, hann.1, tells, rfl, hread⟩)
      · have hbroken := isBroken_of_twice hnext hann htwice fuel
        rw [hread] at hbroken
        cases hbroken
    · have hkind : x.header.kind ≠ .sparse := by
        intro hsparse
        rcases exists_sparse hnext hsparse fuel with hbroken | ⟨m, hm, hkind⟩
        · rw [hread] at hbroken
          cases hbroken
        · rw [hread] at hm
          exact hfull m hm hkind
      rw [membersFrom_member hx _ _ _ hann hkind] at hread
      obtain ⟨hms, hbroken⟩ := Prod.mk.inj hread
      exact .inr (.inr ⟨x, tail, _, hx, hann, hkind, rfl, hms.symm, Prod.ext rfl hbroken⟩)

/-- An archive that is not broken, and has no sparse members, consists of whole sections. -/
theorem reads_of_membersFrom (hread : membersFrom fuel a s = (ms, false))
    (hfull : ∀ m ∈ ms, m.kind ≠ .sparse) : ∃ xs b tail, Reads a xs b ms ∧ b.isNothing = true ∧
      s.bytes = xs.flatMap Section.bytes ++ tail ∧ IsAtEnd ⟨tail, s.isBroken⟩ := by
  induction fuel generalizing a s ms with
  | zero => cases hread
  | succ fuel ih =>
    -- the fuel is spent on the next section, of which all is there
    rcases membersFrom_succ_of_false hread hfull with
      ⟨hend, hnothing, rfl⟩ | ⟨x, tail, a', hx, hknown, tells, hbytes, hrest⟩ |
        ⟨x, tail, ms, hx, hplain, hkind, hbytes, rfl, hrest⟩
    · exact ⟨[], a, s.bytes, .done a, hnothing, rfl, hend⟩
    · obtain ⟨xs, b, tail', hxs, hb, htail, hend⟩ := ih hrest hfull
      refine ⟨x :: xs, b, tail', .announced hx hknown tells hxs, hb, ?_, hend⟩
      rw [hbytes, List.flatMap_cons, List.append_assoc]
      exact congrArg _ htail
    · obtain ⟨xs, b, tail', hxs, hb, htail, hend⟩ :=
        ih hrest fun m hm => hfull m (List.mem_cons_of_mem _ hm)
      refine ⟨x :: xs, b, tail', .member hx hplain hkind hxs, hb, ?_, hend⟩
      rw [hbytes, List.flatMap_cons, List.append_assoc]
      exact congrArg _ htail

/-! ### Whole archives -/

theorem Announced.isNothing_iff : a.isNothing = true ↔ a = .nothing := by
  obtain ⟨name, link, records⟩ := a
  simp [isNothing, nothing, and_assoc]

/-- Every section takes a block at least. -/
theorem Reads.length_le (h : Reads a xs b ms) :
    blockSize * xs.length ≤ (xs.flatMap Section.bytes).length := by
  induction h with
  | done a => exact Nat.le_refl 0
  | announced whole known tells rest ih | member whole plain full rest ih =>
    rw [List.flatMap_cons, List.length_append, whole.length_bytes, List.length_cons, Nat.mul_add]
    omega

/-- A stream of whole sections is read to where they end. -/
theorem Reads.members (h : Reads .nothing xs b ms) {tail : List UInt8}
    (hbytes : s.bytes = xs.flatMap Section.bytes ++ tail) :
    ∃ fuel, members s =
      let later := Tar.membersFrom (fuel + 1) b ⟨tail, s.isBroken⟩
      (ms ++ later.1, later.2) := by
  have hle : xs.length ≤ s.bytes.length / blockSize := by
    rw [Nat.le_div_iff_mul_le (by decide), Nat.mul_comm, hbytes, List.length_append]
    exact Nat.le_trans h.length_le (Nat.le_add_right ..)
  obtain ⟨fuel, hfuel⟩ := Nat.exists_eq_add_of_le hle
  refine ⟨fuel, ?_⟩
  -- there are at least as many rounds as sections, and one more for what comes after them
  have hs : s = ⟨xs.flatMap Section.bytes ++ tail, s.isBroken⟩ := by rw [← hbytes]
  rw [Tar.members, hfuel, Nat.add_assoc]
  conv_lhs => rw [hs]
  exact h.membersFrom (fuel + 1) tail s.isBroken

/-- A stream holds whole sections up to its end, and these make up the members. -/
def Holds (s : Stream) (xs : List Section) (ms : List Member) : Prop :=
  Reads .nothing xs .nothing ms ∧
    ∃ tail, s.bytes = xs.flatMap Section.bytes ++ tail ∧ IsAtEnd ⟨tail, s.isBroken⟩

theorem Holds.members (h : Holds s xs ms) : members s = (ms, false) := by
  obtain ⟨hreads, tail, hbytes, hend⟩ := h
  obtain ⟨fuel, hmembers⟩ := hreads.members hbytes
  rw [hmembers, Tar.membersFrom, next_eq_ended_iff.mpr hend]
  simp [Announced.isNothing, Announced.nothing]

theorem exists_holds (h : Tar.members s = (ms, false)) (hfull : ∀ m ∈ ms, m.kind ≠ .sparse) :
    ∃ xs, Holds s xs ms := by
  obtain ⟨xs, b, tail, hreads, hb, hbytes, hend⟩ := reads_of_membersFrom h hfull
  rw [Announced.isNothing_iff] at hb
  subst hb
  exact ⟨xs, hreads, tail, hbytes, hend⟩

/-- A stream that ends inside of a section is broken. -/
theorem Reads.isBroken_of_cut (h' : Reads .nothing xs a ms) (hopens : Opens a h size)
    (hbytes : s.bytes = xs.flatMap Section.bytes ++ (h ++ rest))
    (hcut : rest.length < padded size) : (Tar.members s).2 = true := by
  obtain ⟨fuel, hmembers⟩ := h'.members hbytes
  rw [hmembers]
  by_cases hsmall : IsSmall size
  · exact Tar.isBroken_of_cut (next_eq_header_iff.mpr ⟨rfl, hopens, hsmall⟩) hcut fuel
  · rw [Tar.membersFrom, hopens.next rfl, if_pos (Nat.le_of_not_lt hsmall)]

/-- What is read of sections is read of the first of them, and then of the others. -/
theorem reads_append_iff {ys : List Section} : Reads a (xs ++ ys) b ms ↔
    ∃ c ms₁ ms₂, Reads a xs c ms₁ ∧ Reads c ys b ms₂ ∧ ms = ms₁ ++ ms₂ := by
  induction xs generalizing a ms with
  | nil =>
    constructor
    · intro h
      exact ⟨a, [], ms, .done a, h, rfl⟩
    · rintro ⟨c, ms₁, ms₂, h₁, h₂, rfl⟩
      cases h₁
      exact h₂
  -- what is announced is carried along in the state of the reader
  | cons x xs ih =>
    constructor
    · intro h
      cases h with
      | announced whole known tells rest =>
        obtain ⟨c, ms₁, ms₂, h₁, h₂, rfl⟩ := ih.mp rest
        exact ⟨c, ms₁, ms₂, .announced whole known tells h₁, h₂, rfl⟩
      | member whole plain full rest =>
        obtain ⟨c, ms₁, ms₂, h₁, h₂, rfl⟩ := ih.mp rest
        exact ⟨c, _, ms₂, .member whole plain full h₁, h₂, rfl⟩
    · rintro ⟨c, ms₁, ms₂, h₁, h₂, rfl⟩
      cases h₁ with
      | announced whole known tells rest =>
        exact .announced whole known tells (ih.mpr ⟨c, _, _, rest, h₂, rfl⟩)
      | member whole plain full rest =>
        exact .member whole plain full (ih.mpr ⟨c, _, _, rest, h₂, rfl⟩)

end PlaneRestore.Tar
