import PlaneRestore.Proofs.Gzip.Stored
import PlaneRestore.Proofs.State.Failure
import PlaneRestore.Proofs.Tar.Section
import PlaneRestore.Tar.Writer
/-!
No file of an archive is taken for whole that is not.

`ExportedState.IsGiven`: the data of a section is given to the exported state, after what the
sections before it add. By `ExportedState.accepts_whole_files` this becomes of every file of an
archive that is read to its end, and an archive that breaks off in the midst of a section never is.
-/

namespace PlaneRestore.ExportedState

open Tar (Section Opens Reads)

variable {path : String} {s s' : ExportedState} {members : List Tar.Member}
  {bytes : List UInt8} {isCancelled : Nat → Bool} {isBroken : Bool}

/-! ### What is accepted -/

/-- Members that are taken in, whatever was cancelled meanwhile, are not broken. -/
theorem of_membersUntil {i : Nat}
    (h : membersUntil path isCancelled isBroken i s members = .ok s') :
    isBroken = false ∧ members.foldlM (addMember path) s = .ok s' := by
  induction members generalizing i s with
  | nil =>
    rw [membersUntil] at h
    -- at the end it is only asked about a cancellation if the archive is broken
    split at h
    · split at h <;> cases h
    · next hwhole => exact ⟨by simpa using hwhole, h⟩
  | cons m members ih =>
    rw [membersUntil] at h
    split at h
    · cases h
    · obtain ⟨s₁, hadd, hrest⟩ := bind_eq_ok_iff.mp h
      obtain ⟨hwhole, hmembers⟩ := ih hrest
      refine ⟨hwhole, ?_⟩
      rw [List.foldlM_cons]
      exact bind_eq_ok_iff.mpr ⟨s₁, hadd, hmembers⟩

/-- An archive is accepted if it is not broken and its members are taken in. -/
theorem extract_eq_ok_iff : extract path (.file bytes) false = .ok s ↔
    Gzip.magic.isPrefixOf bytes = true ∧ ∃ members,
      Tar.members (Gzip.Stream.ofGzip bytes) = (members, false) ∧
        ofMembers path members = .ok s := by
  rw [extract]
  cases Gzip.magic.isPrefixOf bytes with
  | false =>
    constructor
    · intro h
      cases h
    · rintro ⟨h, -⟩
      cases h
  | true =>
    -- a broken archive fails after its members have been taken in
    obtain ⟨members, isBroken⟩ := Tar.members (Gzip.Stream.ofGzip bytes)
    simp only [Bool.not_true, Bool.false_eq_true, if_false, Bool.false_and, true_and,
      Prod.mk.injEq, exists_eq_left', bind_eq_ok_iff, and_assoc]
    cases isBroken with
    | true => simp [throw, throwThe, MonadExceptOf.throw]
    | false => simp [pure, Except.pure]

theorem extract_of_extractUntil (h : extractUntil path (.file bytes) isCancelled = .ok s) :
    extract path (.file bytes) false = .ok s := by
  rw [extractUntil] at h
  split at h
  · cases h
  · next hmagic =>
    obtain ⟨hwhole, hmembers⟩ := of_membersUntil h
    exact extract_eq_ok_iff.mpr ⟨by simpa using hmagic, _, Prod.ext rfl hwhole, hmembers⟩

/-- A member that is taken in is taken in after those before it. -/
theorem exists_addMember {before after : List Tar.Member} {m : Tar.Member}
    (h : ofMembers path (before ++ m :: after) = .ok s) :
    ∃ s₁ s₂, ofMembers path before = .ok s₁ ∧ addMember path s₁ m = .ok s₂ := by
  rw [ofMembers, List.foldlM_append] at h
  obtain ⟨s₁, hbefore, h⟩ := bind_eq_ok_iff.mp h
  rw [List.foldlM_cons] at h
  obtain ⟨s₂, hadd, -⟩ := bind_eq_ok_iff.mp h
  exact ⟨s₁, s₂, hbefore, hadd⟩

/-- There is no place for a sparse member. -/
theorem kind_ne_sparse_of_ofMembers (h : ofMembers path members = .ok s) :
    ∀ m ∈ members, m.kind ≠ .sparse := by
  intro m hm hkind
  obtain ⟨before, after, rfl⟩ := List.append_of_mem hm
  obtain ⟨s₁, s₂, -, hadd⟩ := exists_addMember h
  rw [addMember, hkind] at hadd
  split at hadd <;> cases hadd

/-- An archive is accepted if it holds whole sections, and the members that they make up are
taken in. -/
theorem extract_eq_ok_iff_holds : extract path (.file bytes) false = .ok s ↔
    Gzip.magic.isPrefixOf bytes = true ∧ ∃ xs members,
      Tar.Holds (Gzip.Stream.ofGzip bytes) xs members ∧ ofMembers path members = .ok s := by
  rw [extract_eq_ok_iff]
  refine and_congr_right fun _ => ?_
  constructor
  · rintro ⟨members, hread, hmembers⟩
    obtain ⟨xs, hholds⟩ := Tar.exists_holds hread (kind_ne_sparse_of_ofMembers hmembers)
    exact ⟨xs, members, hholds, hmembers⟩
  · rintro ⟨xs, members, hholds, hmembers⟩
    exact ⟨members, hholds.members, hmembers⟩

/-! ### What is given to the exported state -/

/-- The data of a section, all that its header or the records for it tell the size of, is given to
the exported state with all that the sections before it add. -/
def IsGiven (path : String) (before : List Section) (x : Section) : Prop :=
  ∃ a members mode s₁ s₂, Reads .nothing before a members ∧
    a.sizeOf? x.header = some x.data.length ∧ x.header.mode? = some mode ∧
    ofMembers path members = .ok s₁ ∧
    s₁.addFile (Text.Utf8.decodeLossy (a.nameOf x.header)) x.data mode = .ok s₂

theorem isGiven_of_holds {stream : Stream} {before after : List Section} {x : Section}
    (h : Tar.Holds stream (before ++ x :: after) members)
    (hmembers : ofMembers path members = .ok s) (hkind : x.header.kind = .file) :
    IsGiven path before x := by
  obtain ⟨a, ms₁, ms₂, hbefore, hx, rfl⟩ := Tar.reads_append_iff.mp h.1
  cases hx with
  -- what is announced is no file
  | announced whole known tells rest =>
    cases tells with
    | longName kind first | longLink kind first | extension kind first =>
      rw [hkind] at kind
      cases kind
  | member whole plain full rest =>
    obtain ⟨s₁, s₂, htaken, hadd⟩ := exists_addMember hmembers
    rw [addMember] at hadd
    simp only [Section.member, hkind, if_true] at hadd
    split at hadd
    · cases hadd
    · next mode hmode =>
      exact ⟨a, ms₁, mode, s₁, s₂, hbefore, whole.opens.recorded, hmode, htaken, hadd⟩

/-- Files of an archive are accepted as a whole only. -/
structure AcceptsWholeFiles (path : String) (bytes : List UInt8) : Prop where
  /-- An archive that is accepted, whatever is cancelled meanwhile, consists of whole sections, and
  the data of all files is given to the exported state. -/
  whole : ∀ isCancelled s, extractUntil path (.file bytes) isCancelled = .ok s →
    ∃ xs members, Tar.Holds (Gzip.Stream.ofGzip bytes) xs members ∧ ofMembers path members = .ok s ∧
      ∀ before x after, xs = before ++ x :: after → x.header.kind = .file → IsGiven path before x
  /-- An archive that ends in the midst of the data or the padding of a section is not accepted. -/
  cut : ∀ xs a members h size rest, Reads .nothing xs a members → Opens a h size →
    (Gzip.Stream.ofGzip bytes).bytes = xs.flatMap Section.bytes ++ (h ++ rest) →
    rest.length < Tar.padded size →
      ∀ isCancelled s, extractUntil path (.file bytes) isCancelled ≠ .ok s
  /-- Nothing else is asked of an archive. -/
  accepted : ∀ xs members s, Gzip.magic.isPrefixOf bytes = true →
    Tar.Holds (Gzip.Stream.ofGzip bytes) xs members → ofMembers path members = .ok s →
      extract path (.file bytes) false = .ok s

/-- **No file is taken for whole that is not.** The data of a member is not measured when it is
read; but the member after it is looked for where all of it has to end, and so an archive is only
accepted if all that its headers tell the size of is there. -/
theorem accepts_whole_files (path : String) (bytes : List UInt8) :
    AcceptsWholeFiles path bytes where
  whole isCancelled s h := by
    obtain ⟨-, xs, members, hholds, hmembers⟩ :=
      extract_eq_ok_iff_holds.mp (extract_of_extractUntil h)
    refine ⟨xs, members, hholds, hmembers, fun before x after hsplit hkind => ?_⟩
    subst hsplit
    exact isGiven_of_holds hholds hmembers hkind
  cut xs a members h size rest hreads hopens hbytes hcut isCancelled s hok := by
    obtain ⟨-, members', hread, -⟩ := extract_eq_ok_iff.mp (extract_of_extractUntil hok)
    have hbroken := hreads.isBroken_of_cut hopens hbytes hcut
    rw [hread] at hbroken
    cases hbroken
  accepted xs members s hmagic hholds hmembers :=
    extract_eq_ok_iff_holds.mpr ⟨hmagic, xs, members, hholds, hmembers⟩

namespace Sample

/-- An archive with one file. -/
def archive : List UInt8 :=
  Tar.write [⟨Text.Utf8.encode "namespaces.yaml", '0'.toNat.toUInt8, 0o644, [0x6E, 0x73, 0x0A]⟩]

/-- What is read of it. -/
def member : Tar.Member :=
  ⟨"namespaces.yaml", .file, some 0o644, 3, [0x6E, 0x73, 0x0A], true⟩

end Sample

/-- The archive is accepted; without the last byte of its file it is not. -/
theorem accepts_whole_files_sample :
    (∃ xs members s, Tar.Holds ⟨Sample.archive, false⟩ xs members ∧
      ofMembers "export.tar.gz" members = .ok s ∧
      ∀ before x after, xs = before ++ x :: after → x.header.kind = .file →
        IsGiven "export.tar.gz" before x) ∧
    ∀ isCancelled s, extractUntil "export.tar.gz"
      (.file (Gzip.write (Sample.archive.take 514))) isCancelled ≠ .ok s := by
  have hread : Tar.members ⟨Sample.archive, false⟩ = ([Sample.member], false) := by
    decide +kernel
  have htaken : (ofMembers "export.tar.gz" [Sample.member]).toBool = true := by decide +kernel
  obtain ⟨s, hs⟩ : ∃ s, ofMembers "export.tar.gz" [Sample.member] = .ok s := by
    cases hmembers : ofMembers "export.tar.gz" [Sample.member] with
    | ok s => exact ⟨s, rfl⟩
    | error e =>
      rw [hmembers] at htaken
      cases htaken
  have hok : extract "export.tar.gz" (.file (Gzip.write Sample.archive)) false = .ok s := by
    rw [extract_eq_ok_iff, Gzip.Stream.ofGzip_write]
    exact ⟨rfl, _, hread, hs⟩
  constructor
  · rw [← extractUntil_const] at hok
    obtain ⟨xs, members, hholds, hmembers, hgiven⟩ :=
      (accepts_whole_files "export.tar.gz" (Gzip.write Sample.archive)).whole _ s hok
    rw [Gzip.Stream.ofGzip_write] at hholds
    exact ⟨xs, members, s, hholds, hmembers, hgiven⟩
  · have hopens : Opens .nothing (Sample.archive.take 512) 3 :=
      ⟨by decide +kernel, by decide +kernel, by decide +kernel, by decide +kernel⟩
    refine (accepts_whole_files "export.tar.gz" _).cut [] .nothing [] (Sample.archive.take 512) 3
      [0x6E, 0x73] (.done _) hopens ?_ (by decide)
    rw [Gzip.Stream.ofGzip_write]
    decide +kernel

end PlaneRestore.ExportedState
