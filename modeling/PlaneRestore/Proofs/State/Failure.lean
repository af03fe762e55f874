import PlaneRestore.Archive
import PlaneRestore.Import.Run
import PlaneRestore.Proofs.ImportError
import PlaneRestore.Proofs.Outcome
/-!
How an exported state fails to be read.

Whatever is asked of an exported state, the errors are plain: `readGroup_fails`, `itemsOf_fails` and
`exportMeta_fails`. Only an archive may, besides that, not be read to its end because the run is
cancelled. `ExportedState.extractUntil` reads an archive while the run may be cancelled at any time;
`extractUntil_fails` says with which errors it fails, and `extractUntil_eq_cancelled_iff` when it
fails as cancelled.
-/

namespace PlaneRestore

open ImportError (IsPlain)

namespace ExportedState

variable (s : ExportedState)

theorem parsePath_fails (path : String) : FailsWith IsPlain (parsePath path) := by
  rw [parsePath]
  split
  · exact .ok _
  · exact .error ⟨rfl, rfl⟩

/-! ### Adding entries -/

theorem missing_fails (dirs : List Path) : FailsWith IsPlain (s.missing dirs) := by
  induction dirs with
  | nil => exact .ok []
  | cons d above ih =>
    rw [missing]
    split
    · exact .ok []
    · exact .error ⟨rfl, rfl⟩
    · exact ih.bind fun dirs => .ok _

theorem add_fails (p : Path) (e : Entry) : FailsWith IsPlain (s.add p e) :=
  (s.missing_fails _).bind fun _ => .ok _

theorem addDirectory_fails (path : String) (mode : Nat) :
    FailsWith IsPlain (s.addDirectory path mode) := by
  refine (parsePath_fails path).bind fun p => ?_
  split
  · exact .ok s
  · split
    · exact .error ⟨rfl, rfl⟩
    · exact s.add_fails p _

theorem addFile_fails (path : String) (contents : List UInt8) (mode : Nat) :
    FailsWith IsPlain (s.addFile path contents mode) := by
  refine (parsePath_fails path).bind fun p => ?_
  split
  · exact .error ⟨rfl, rfl⟩
  · split
    · exact .error ⟨rfl, rfl⟩
    · exact s.add_fails p _

/-! ### Archives -/

theorem addMember_fails (path : String) (m : Tar.Member) :
    FailsWith IsPlain (addMember path s m) := by
  rw [addMember]
  split
  · exact .error ⟨rfl, rfl⟩
  · split
    · exact s.addDirectory_fails _ _
    · split
      · exact s.addFile_fails _ _ _
      · split
        · exact .error ⟨rfl, rfl⟩
        · exact .error ⟨rfl, rfl⟩
    · exact .ok s
    · exact .error ⟨rfl, rfl⟩

/-- Takes in the members of an archive, of which the first is number `i`. Before each of them, and
before what is broken, it is asked whether the run is cancelled by then. -/
def membersUntil (path : String) (isCancelled : Nat → Bool) (isBroken : Bool) :
    Nat → ExportedState → List Tar.Member → Except ImportError ExportedState
  | i, s, [] =>
    if isBroken then
      if isCancelled i then throw .cancelled else throw (.archiveRead path)
    else return s
  | i, s, m :: members =>
    if isCancelled i then throw .cancelled
    else do membersUntil path isCancelled isBroken (i + 1) (← addMember path s m) members

/-- Reads the archive file at a path, unless the run is cancelled in the meantime. -/
def extractUntil (path : String) (source : SourceFile) (isCancelled : Nat → Bool) :
    Except ImportError ExportedState :=
  match source with
  | .closed reason => throw (.archiveOpen path reason)
  | .directory => throw (.archiveRead path)
  | .file bytes =>
    if !Gzip.magic.isPrefixOf bytes then throw (.decompress path)
    else
      let (members, isBroken) := Tar.members (Gzip.Stream.ofGzip bytes)
      membersUntil path isCancelled isBroken 0 empty members

variable {path : String} {isBroken : Bool} {members : List Tar.Member}

theorem membersUntil_never (i : Nat) :
    membersUntil path (fun _ => false) isBroken i s members = do
      let s ← members.foldlM (addMember path) s
      if isBroken then throw (.archiveRead path) else return s := by
  induction members generalizing i s with
  | nil => rfl
  | cons m members ih =>
    rw [membersUntil, List.foldlM_cons, bind_assoc]
    exact bind_congr fun s' => ih s' (i + 1)

/-- If the run is not cancelled while the archive is read, all depends on whether it was before. -/
theorem extractUntil_const (path : String) (source : SourceFile) (isCancelled : Bool) :
    extractUntil path source (fun _ => isCancelled) = extract path source isCancelled := by
  cases source with
  | closed reason => rfl
  | directory => rfl
  | file bytes =>
    rw [extractUntil, extract]
    refine ite_congr rfl (fun _ => rfl) fun _ => ?_
    generalize Tar.members (Gzip.Stream.ofGzip bytes) = found
    obtain ⟨members, isBroken⟩ := found
    cases isCancelled with
    | false => exact membersUntil_never empty 0
    | true =>
      cases members with
      | nil => cases isBroken <;> rfl
      | cons m members => cases isBroken <;> rfl

theorem membersUntil_fails (isCancelled : Nat → Bool) (i : Nat) :
    FailsWith (fun e => e = .cancelled ∨ e.IsPlain)
      (membersUntil path isCancelled isBroken i s members) := by
  induction members generalizing i s with
  | nil =>
    rw [membersUntil]
    split
    · split
      · exact .error (.inl rfl)
      · exact .error (.inr ⟨rfl, rfl⟩)
    · exact .ok s
  | cons m members ih =>
    rw [membersUntil]
    split
    · exact .error (.inl rfl)
    · exact ((s.addMember_fails path m).mono fun e he => .inr he).bind fun s' => ih s' (i + 1)

/-- An archive is not read to its end because of what is in it, or because the run is cancelled. -/
theorem extractUntil_fails (path : String) (source : SourceFile) (isCancelled : Nat → Bool) :
    FailsWith (fun e => e = .cancelled ∨ e.IsPlain) (extractUntil path source isCancelled) := by
  cases source with
  | closed reason => exact .error (.inr ⟨rfl, rfl⟩)
  | directory => exact .error (.inr ⟨rfl, rfl⟩)
  | file bytes =>
    rw [extractUntil]
    split
    · exact .error (.inr ⟨rfl, rfl⟩)
    · exact membersUntil_fails empty isCancelled 0

theorem membersUntil_nil_eq_cancelled_iff {isCancelled : Nat → Bool} {i : Nat} :
    membersUntil path isCancelled isBroken i s [] = .error .cancelled ↔
      isBroken = true ∧ isCancelled i = true := by
  rw [membersUntil]
  split
  · next hbroken =>
    split
    · next hcancelled => exact iff_of_true rfl ⟨hbroken, hcancelled⟩
    · next hgoes => exact iff_of_false nofun fun h => hgoes h.2
  · next hwhole => exact iff_of_false nofun fun h => hwhole h.1

/-- The run is cancelled before a member is taken in, or later. -/
theorem membersUntil_cons_eq_cancelled_iff {isCancelled : Nat → Bool} {i : Nat} {m : Tar.Member} :
    membersUntil path isCancelled isBroken i s (m :: members) = .error .cancelled ↔
      isCancelled i = true ∨ ∃ s₁, addMember path s m = .ok s₁ ∧
        membersUntil path isCancelled isBroken (i + 1) s₁ members = .error .cancelled := by
  rw [membersUntil]
  split
  · next hcancelled => exact iff_of_true rfl (.inl hcancelled)
  · next hgoes =>
    rw [or_iff_right hgoes]
    cases hadd : addMember path s m with
    | error e =>
      -- what is wrong with a member is no cancellation
      refine iff_of_false ?_ (fun ⟨_, h, _⟩ => nomatch h)
      rintro ⟨⟩
      exact (s.addMember_fails path m _ hadd).ne_cancelled rfl
    | ok s₁ =>
      refine ⟨fun h => ⟨s₁, rfl, h⟩, ?_⟩
      rintro ⟨_, ⟨⟩, h⟩
      exact h

/-- Members are not taken in to the end if the run turns out to be cancelled after some of them. -/
theorem membersUntil_eq_cancelled_iff {isCancelled : Nat → Bool} {i : Nat} :
    membersUntil path isCancelled isBroken i s members = .error .cancelled ↔
      ∃ k < members.length + isBroken.toNat, isCancelled (i + k) = true ∧
        ∃ s', (members.take k).foldlM (addMember path) s = .ok s' := by
  induction members generalizing i s with
  | nil =>
    rw [membersUntil_nil_eq_cancelled_iff]
    constructor
    · rintro ⟨rfl, hcancelled⟩
      exact ⟨0, Nat.one_pos, hcancelled, s, rfl⟩
    · rintro ⟨k, hk, hcancelled, -⟩
      cases isBroken with
      | false => cases hk
      | true =>
        obtain rfl : k = 0 := Nat.lt_one_iff.mp hk
        exact ⟨rfl, hcancelled⟩
  | cons m members ih =>
    -- what is taken in after the first member is taken in from where that leads
    have htaken : ∀ k s', ((m :: members).take (k + 1)).foldlM (addMember path) s = .ok s' ↔
        ∃ s₁, addMember path s m = .ok s₁ ∧
          (members.take k).foldlM (addMember path) s₁ = .ok s' := by
      intro k s'
      rw [List.take_succ_cons, List.foldlM_cons]
      exact bind_eq_ok_iff
    rw [membersUntil_cons_eq_cancelled_iff, List.length_cons]
    constructor
    · rintro (hcancelled | ⟨s₁, hadd, hlater⟩)
      · exact ⟨0, by omega, hcancelled, s, rfl⟩
      · obtain ⟨k, hk, hcancelled, s', hs'⟩ := (ih s₁).mp hlater
        rw [Nat.add_right_comm] at hcancelled
        exact ⟨k + 1, by omega, hcancelled, s', (htaken k s').mpr ⟨s₁, hadd, hs'⟩⟩
    · rintro ⟨_ | k, hk, hcancelled, s', hs'⟩
      · exact .inl hcancelled
      · obtain ⟨s₁, hadd, hs'⟩ := (htaken k s').mp hs'
        rw [← Nat.add_assoc, Nat.add_right_comm] at hcancelled
        exact .inr ⟨s₁, hadd, (ih s₁).mpr ⟨k, by omega, hcancelled, s', hs'⟩⟩

/-- Who reads an archive file comes to ask after `k` members whether the run is cancelled: there is
still something in the archive, and what came before has been taken in. -/
def AsksAfter (path : String) (source : SourceFile) (k : Nat) : Prop :=
  match source with
  | .closed _ | .directory => False
  | .file bytes =>
    Gzip.magic.isPrefixOf bytes = true ∧
      let (members, isBroken) := Tar.members (Gzip.Stream.ofGzip bytes)
      k < members.length + isBroken.toNat ∧ ∃ s, ofMembers path (members.take k) = .ok s

/-- An archive is not read to its end as the run is cancelled if, and only if, this is the answer at
some time at which it is asked. -/
theorem extractUntil_eq_cancelled_iff {source : SourceFile} {isCancelled : Nat → Bool} :
    extractUntil path source isCancelled = .error .cancelled ↔
      ∃ k, AsksAfter path source k ∧ isCancelled k = true := by
  cases source with
  | closed reason | directory => exact ⟨nofun, fun ⟨_, hasked, _⟩ => hasked.elim⟩
  | file bytes =>
    rw [extractUntil]
    split
    · next hmagic =>
      refine ⟨nofun, fun ⟨_, ⟨hstart, _⟩, _⟩ => ?_⟩
      rw [hstart] at hmagic
      cases hmagic
    · next hmagic =>
      have hstart : Gzip.magic.isPrefixOf bytes = true := by simpa using hmagic
      -- counting from the first member, the times are the same
      refine (membersUntil_eq_cancelled_iff _).trans (exists_congr fun k => ?_)
      rw [Nat.zero_add, AsksAfter]
      exact ⟨fun ⟨hk, hcancelled, htaken⟩ => ⟨⟨hstart, hk, htaken⟩, hcancelled⟩,
        fun ⟨⟨_, hk, htaken⟩, hcancelled⟩ => ⟨hk, hcancelled, htaken⟩⟩

/-! ### Looking at entries -/

theorem contentsOf_fails (path : String) : FailsWith IsPlain (s.contentsOf path) := by
  refine (parsePath_fails path).bind fun p => ?_
  split
  · exact .ok _
  · exact .error ⟨rfl, rfl⟩
  · exact .error ⟨rfl, rfl⟩

theorem itemsOf_fails (path : String) : FailsWith IsPlain (s.itemsOf path) := by
  refine (parsePath_fails path).bind fun p => ?_
  dsimp only
  split
  · exact .ok _
  · split
    · exact .ok _
    · exact .error ⟨rfl, rfl⟩
    · exact .error ⟨rfl, rfl⟩

theorem readManifest_fails (group : String) (item : Item) :
    FailsWith IsPlain (s.readManifest group item) := by
  rw [readManifest]
  split
  · exact .error ⟨rfl, rfl⟩
  · refine (s.contentsOf_fails _).bind fun bytes => ?_
    split
    · exact .ok _
    · exact .error ⟨rfl, rfl⟩

theorem readGroup_fails (group : String) : FailsWith IsPlain (s.readGroup group) := by
  rw [readGroup]
  split
  · exact .ok []
  · exact (s.itemsOf_fails group).bind fun items => .mapM (s.readManifest_fails group) items

theorem exportMeta_fails : FailsWith IsPlain s.exportMeta := by
  refine (s.contentsOf_fails _).bind fun bytes => ?_
  split
  · exact .ok _
  · exact .error ⟨rfl, rfl⟩

end ExportedState

theorem Work.remainingGroups_fails (items : List ExportedState.Item) :
    FailsWith IsPlain (remainingGroups items) := by
  rw [remainingGroups]
  split
  · exact .error ⟨rfl, rfl⟩
  · exact .ok _

end PlaneRestore
