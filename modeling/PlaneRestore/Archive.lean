import PlaneRestore.State.Tree
import PlaneRestore.Tar.Member
/-!
Archives of exported states.

* `ExportedState.ofMembers` takes in the members of an archive one after another.
* `ExportedState.extract` reads the archive file at a path.
-/

namespace PlaneRestore

/-- What is found at a path of the file system. -/
inductive SourceFile where
  /-- Something that cannot be opened. -/
  | closed (reason : String)
  | directory
  | file (bytes : List UInt8)
deriving Repr, Inhabited

/-- Nothing at all. -/
def SourceFile.absent : SourceFile := closed "No such file or directory (os error 2)"

namespace ExportedState

/-- Takes in a member of the archive at a path. -/
def addMember (path : String) (s : ExportedState) (m : Tar.Member) :
    Except ImportError ExportedState :=
  match m.mode? with
  | none => throw (.archiveRead path)
  | some mode =>
    match m.kind with
    | .directory => s.addDirectory m.name mode
    | .file =>
      if m.isReadable then s.addFile m.name m.data mode
      else if m.size ≤ Tar.memoryLimit then throw (.archiveEntryRead path m.name)
      else throw (.internal "archive extraction")
    | .globalExtension => return s
    | kind => throw (.unsupportedEntry m.name kind.describe)

/-- Takes in members one after another. -/
def ofMembers (path : String) (members : List Tar.Member) : Except ImportError ExportedState :=
  members.foldlM (addMember path) empty

/-- Reads the archive file at a path. An archive that holds anything is not read any further once
the run is cancelled. -/
def extract (path : String) (source : SourceFile) (isCancelled : Bool) :
    Except ImportError ExportedState :=
  match source with
  | .closed reason => throw (.archiveOpen path reason)
  | .directory => throw (.archiveRead path)
  | .file bytes =>
    if !Gzip.magic.isPrefixOf bytes then throw (.decompress path)
    else do
      let (members, isBroken) := Tar.members (Gzip.Stream.ofGzip bytes)
      -- an empty archive is at its end before anyone asks whether the run is cancelled
      if isCancelled && (isBroken || !members.isEmpty) then throw .cancelled
      else
        let s ← ofMembers path members
        if isBroken then throw (.archiveRead path) else return s

end ExportedState

end PlaneRestore
