import PlaneRestore.ClientError
/-!
What can go wrong while an exported state is read and restored.

* An error of a part is wrapped in the group, file, category or phase in which it arose; a
  cancellation never is.
* `ImportError.message` words the whole chain.
-/

namespace PlaneRestore

/-- What can go wrong while an exported state is read and restored. -/
inductive ImportError where
  | archiveOpen (path reason : String)
  | decompress (path : String)
  | archiveRead (path : String)
  | archiveEntryRead (path entry : String)
  | unsupportedEntry (entry type : String)
  | invalidPath (path : String)
  | pathConflict (path : String)
  | notFound (path : String)
  | notAFile (path : String)
  | notADirectory (path : String)
  | unexpectedRootFile (name : String)
  | metadata (cause : Yaml.Error)
  | manifest (file : String) (cause : ClientError)
  | apply (resource : String) (cause : ClientError)
  | manifestFile (file : String) (cause : ImportError)
  | importGroup (group : String) (cause : ImportError)
  | waitTimeout (kind conditions : String)
  | category (name : String) (cause : ImportError)
  | phase (context : String) (cause : ImportError)
  | client (cause : ClientError)
  | cancelled
  /-- A task stopped short. -/
  | internal (task : String)
deriving DecidableEq, Repr

namespace ImportError

/-- The error in words. -/
def message (w : Wording) : ImportError → String
  | archiveOpen path reason => "cannot open archive " ++ Text.quote path ++ ": " ++ reason
  | decompress path =>
    "cannot create gzip reader for " ++ Text.quote path ++ ": input is not gzip compressed"
  | archiveRead path => "cannot read archive " ++ Text.quote path ++ ": " ++ w.brokenArchive
  | archiveEntryRead path entry =>
    "cannot read " ++ Text.quote entry ++ " from archive " ++ Text.quote path ++ ": "
      ++ w.brokenArchive
  | unsupportedEntry entry type =>
    "unsupported entry " ++ Text.quote entry ++ " of type " ++ type ++ " in archive"
  | invalidPath path => "invalid path " ++ Text.quote path ++ " in exported state"
  | pathConflict path =>
    Text.quote path ++ " already exists with a different type in exported state"
  | notFound path => Text.quote path ++ " not found in exported state"
  | notAFile path => Text.quote path ++ " is not a regular file"
  | notADirectory path => Text.quote path ++ " is not a directory"
  | unexpectedRootFile name =>
    "unexpected file " ++ Text.quote name ++ " in root directory of exported state"
  | metadata cause => "cannot unmarshal export metadata: " ++ cause.message w
  | manifest file cause => "cannot read resource " ++ Text.quote file ++ ": " ++ cause.message w
  | apply resource cause => "cannot apply " ++ resource ++ ": " ++ cause.message w
  | manifestFile file cause => Text.quote file ++ ": " ++ message w cause
  | importGroup group cause =>
    "cannot import " ++ Text.quote group ++ " resources: " ++ message w cause
  | waitTimeout kind conditions =>
    "timeout waiting for conditions " ++ Text.quote conditions ++ " to be satisfied for all "
      ++ Text.quote kind
  | category name cause => "cannot modify " ++ Text.quote name ++ " resources: " ++ message w cause
  | phase context cause => context ++ ": " ++ message w cause
  | client cause => cause.message w
  | cancelled => "operation cancelled"
  | internal task => "Internal error: " ++ task ++ " task failed: " ++ w.stoppedTask

/-- Wraps any error but a cancellation. -/
def wrap (f : ImportError → ImportError) : ImportError → ImportError
  | cancelled => cancelled
  | e => f e

def inGroup (group : String) : ImportError → ImportError := wrap (importGroup group)

def inFile (file : String) : ImportError → ImportError := wrap (manifestFile file)

def inCategory (name : String) : ImportError → ImportError := wrap (category name)

def inPhase (context : String) : ImportError → ImportError := wrap (phase context)

end ImportError

end PlaneRestore
