import PlaneRestore.Text.Quoted
import PlaneRestore.Table
/-!
Reading the arguments of a command line.

* An `Argument` has a long name, and some have a letter, too. Its value follows after `=` or as the
  next word; `ValueKind.check` says which values there may be.
* `Grammar.read` reads words up to the name of a subcommand, if the grammar has any.
* `Given.addVariables` takes what is not given from the environment.
-/

namespace PlaneRestore

/-- What values an argument has. -/
inductive ValueKind where
  /-- An argument that is given or not. -/
  | flag
  | text
  | path
  /-- A natural number of at most 64 bits. -/
  | count
deriving DecidableEq, Repr, Inhabited

/-- An argument of a command. -/
structure Argument where
  name : String
  letter : Option Char
  kind : ValueKind
  /-- The variable of the environment that stands in for it. -/
  fallback : Option String
deriving DecidableEq, Repr, Inhabited

namespace Argument

/-- The name of the value, as it is shown. -/
def valueName (a : Argument) : String :=
  String.ofList (a.name.toList.map fun c => if c = '-' then '_' else c.toUpper)

/-- The argument as it is shown. -/
def display (a : Argument) : String :=
  "--" ++ a.name ++ (if a.kind = .flag then "" else " <" ++ a.valueName ++ ">")

end Argument

/-- What is wrong with a command line. -/
inductive UsageError where
  | unknownCommand (word : String)
  | missingCommand
  | unexpectedArgument (word : String)
  | unexpectedValue (argument : Argument) (value : String)
  | missingValue (argument : Argument)
  | repeated (argument : Argument)
  | invalidValue (argument : Argument) (value : String) (reason : Option String)
deriving DecidableEq, Repr, Inhabited

/-- The name of the program. -/
def programName : String := "cpstate"

/-- What is wrong, in one line. -/
def UsageError.message : UsageError → String
  | unknownCommand word => "unrecognized subcommand '" ++ word ++ "'"
  | missingCommand =>
    "'" ++ programName ++ "' requires a subcommand but one was not provided"
  | unexpectedArgument word => "unexpected argument '" ++ word ++ "' found"
  | unexpectedValue a value =>
    "unexpected value '" ++ value ++ "' for '" ++ a.display ++ "' found; no more were expected"
  | missingValue a => "a value is required for '" ++ a.display ++ "' but none was supplied"
  | repeated a => "the argument '" ++ a.display ++ "' cannot be used multiple times"
  | invalidValue a value reason =>
    "invalid value '" ++ value ++ "' for '" ++ a.display ++ "'"
      ++ (reason.map (": " ++ ·)).getD ""

/-- Why a command line is not run. -/
inductive Stop where
  | usage (error : UsageError)
  /-- The help text is asked for. -/
  | help
  /-- The help text is shown because nothing was given. -/
  | nothing
  | version
deriving DecidableEq, Repr, Inhabited

/-! ### Values -/

/-- A natural number of at most 64 bits in decimal digits, after an optional plus sign. -/
def count? (text : String) : Except String Nat :=
  let step (n : Nat) (c : Char) : Except String Nat :=
    if !c.isDigit then throw "invalid digit found in string"
    else
      let m := n * 10 + (c.toNat - '0'.toNat)
      if m < Nat.pow 2 64 then return m else throw "number too large to fit in target type"
  match text.toList with
  | [] => throw "cannot parse integer from empty string"
  | ['+'] => throw "invalid digit found in string"
  | '+' :: cs => cs.foldlM step 0
  | cs => cs.foldlM step 0

namespace ValueKind

/-- Checks a value. -/
def check (a : Argument) (value : String) : Except UsageError Unit :=
  match a.kind with
  | .text => return ()
  | .path => if value = "" then throw (.missingValue a) else return ()
  | .count =>
    match count? value with
    | .ok _ => return ()
    | .error reason => throw (.invalidValue a value (some reason))
  | .flag =>
    if value = "true" ∨ value = "false" then return ()
    else if value = "" then throw (.missingValue a)
    else throw (.invalidValue a value none)

end ValueKind

/-- The values that are given, by the names of their arguments. -/
abbrev Given : Type := List (String × String)

namespace Given

/-- Takes in a value. -/
def add (g : Given) (a : Argument) (value : String) : Except UsageError Given := do
  if Table.has a.name g then throw (.repeated a)
  else
    ValueKind.check a value
    return (a.name, value) :: g

/-- Takes what is not given from the environment. -/
def addVariables (environment : String → Option String) (as : List Argument) (g : Given) :
    Except UsageError Given :=
  as.foldlM (fun g a =>
    match Table.has a.name g, a.fallback.bind environment with
    | false, some value => g.add a value
    | _, _ => return g) g

def text? (g : Given) (name : String) : Option String := Table.get? name g

def flag (g : Given) (name : String) : Bool := g.text? name = some "true"

def count (g : Given) (name : String) (usual : Nat) : Nat :=
  match (g.text? name).map count? with
  | some (.ok n) => n
  | _ => usual

end Given

/-! ### Words -/

/-- What words a command takes. -/
structure Grammar where
  arguments : List Argument
  commands : List String
  /-- Whether it can tell its version. -/
  hasVersion : Bool
deriving Repr, Inhabited

/-- How far the words are read. -/
structure Reader where
  given : Given
  /-- The last argument, and its value if there was one. It is taken in when the next one comes. -/
  pending : Option (Argument × Option String)
  /-- Whether all words from here on are values. -/
  onlyValues : Bool
deriving Repr, Inhabited

namespace Reader

def start : Reader := ⟨[], none, false⟩

/-- Takes in the pending argument. -/
def settle (r : Reader) : Except Stop Reader :=
  match r.pending with
  | none => return r
  | some (a, none) => throw (.usage (.missingValue a))
  | some (a, some value) =>
    match r.given.add a value with
    | .ok given => return { r with given, pending := none }
    | .error e => throw (.usage e)

/-- Takes in an argument with its value at once. -/
def take (r : Reader) (a : Argument) (value : String) : Except Stop Reader := do
  let r ← r.settle
  { r with pending := some (a, some value) }.settle

/-- Takes in an argument whose value is the next word. -/
def expect (r : Reader) (a : Argument) : Except Stop Reader := do
  return { ← r.settle with pending := some (a, none) }

/-- Stops for another reason than a wrong word. -/
def stop (r : Reader) (s : Stop) : Except Stop Reader := do
  discard r.settle
  throw s

/-- Whether the next word is a value. -/
def awaitsValue (r : Reader) : Bool := r.pending.any (·.2.isNone)

end Reader

namespace Grammar

/-- The arguments that every command has. -/
def helpArgument : Argument := ⟨"help", some 'h', .flag, none⟩

def versionArgument : Argument := ⟨"version", some 'V', .flag, none⟩

/-- Cuts a word at its first equals sign. -/
def cutValue (word : List Char) : List Char × Option (List Char) :=
  match word.dropWhile (· ≠ '=') with
  | [] => (word, none)
  | _ :: value => (word.takeWhile (· ≠ '='), some value)

/-- The arguments that ask for a text instead of a run. -/
def asking (g : Grammar) : List (Argument × Stop) :=
  (helpArgument, .help) :: (if g.hasVersion then [(versionArgument, .version)] else [])

/-- Reads a word after two hyphens. -/
def readLong (g : Grammar) (r : Reader) (word : List Char) : Except Stop Reader :=
  let (name, value) := cutValue word
  let name := String.ofList name
  let value := value.map String.ofList
  match g.arguments.find? (·.name = name), g.asking.find? (·.1.name = name) with
  | some a, _ =>
    if a.kind = .flag then
      match value with
      | some v => throw (.usage (.unexpectedValue a v))
      | none => r.take a "true"
    else
      match value with
      | some v => r.take a v
      | none => r.expect a
  | none, some (a, s) =>
    match value with
    | some v => throw (.usage (.unexpectedValue a v))
    | none => r.stop s
  | none, none => throw (.usage (.unexpectedArgument ("--" ++ name)))

/-- Reads letters after a hyphen. -/
def readLetters (g : Grammar) (r : Reader) : List Char → Except Stop Reader
  | [] => return r
  | c :: rest =>
    match g.arguments.find? (·.letter = some c), g.asking.find? (·.1.letter = some c) with
    | some a, _ =>
      if a.kind = .flag then do g.readLetters (← r.take a "true") rest
      else
        match rest with
        | [] => r.expect a
        | '=' :: value => r.take a (String.ofList value)
        | value => r.take a (String.ofList value)
    | none, some (_, s) => r.stop s
    | none, none => throw (.usage (.unexpectedArgument ("-" ++ String.singleton c)))

/-- What is wrong with a word that is no argument. -/
def misplaced (g : Grammar) (r : Reader) (word : String) : UsageError :=
  if g.commands.isEmpty || (r.onlyValues && g.commands.contains word) then
    .unexpectedArgument word
  else .unknownCommand word

/-- Reads words up to the name of a subcommand, which comes with the words after it. -/
def read (g : Grammar) : Reader → List String → Except Stop (Reader × Option (String × List String))
  | r, [] => return (r, none)
  | r, word :: words => do
    if r.onlyValues then throw (.usage (g.misplaced r word))
    -- the word after an argument that awaits its value is no command, whatever it says
    else if !r.awaitsValue && g.commands.contains word then return (r, some (word, words))
    else
      match word.toList with
      | ['-', '-'] => g.read { r with onlyValues := true } words
      | '-' :: '-' :: rest => g.read (← g.readLong r rest) words
      | '-' :: c :: rest => g.read (← g.readLetters r (c :: rest)) words
      | _ =>
        -- a word without a hyphen, or a hyphen alone
        match r.pending with
        | some (a, none) => g.read { r with pending := some (a, some word) } words
        | _ => throw (.usage (g.misplaced r word))

end Grammar

end PlaneRestore
