import PlaneRestore.Url.Host
/-!
Addresses of resources in the web.

* `Url.parse?` reads an address with the scheme `http` or `https`, and brings it into its normal
  form: the segments `.` and `..` are followed, and what may not stand for itself is encoded.
* `Url.render` writes an address, without what is for the server's eyes only.
* `Url.addQuery` adds a parameter.
-/

namespace PlaneRestore

/-- The address of a resource in the web. -/
structure Url where
  isSecure : Bool
  /-- A user and a password, as they are written. -/
  user : Option (String × String)
  host : String
  /-- The port, unless it is the usual one. -/
  port : Option Nat
  segments : List String
  query : Option String
  fragment : Option String
deriving DecidableEq, Repr, Inhabited

namespace Url

/-- Both slashes mean the same. -/
def isSlash (c : Char) : Bool := c = '/' || c = '\\'

/-- Whether a character ends the part with the host. -/
def endsAuthority (c : Char) : Bool := isSlash c || c = '?' || c = '#'

/-- Drops spaces and control characters at both ends, and line breaks and tabs everywhere. -/
def clean (cs : List Char) : List Char :=
  let isBlank (c : Char) : Bool := c.toNat ≤ 0x20
  let cs := (cs.dropWhile isBlank).reverse.dropWhile isBlank
  cs.reverse.filter fun c => c ≠ '\t' && c ≠ '\n' && c ≠ '\r'

/-- Drops a word at the front, in any case. -/
def dropWord? (word : String) (cs : List Char) : Option (List Char) :=
  let n := word.length
  if (cs.take n).map Char.toLower = word.toList then some (cs.drop n) else none

/-- Cuts at the last separator. -/
def splitLast (sep : Char) (cs : List Char) : Option (List Char × List Char) :=
  (Text.splitFirst sep cs.reverse).map fun (r, l) => (l.reverse, r.reverse)

/-- A user, and a password after a colon. -/
def userOf (cs : List Char) : Option (String × String) :=
  if cs.isEmpty then none
  else
    match Text.splitFirst ':' cs with
    | some (name, password) => some (String.ofList name, String.ofList password)
    | none => some (String.ofList cs, "")

/-- The port after a host. None at all, or the usual one, is no port. -/
def port? (usual : Nat) (cs : List Char) : Option (Option Nat) :=
  match cs with
  | [] => some none
  | ':' :: [] => some none
  | ':' :: digits => do
    if !digits.all Char.isDigit then none
    let n ← Host.digits? 10 digits
    if 65535 < n then none
    else some (if n = usual then none else some n)
  | _ => none

/-- Cuts the port off a host. A colon in brackets belongs to the host. -/
def splitPort (cs : List Char) : List Char × List Char :=
  match cs with
  | '[' :: _ =>
    let host := cs.takeWhile (· ≠ ']')
    (cs.take (host.length + 1), cs.drop (host.length + 1))
  | _ => (cs.takeWhile (· ≠ ':'), cs.dropWhile (· ≠ ':'))

/-- A segment that stands for the place where it is. -/
def isHere (segment : List Char) : Bool :=
  [".", "%2e"].contains (String.ofList (segment.map Char.toLower))

/-- A segment that stands for the place above. -/
def isAbove (segment : List Char) : Bool :=
  ["..", ".%2e", "%2e.", "%2e%2e"].contains (String.ofList (segment.map Char.toLower))

/-- The pieces of a path between its slashes. -/
def pieces (cs : List Char) : List (List Char) :=
  Text.splitAll '/' (cs.map fun c => if c = '\\' then '/' else c)

/-- Follows the pieces of a path; a path that ends with a step to another place ends with a
slash. -/
def follow : List String → List (List Char) → List String
  | path, [] => path
  | path, piece :: pieces =>
    let path := if isAbove piece then path.dropLast else path
    if isHere piece || isAbove piece then
      -- at the end, such a step leads to a directory
      if pieces.isEmpty then path ++ [""] else follow path pieces
    else follow (path ++ [String.ofList (Percent.encode Percent.inPathSet piece)]) pieces

/-- The segments of a path, which begins with a slash if it is not empty. -/
def segmentsOf (cs : List Char) : List String :=
  match cs with
  | [] => [""]
  | _ :: rest => follow [] (pieces rest)

/-- What comes after the host: a path, a query after a question mark, a fragment after a hash. -/
def splitTail (cs : List Char) : List Char × Option (List Char) × Option (List Char) :=
  let (front, fragment) :=
    match Text.splitFirst '#' cs with
    | some (l, r) => (l, some r)
    | none => (cs, none)
  match Text.splitFirst '?' front with
  | some (l, r) => (l, some r, fragment)
  | none => (front, none, fragment)

/-- Reads an address with the scheme `http` or `https`. -/
def parse? (text : String) : Option Url := do
  let cs := clean text.toList
  let (isSecure, rest) ←
    match dropWord? "https:" cs, dropWord? "http:" cs with
    | some rest, _ => some (true, rest)
    | none, some rest => some (false, rest)
    | none, none => none
  -- there may be any number of slashes, of either kind, before the authority
  let rest := rest.dropWhile isSlash
  let authority := rest.takeWhile (!endsAuthority ·)
  let (user, place) :=
    match splitLast '@' authority with
    | some (user, place) => (userOf user, place)
    | none => (none, authority)
  let (host, port) := splitPort place
  let (path, query, fragment) := splitTail (rest.dropWhile (!endsAuthority ·))
  return {
    isSecure, user
    host := ← Host.normalize? host
    port := ← port? (if isSecure then 443 else 80) port
    segments := segmentsOf path
    query := query.map fun cs => String.ofList (Percent.encode Percent.inQuerySet cs)
    fragment := fragment.map fun cs => String.ofList (Percent.encode Percent.inFragmentSet cs) }

/-- Path and query, as they are sent to the server. -/
def target (u : Url) : String :=
  "/" ++ Text.joinWith "/" u.segments ++ (u.query.map ("?" ++ ·)).getD ""

/-- The address, without user and password. -/
def render (u : Url) : String :=
  (if u.isSecure then "https" else "http") ++ "://" ++ u.host
    ++ (u.port.map fun n => ":" ++ toString n).getD "" ++ u.target
    ++ (u.fragment.map ("#" ++ ·)).getD ""

/-- Adds a parameter. -/
def addQuery (name value : String) (u : Url) : Url :=
  let pair := String.ofList (Percent.encodeForm name.toList) ++ "="
    ++ String.ofList (Percent.encodeForm value.toList)
  { u with query :=
      match u.query with
      | none => some pair
      | some "" => some pair
      | some q => some (q ++ "&" ++ pair) }

end Url

end PlaneRestore
