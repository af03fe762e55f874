import PlaneRestore.Http
import PlaneRestore.Text.Blank
/-!
Requests and answers as they go over the wire, in version 1.1 of the protocol.

* `HttpRequest.toBytes` writes a request, which asks for the connection to be closed after it.
* `HttpResponse.ofBytes?` reads all that has come back when the connection is closed.
* `Wire.ofChunks?` puts a body together that was sent in chunks.
-/

namespace PlaneRestore

namespace Wire

/-- The end of a line. -/
def lineEnd : List UInt8 := [13, 10]

/-- Cuts at the end of the first line, which is dropped. -/
def cutLine? (bytes : List UInt8) : Option (List UInt8 × List UInt8) :=
  match bytes.dropWhile (· ≠ 10) with
  | [] => none
  | _ :: rest =>
    let line := bytes.takeWhile (· ≠ 10)
    some (if line.getLast? = some 13 then line.dropLast else line, rest)

theorem length_of_cutLine? {bytes line rest : List UInt8} (h : cutLine? bytes = some (line, rest)) :
    rest.length < bytes.length := by
  have shorter := (List.dropWhile_suffix (l := bytes) (· ≠ 10)).length_le
  unfold cutLine? at h
  split at h
  · cases h
  · next r hr =>
    simp only [Option.some.injEq, Prod.mk.injEq] at h
    obtain ⟨_, rfl⟩ := h
    simp only [hr, List.length_cons] at shorter
    omega

/-- A line as text; every byte is one character. -/
def lineText (line : List UInt8) : List Char := line.map fun b => Char.ofNat b.toNat

/-! ### Bodies in chunks -/

/-- The size of a chunk, which stands in hexadecimal before it. -/
def chunkSize? (line : List UInt8) : Option Nat :=
  match Text.trimBlanks ((lineText line).takeWhile (· ≠ ';')) with
  | [] => none
  | digits => Host.digits? 16 digits

/-- The body that was sent in chunks, up to the empty chunk at its end. -/
def ofChunks? (bytes : List UInt8) : Option (List UInt8) :=
  match h : cutLine? bytes with
  | none => none
  | some (line, rest) =>
    match chunkSize? line with
    | none => none
    | some 0 => some []
    | some size =>
      match h' : cutLine? (rest.drop size) with
      | some ([], others) =>
        have : others.length < bytes.length := by
          have := length_of_cutLine? h
          have := length_of_cutLine? h'
          simp only [List.length_drop] at this
          omega
        (ofChunks? others).map (rest.take size ++ ·)
      | _ => none
termination_by bytes.length

end Wire

namespace HttpRequest

/-- The host and the port, as the server is to know them. -/
def authority (r : HttpRequest) : String :=
  r.url.host ++ (r.url.port.map fun n => ":" ++ toString n).getD ""

/-- The bytes of a request. -/
def toBytes (r : HttpRequest) : List UInt8 :=
  let body := (r.body.map fun v => Text.Utf8.encode v.render).getD []
  let size := (r.body.map fun _ => ("content-length", toString body.length)).toList
  let headers := r.headers ++ ("host", r.authority) :: ("connection", "close") :: size
  let lines := (r.method.name ++ " " ++ r.url.target ++ " HTTP/1.1")
    :: headers.map fun h => h.1 ++ ": " ++ h.2
  lines.flatMap (fun line => Text.Utf8.encode line ++ Wire.lineEnd) ++ Wire.lineEnd ++ body

end HttpRequest

namespace Wire

/-! ### Answers -/

/-- What stands before the body of an answer. -/
structure Head where
  status : Nat
  /-- The headers, with names in lower case. -/
  headers : List (String × String)
deriving DecidableEq, Repr, Inhabited

/-- The status in the first line of an answer. -/
def status? (line : List UInt8) : Option Nat :=
  match Text.splitAll ' ' (lineText line) with
  | version :: code :: _ =>
    if ["HTTP/1.0", "HTTP/1.1"].contains (String.ofList version) && code.length = 3 then
      Host.digits? 10 code
    else none
  | _ => none

/-- A header. -/
def header? (line : List UInt8) : Option (String × String) :=
  (Text.splitFirst ':' (lineText line)).map fun (name, value) =>
    (Text.lowerAscii (String.ofList name), String.ofList (Text.trimBlanks value))

/-- The headers up to the empty line after them, and what follows. -/
def readHeaders? (bytes : List UInt8) : Option (List (String × String) × List UInt8) :=
  match h : cutLine? bytes with
  | none => none
  | some ([], rest) => some ([], rest)
  | some (line, others) => do
    have := length_of_cutLine? h
    let header ← header? line
    let (headers, rest) ← readHeaders? others
    return (header :: headers, rest)
termination_by bytes.length

theorem length_of_readHeaders? {bytes rest : List UInt8} {headers : List (String × String)}
    (h : readHeaders? bytes = some (headers, rest)) : rest.length < bytes.length := by
  fun_induction readHeaders? bytes generalizing headers rest with
  | case1 => cases h
  | case2 bytes r hr =>
    simp only [Option.some.injEq, Prod.mk.injEq] at h
    obtain ⟨_, rfl⟩ := h
    exact length_of_cutLine? hr
  | case3 bytes line r hline hr _ ih =>
    simp only [Option.bind_eq_bind, Option.bind_eq_some_iff, Option.pure_def, Option.some.injEq,
      Prod.mk.injEq] at h
    obtain ⟨_, _, ⟨_, _⟩, hs, _, rfl⟩ := h
    exact Nat.lt_trans (ih hs) (length_of_cutLine? hr)

/-- The head of an answer, and what follows. Answers that only announce another are passed
over. -/
def readHead? (bytes : List UInt8) : Option (Head × List UInt8) :=
  match h : cutLine? bytes with
  | none => none
  | some (line, rest) =>
    match status? line, h' : readHeaders? rest with
    | some status, some (headers, others) =>
      have := Nat.lt_trans (length_of_readHeaders? h') (length_of_cutLine? h)
      if status / 100 = 1 then readHead? others else some (⟨status, headers⟩, others)
    | _, _ => none
termination_by bytes.length

/-- The body after a head; none if it broke off. -/
def body? (head : Head) (bytes : List UInt8) : Option (List UInt8) :=
  if head.status = 204 ∨ head.status = 304 then some []
  else
    match Table.get? "transfer-encoding" head.headers, Table.get? "content-length" head.headers with
    | some _, _ => ofChunks? bytes
    | none, some size =>
      match Host.digits? 10 size.toList with
      | some size => if size ≤ bytes.length then some (bytes.take size) else none
      | none => none
    | none, none => some bytes

end Wire

/-- Reads all that has come back when the connection is closed. -/
def HttpResponse.ofBytes? (bytes : List UInt8) : Option HttpResponse :=
  (Wire.readHead? bytes).map fun (head, rest) => ⟨head.status, Wire.body? head rest⟩

end PlaneRestore
