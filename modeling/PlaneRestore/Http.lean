import PlaneRestore.Dialogue
import PlaneRestore.Json.Printer
import PlaneRestore.Json.Reader
import PlaneRestore.Text.Base64
import PlaneRestore.Url
/-!
Requests over HTTP and their answers.

* `HttpRequest.build?` makes a request, unless its address or a header is not allowed.
* `HttpStatus.text` is a status with its usual name.
* `Exchange` is a dialogue of requests and answers.
-/

namespace PlaneRestore

inductive HttpMethod where
  | get
  | post
  | put
deriving DecidableEq, Repr, Inhabited

def HttpMethod.name : HttpMethod → String
  | get => "GET"
  | post => "POST"
  | put => "PUT"

/-- A request. -/
structure HttpRequest where
  method : HttpMethod
  url : Url
  /-- The headers, with names in lower case. -/
  headers : List (String × String)
  body : Option Json
  /-- How long an answer is waited for, in seconds. -/
  timeout : Nat
deriving Repr, Inhabited

/-- An answer to a request. -/
structure HttpResponse where
  status : Nat
  /-- The body; none if it broke off. -/
  body : Option (List UInt8)
deriving Repr, Inhabited

namespace HttpRequest

/-- Whether a text may be the value of a header: control characters may not stand in it. -/
def isHeaderValue (value : String) : Bool :=
  value.toList.all fun c => c = '\t' || 0x20 ≤ c.toNat && c.toNat ≠ 0x7F

/-- The header with the user and the password of an address. -/
def userHeader (user : String × String) : String × String :=
  let decode (s : String) : List UInt8 := Percent.decodeBytes s.toList
  let bytes := decode user.1 ++ Text.Utf8.encode ":" ++ decode user.2
  ("authorization", "Basic " ++ String.ofList (Text.Base64.encode bytes))

/-- Makes a request, unless its address or a header is not allowed. A user in the address goes
into a header. -/
def build? (method : HttpMethod) (address : String) (query headers : List (String × String))
    (body : Option Json) (timeout : Nat) : Option HttpRequest := do
  let url ← Url.parse? address
  if headers.all fun h => isHeaderValue h.2 then
    some ⟨method, query.foldl (fun u p => u.addQuery p.1 p.2) url,
      (url.user.map userHeader).toList ++ headers, body, timeout⟩
  else none

end HttpRequest

namespace HttpStatus

def isSuccess (status : Nat) : Bool := 200 ≤ status && status < 300

/-- The usual names of the statuses. -/
def names : List (Nat × String) :=
  [(100, "Continue"), (101, "Switching Protocols"), (102, "Processing"), (200, "OK"),
    (201, "Created"), (202, "Accepted"), (203, "Non Authoritative Information"),
    (204, "No Content"), (205, "Reset Content"), (206, "Partial Content"), (207, "Multi-Status"),
    (208, "Already Reported"), (226, "IM Used"), (300, "Multiple Choices"),
    (301, "Moved Permanently"), (302, "Found"), (303, "See Other"), (304, "Not Modified"),
    (305, "Use Proxy"), (307, "Temporary Redirect"), (308, "Permanent Redirect"),
    (400, "Bad Request"), (401, "Unauthorized"), (402, "Payment Required"), (403, "Forbidden"),
    (404, "Not Found"), (405, "Method Not Allowed"), (406, "Not Acceptable"),
    (407, "Proxy Authentication Required"), (408, "Request Timeout"), (409, "Conflict"),
    (410, "Gone"), (411, "Length Required"), (412, "Precondition Failed"),
    (413, "Payload Too Large"), (414, "URI Too Long"), (415, "Unsupported Media Type"),
    (416, "Range Not Satisfiable"), (417, "Expectation Failed"), (418, "I'm a teapot"),
    (421, "Misdirected Request"), (422, "Unprocessable Entity"), (423, "Locked"),
    (424, "Failed Dependency"), (425, "Too Early"), (426, "Upgrade Required"),
    (428, "Precondition Required"), (429, "Too Many Requests"),
    (431, "Request Header Fields Too Large"), (451, "Unavailable For Legal Reasons"),
    (500, "Internal Server Error"), (501, "Not Implemented"), (502, "Bad Gateway"),
    (503, "Service Unavailable"), (504, "Gateway Timeout"), (505, "HTTP Version Not Supported"),
    (506, "Variant Also Negotiates"), (507, "Insufficient Storage"), (508, "Loop Detected"),
    (510, "Not Extended"), (511, "Network Authentication Required")]

/-- A status with its usual name. -/
def text (status : Nat) : String :=
  toString status ++ " " ++ (Table.get? status names).getD "<unknown status code>"

end HttpStatus

/-- A dialogue of requests and answers; a request that gets no answer is answered by none. -/
abbrev Exchange (α : Type) : Type := Dialogue HttpRequest (fun _ => Option HttpResponse) α

end PlaneRestore
