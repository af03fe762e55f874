import PlaneRestore.Json.Basic
/-!
JSON text.

* `Json.render` writes a value without white space.
* `Json.renderLines` writes it over several lines, two blanks for each level.
-/

namespace PlaneRestore

namespace Number

/-- A whole number in decimal digits, a floating-point number with a point or an exponent. -/
def render : Number → String
  | whole n => toString n
  | float x => x.scientific

end Number

namespace Json

/-- The escape of one character of a string. -/
def escapeChar (c : Char) : List Char :=
  if c = '"' then ['\\', '"']
  else if c = '\\' then ['\\', '\\']
  else if c = '\n' then ['\\', 'n']
  else if c = '\r' then ['\\', 'r']
  else if c = '\t' then ['\\', 't']
  else if c = '\x08' then ['\\', 'b']
  else if c = '\x0c' then ['\\', 'f']
  else if c.toNat < 0x20 then
    ['\\', 'u', '0', '0', Nat.digitChar (c.toNat / 16), Nat.digitChar (c.toNat % 16)]
  else [c]

/-- A string between double quotes. -/
def renderString (s : String) : String :=
  String.ofList ('"' :: s.toList.flatMap escapeChar ++ ['"'])

mutual

/-- The text of a value, without white space. -/
def render : Json → String
  | null => "null"
  | bool true => "true"
  | bool false => "false"
  | number n => n.render
  | string s => renderString s
  | array items => "[" ++ ",".intercalate (renderItems items) ++ "]"
  | object ms => "\x7b" ++ ",".intercalate (renderMembers ms) ++ "\x7d"

/-- The texts of the items of an array. -/
def renderItems : List Json → List String
  | [] => []
  | v :: vs => render v :: renderItems vs

/-- The texts of the members of an object. -/
def renderMembers : List (String × Json) → List String
  | [] => []
  | (k, v) :: rest => (renderString k ++ ":" ++ render v) :: renderMembers rest

end

/-- Puts items on lines of their own between brackets. -/
def bracketed (opening closing : String) (indent : Nat) : List String → String
  | [] => opening ++ closing
  | items =>
    let inner := "".pushn ' ' (indent + 2)
    opening ++ "\n" ++ inner ++ (",\n" ++ inner).intercalate items ++ "\n"
      ++ "".pushn ' ' indent ++ closing

mutual

/-- The text of a value over several lines, inside `indent` blanks. -/
def renderAt (indent : Nat) : Json → String
  | array items => bracketed "[" "]" indent (renderItemsAt (indent + 2) items)
  | object ms => bracketed "\x7b" "\x7d" indent (renderMembersAt (indent + 2) ms)
  | null => "null"
  | bool true => "true"
  | bool false => "false"
  | number n => n.render
  | string s => renderString s

/-- The texts of the items of an array over several lines. -/
def renderItemsAt (indent : Nat) : List Json → List String
  | [] => []
  | v :: vs => renderAt indent v :: renderItemsAt indent vs

/-- The texts of the members of an object over several lines. -/
def renderMembersAt (indent : Nat) : List (String × Json) → List String
  | [] => []
  | (k, v) :: rest => (renderString k ++ ": " ++ renderAt indent v) :: renderMembersAt indent rest

end

/-- The text of a value over several lines. -/
def renderLines (v : Json) : String := renderAt 0 v

end Json

end PlaneRestore
