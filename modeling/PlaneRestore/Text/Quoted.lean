import PlaneRestore.Text.Printable
/-!
Texts quoted in messages.

`quote s` puts `s` between double quotes; a quote or backslash is escaped, NUL, tab, line feed and
carriage return have short escapes, and any other character that is not shown is written by its
code point in hexadecimal.
-/

namespace PlaneRestore.Text

/-- The escape of one character, or the character itself. -/
def quoteChar (c : Char) : List Char :=
  if c = '\x00' then ['\\', '0']
  else if c = '\t' then ['\\', 't']
  else if c = '\r' then ['\\', 'r']
  else if c = '\n' then ['\\', 'n']
  else if c = '\\' then ['\\', '\\']
  else if c = '"' then ['\\', '"']
  else if isShown c then [c]
  else ['\\', 'u', '\x7b'] ++ Nat.toDigits 16 c.toNat ++ ['\x7d']

/-- A text between double quotes, with escapes. -/
def quote (s : String) : String :=
  String.ofList ('"' :: s.toList.flatMap quoteChar ++ ['"'])

end PlaneRestore.Text
