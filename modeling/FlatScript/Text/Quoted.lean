/-
# Quoted text

A text between quotes on one line.  Quotes, backslashes and the common controls
have short forms after a backslash; every other character without a picture of
its own is shown by its code point.
-/

import FlatScript.Text.Hidden

namespace FlatScript
namespace Text

/-- The form of a code point: `\\u` and lower-case hexadecimal digits in braces. -/
def codePoint (c : Char) : String :=
  "\\u\x7b" ++ String.ofList (Nat.toDigits 16 c.toNat) ++ "\x7d"

/-- The form of a character in quoted text. -/
def quotedChar (c : Char) : String :=
  if c.toNat = 0 then "\\0"
  else if c = '\t' then "\\t"
  else if c = '\n' then "\\n"
  else if c = '\r' then "\\r"
  else if c = '"' then "\\\""
  else if c = '\\' then "\\\\"
  else if hidden.contains c then codePoint c
  else String.singleton c

/-- A text in quotes. -/
def quoted (s : String) : String :=
  "\"" ++ String.join (s.toList.map quotedChar) ++ "\""

end Text
end FlatScript
