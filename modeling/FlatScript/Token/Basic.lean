/-
# Tokens

The tokens of the language, their text in messages and token listings, and the
operator that a token stands for.  Two tokens are layout: a run of newlines and
a run of blanks.  The scanner reads them and drops them, so they never reach a
program, but a reader of tokens meets them as tokens like any other.
-/

import FlatScript.Decimal.Layout
import FlatScript.Operator.Basic

namespace FlatScript

/-- A token of the language. -/
inductive Token where
  | str (s : String)
  | bool (b : Bool)
  | real (x : Float)
  | integer (n : Int64)
  | identifier (name : String)
  | equalEqual
  | bangEqual
  | less
  | greater
  | ifWord
  | elseWord
  | whileWord
  | printWord
  | plus
  | minus
  | star
  | slash
  | equals
  | leftParen
  | rightParen
  | leftBrace
  | rightBrace
  | semicolon
  | newline
  | blank
deriving DecidableEq

namespace Token

/-- Written-out literals show a fraction when whole, and an exponent from
`10 ^ 16` up and below `10 ^ -4`. -/
def listed : Decimal.Layout where
  positional e := -5 < e && e < 16
  pointed _ := true

/-- The text of a token in messages and listings. -/
def text : Token → String
  | .str s => "\"" ++ s ++ "\""
  | .bool b => if b then "'true'" else "'false'"
  | .real x => "'" ++ listed.float x ++ "'"
  | .integer n => "'" ++ toString n.toInt ++ "'"
  | .identifier name => "'" ++ name ++ "'"
  | .equalEqual => "'=='"
  | .bangEqual => "'!='"
  | .less => "'<'"
  | .greater => "'>'"
  | .ifWord => "'if'"
  | .elseWord => "'else'"
  | .whileWord => "'while'"
  | .printWord => "'print'"
  | .plus => "'+'"
  | .minus => "'-'"
  | .star => "'*'"
  | .slash => "'/'"
  | .equals => "'='"
  | .leftParen => "'('"
  | .rightParen => "')'"
  | .leftBrace => "'\x7b'"
  | .rightBrace => "'\x7d'"
  | .semicolon => "';'"
  | .newline => "newline"
  | .blank => "whitespace"

/-- Whether the token only separates others. -/
def isLayout : Token → Bool
  | .newline | .blank => true
  | _ => false

/-- The binary operator that the token stands for. -/
def operator? : Token → Option Operator
  | .plus => some .add
  | .minus => some .sub
  | .star => some .mul
  | .slash => some .div
  | .less => some .less
  | .greater => some .greater
  | .equalEqual => some .equal
  | .bangEqual => some .notEqual
  | _ => none

/-- The token that a word of letters, digits and underscores is read as. -/
def ofWord (word : String) : Token :=
  if word = "true" then .bool true
  else if word = "false" then .bool false
  else if word = "if" then .ifWord
  else if word = "else" then .elseWord
  else if word = "while" then .whileWord
  else if word = "print" then .printWord
  else .identifier word

/-- The token of a sign that is one character long. -/
def ofSign? : Char → Option Token
  | '<' => some .less
  | '>' => some .greater
  | '+' => some .plus
  | '-' => some .minus
  | '*' => some .star
  | '/' => some .slash
  | '=' => some .equals
  | '(' => some .leftParen
  | ')' => some .rightParen
  | '{' => some .leftBrace
  | '}' => some .rightBrace
  | ';' => some .semicolon
  | _ => none

end Token
end FlatScript
