/-
# The lexical rules

The rules of the language as regular sets of texts, with nothing said about how
a source is scanned.

| rule | texts |
| --- | --- |
| literal | the words and signs of `literals` |
| string | a quote, anything but quotes, a quote |
| real | digits, a point, digits |
| integer | digits |
| identifier | a letter or underscore, then letters, digits and underscores |
| newlines | newlines |
| blanks | spaces, tabs and carriage returns |

`Cuts source ws` cuts a source into pieces by them: each piece is the longest
that some rule matches, or one character where no rule matches anything.
`Reads w r` says what a piece stands for.  A literal is never an identifier, so
the longer `iffy` is one and `if` is not.
-/

import FlatScript.Token.Scan

namespace FlatScript

/-- The words and signs that have only one spelling, with their tokens. -/
def literals : List (String × Token) :=
  [("true", .bool true), ("false", .bool false), ("if", .ifWord), ("else", .elseWord),
    ("while", .whileWord), ("print", .printWord), ("==", .equalEqual), ("!=", .bangEqual),
    ("<", .less), (">", .greater), ("+", .plus), ("-", .minus), ("*", .star), ("/", .slash),
    ("=", .equals), ("(", .leftParen), (")", .rightParen), ("\x7b", .leftBrace),
    ("\x7d", .rightBrace), (";", .semicolon)]

/-- The lexical rules. -/
inductive Rule where
  | literal
  | string
  | real
  | integer
  | identifier
  | newlines
  | blanks

/-- `r.Matches w`: the rule `r` matches the whole of the text `w`. -/
inductive Rule.Matches : Rule → List Char → Prop where
  | literal {text : String} {t : Token} (h : (text, t) ∈ literals) : Matches .literal text.toList
  | string {body : List Char} (h : '"' ∉ body) : Matches .string ('"' :: (body ++ ['"']))
  | real {w f : List Char} (hw : w ≠ []) (hf : f ≠ []) (hwd : ∀ x ∈ w, x.isDigit = true)
      (hfd : ∀ x ∈ f, x.isDigit = true) : Matches .real (w ++ '.' :: f)
  | integer {w : List Char} (hw : w ≠ []) (hwd : ∀ x ∈ w, x.isDigit = true) : Matches .integer w
  | identifier {c : Char} {w : List Char} (hc : c.isAlpha = true ∨ c = '_')
      (hw : ∀ x ∈ w, x.isAlphanum = true ∨ x = '_') : Matches .identifier (c :: w)
  | newlines {w : List Char} (hw : w ≠ []) (h : ∀ x ∈ w, x = '\n') : Matches .newlines w
  | blanks {w : List Char} (hw : w ≠ []) (h : ∀ x ∈ w, x = ' ' ∨ x = '\t' ∨ x = '\r') :
      Matches .blanks w

/-- Some rule matches the text. -/
def Matched (w : List Char) : Prop :=
  ∃ r : Rule, r.Matches w

/-- `Cuts source ws`: the pieces of a source, in order.  Each is the longest
matched text that the rest of the source starts with; where there is none, it is
one character. -/
inductive Cuts : List Char → List (List Char) → Prop where
  | nil : Cuts [] []
  | matched {w rest : List Char} {ws : List (List Char)} (hw : Matched w)
      (hlongest : ∀ v, v <+: w ++ rest → Matched v → v.length ≤ w.length) (h : Cuts rest ws) :
      Cuts (w ++ rest) (w :: ws)
  | unmatched {c : Char} {rest : List Char} {ws : List (List Char)}
      (hnone : ∀ v, v <+: c :: rest → ¬ Matched v) (h : Cuts rest ws) :
      Cuts (c :: rest) ([c] :: ws)

/-- The number that digits stand for. -/
def decimal (digits : List Char) : Nat :=
  Nat.ofDigitChars 10 digits 0

/-- The largest integer: one below two to the 63rd. -/
def largestInteger : Nat := 9223372036854775807

/-- The float nearest to a number with the digits `w` before its point and `f`
behind it. -/
def nearest (w f : List Char) : Float :=
  Float.ofScientific (decimal (w ++ f)) true f.length

/-- `Reads w r`: the piece `w` of a source, if it is no layout, is read as `r`. -/
inductive Reads : List Char → Except LexFault Token → Prop where
  | literal {text : String} {t : Token} (h : (text, t) ∈ literals) : Reads text.toList (.ok t)
  | identifier {w : List Char} (hw : Rule.identifier.Matches w)
      (hno : ∀ t, (String.ofList w, t) ∉ literals) : Reads w (.ok (.identifier (String.ofList w)))
  | string {body : List Char} (h : '"' ∉ body) :
      Reads ('"' :: (body ++ ['"'])) (.ok (.str (String.ofList body)))
  | integer {w : List Char} {k : Int64} (hw : Rule.integer.Matches w) (hk : k.toInt = decimal w) :
      Reads w (.ok (.integer k))
  | integerTooLarge {w : List Char} (hw : Rule.integer.Matches w)
      (hlarge : largestInteger < decimal w) :
      Reads w (.error (.integerTooLarge (String.ofList w)))
  | real {w f : List Char} (hw : Rule.integer.Matches w) (hf : Rule.integer.Matches f)
      (hx : (nearest w f).isFinite = true) : Reads (w ++ '.' :: f) (.ok (.real (nearest w f)))
  | realTooLarge {w f : List Char} (hw : Rule.integer.Matches w) (hf : Rule.integer.Matches f)
      (hx : (nearest w f).isFinite = false) :
      Reads (w ++ '.' :: f) (.error (.realTooLarge (String.ofList (w ++ '.' :: f))))
  | illegal {c : Char} (hno : ¬ Matched [c]) : Reads [c] (.error (.illegalCharacter c))

end FlatScript
