/-
# Scanning a source

`tokenize` reads a source as a list of items, each a token or a fault on the
line of its first character.  Layout is dropped.  Faults do not end the list:
`tokensOf` are the tokens that are left when they are skipped, and `lexErrorsOf`
are the faults.
-/

import FlatScript.Token.Lexer

namespace FlatScript
namespace Item

/-- The token of an item, on its line. -/
def token? (i : Item) : Option (Located Token) :=
  match i.val with
  | .ok t => some ⟨t, i.line⟩
  | .error _ => none

/-- The error of an item. -/
def error? (i : Item) : Option LexError :=
  match i.val with
  | .ok _ => none
  | .error fault => some ⟨fault, i.line⟩

end Item

/-- Reads a source as tokens and faults, in order. -/
def tokenize (source : String) : List Item :=
  (Lexer.start source.toList 1).items

/-- The tokens of a source, its faults skipped. -/
def tokensOf (source : String) : List (Located Token) :=
  (tokenize source).filterMap Item.token?

/-- The faults of a source. -/
def lexErrorsOf (source : String) : List LexError :=
  (tokenize source).filterMap Item.error?

end FlatScript
