/-
# Blank characters

The characters with the property White_Space: six of ASCII, the two Latin-1
blanks and the typographic spaces and separators.  The interactive console
trims its input by them; the scanner has its own, smaller set of layout
characters.
-/

import FlatScript.Text.Class

namespace FlatScript
namespace Text

/-- The characters with the property White_Space. -/
def blank : Class where
  ranges := [(0x9, 0xd), (0x20, 0x20), (0x85, 0x85), (0xa0, 0xa0), (0x1680, 0x1680),
    (0x2000, 0x200a), (0x2028, 0x2029), (0x202f, 0x202f), (0x205f, 0x205f), (0x3000, 0x3000)]

example : blank.isSorted = true ∧ blank.size = 25 := by decide

/-- The text without the blanks at its end. -/
def trimEnd (cs : List Char) : List Char :=
  (cs.reverse.dropWhile blank.contains).reverse

/-- The text without the blanks at either end. -/
def trim (cs : List Char) : List Char :=
  trimEnd (cs.dropWhile blank.contains)

end Text
end FlatScript
