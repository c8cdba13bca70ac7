/-
# The order of texts

Texts are ordered like the words of a dictionary whose letters are code points.
-/

namespace FlatScript
namespace Text

/-- The order of two texts: by the first code point in which they differ, a
text before its own continuations. -/
def order : List Char → List Char → Ordering
  | [], [] => .eq
  | [], _ :: _ => .lt
  | _ :: _, [] => .gt
  | c :: cs, d :: ds =>
    if c.toNat < d.toNat then .lt
    else if d.toNat < c.toNat then .gt
    else order cs ds

end Text
end FlatScript
