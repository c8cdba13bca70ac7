/-
# Classes of characters

A class of characters is written down as the list of its ranges of code points.
-/

namespace FlatScript
namespace Text

/-- A class of characters: ranges of code points, both ends included. -/
structure Class where
  ranges : List (Nat × Nat)

namespace Class

/-- Whether a character belongs to the class. -/
def contains (k : Class) (c : Char) : Bool :=
  k.ranges.any fun r => r.1 ≤ c.toNat && c.toNat ≤ r.2

/-- The number of code points in the ranges. -/
def size (k : Class) : Nat :=
  k.ranges.foldl (fun n r => n + (r.2 + 1 - r.1)) 0

/-- Whether the ranges stand in order and apart from each other. -/
def isSorted (k : Class) : Bool :=
  k.ranges.all (fun r => r.1 ≤ r.2) &&
    (k.ranges.zip (k.ranges.drop 1)).all fun p => p.1.2 + 1 < p.2.1

end Class
end Text
end FlatScript
