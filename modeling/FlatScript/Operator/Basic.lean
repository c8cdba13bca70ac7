/-
# Operators

The eight binary operators, in two families: arithmetic and comparison.
-/

namespace FlatScript

/-- A binary operator. -/
inductive Operator where
  | add
  | sub
  | mul
  | div
  | less
  | greater
  | equal
  | notEqual
deriving DecidableEq

namespace Operator

/-- Whether the operator compares, rather than computes. -/
def isComparison : Operator → Bool
  | .less | .greater | .equal | .notEqual => true
  | .add | .sub | .mul | .div => false

/-- The sign of the operator in the source. -/
def sign : Operator → String
  | .add => "+"
  | .sub => "-"
  | .mul => "*"
  | .div => "/"
  | .less => "<"
  | .greater => ">"
  | .equal => "=="
  | .notEqual => "!="

end Operator
end FlatScript
