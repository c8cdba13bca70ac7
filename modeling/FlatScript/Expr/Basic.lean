/-
# Expressions

An expression is a literal, a variable, a negation or an operator between two
expressions; each node knows its line.
-/

import FlatScript.Operator.Basic
import FlatScript.Value.Basic

namespace FlatScript

/-- An expression. -/
inductive Expr where
  | literal (value : Value) (line : Nat)
  | var (name : String) (line : Nat)
  | negate (operand : Expr) (line : Nat)
  | binary (op : Operator) (left right : Expr) (line : Nat)
deriving DecidableEq

namespace Expr

/-- The line of the expression's top node. -/
def line : Expr → Nat
  | .literal _ n | .var _ n | .negate _ n | .binary _ _ _ n => n

/-- The number of nodes on the longest path down to a leaf. -/
def height : Expr → Nat
  | .literal _ _ | .var _ _ => 1
  | .negate e _ => e.height + 1
  | .binary _ l r _ => max l.height r.height + 1

/-- Whether the expression is a boolean literal. -/
def isBoolLiteral : Expr → Bool
  | .literal (.bool _) _ => true
  | _ => false

/-- The line of the first sum, operands before their sum and left before right,
that has a boolean literal as an operand. -/
def booleanSum? : Expr → Option Nat
  | .literal _ _ | .var _ _ => none
  | .negate e _ => e.booleanSum?
  | .binary op l r n =>
    l.booleanSum? <|> r.booleanSum? <|>
      if op = .add ∧ (l.isBoolLiteral ∨ r.isBoolLiteral) then some n else none

end Expr
end FlatScript
