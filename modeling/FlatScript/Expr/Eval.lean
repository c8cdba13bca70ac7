/-
# Evaluating expressions

Operands are evaluated from left to right, then the operator is applied.  An
expression only reads the context.  A fault stands on the line of the node that
it arose at.
-/

import FlatScript.Context
import FlatScript.Expr.Basic
import FlatScript.Operator.Apply

namespace FlatScript

/-- Puts a fault of an operation on the line of its node. -/
def onLine {α : Type} (line : Nat) : Except RuntimeFault α → Except RuntimeError α
  | .ok a => .ok a
  | .error fault => .error ⟨fault, line⟩

namespace Expr

/-- The value of an expression in a context. -/
def eval (c : Context) : Expr → Except RuntimeError Value
  | .literal v _ => .ok v
  | .var name n => onLine n (c.lookup name)
  | .negate e n =>
    match e.eval c with
    | .ok v => onLine n v.negate
    | .error err => .error err
  | .binary op l r n =>
    match l.eval c with
    | .ok v =>
      match r.eval c with
      | .ok w => onLine n (op.apply v w)
      | .error err => .error err
    | .error err => .error err

end Expr
end FlatScript
