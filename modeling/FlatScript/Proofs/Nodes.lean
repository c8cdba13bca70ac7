/-
# The expressions of a program

A limit on expressions, or a rule that forbids some of them, speaks of every
expression that occurs in a program: printed, assigned or tested, in any block,
and every expression inside one of these.  `Program.nodes` lists them all,
operands before their operator and left before right, which is the order in
which they are evaluated.

The search for a sum with a boolean literal as an operand is a search through
this list (`Expr.booleanSum?_eq`, `Program.booleanSum?_eq`), so it finds nothing
exactly when no node is such a sum.

Beside the expressions a program has the names that it assigns to and the
statements inside its statements: `Stmt.targetsOf` and `Stmt.partsOf` list them
in the order of the source.
-/

import FlatScript.Stmt.Basic

namespace FlatScript
namespace Expr

/-- The expressions that occur in an expression, itself last. -/
def nodes : Expr → List Expr
  | .literal v n => [.literal v n]
  | .var name n => [.var name n]
  | .negate e n => e.nodes ++ [.negate e n]
  | .binary op l r n => l.nodes ++ (r.nodes ++ [.binary op l r n])

theorem mem_nodes_self (e : Expr) : e ∈ e.nodes := by
  cases e <;> simp [nodes]

/-- Whether the top node is a binary operator. -/
def isBinary : Expr → Bool
  | .binary _ _ _ _ => true
  | _ => false

/-- Whether the top node is a sum with a boolean literal as an operand. -/
def isBooleanSum : Expr → Bool
  | .binary .add l r _ => l.isBoolLiteral || r.isBoolLiteral
  | _ => false

/-- **The first boolean sum of an expression** is the first of its nodes that is
one. -/
theorem booleanSum?_eq (e : Expr) :
    e.booleanSum? = (e.nodes.find? isBooleanSum).map Expr.line := by
  induction e with
  | literal v n => rfl
  | var name n => rfl
  | negate e n ih =>
    rw [booleanSum?, ih, nodes, List.find?_append]
    simp [isBooleanSum]
  | binary op l r n ihl ihr =>
    have htop : (if op = .add ∧ (l.isBoolLiteral ∨ r.isBoolLiteral) then some n else none) =
        ([Expr.binary op l r n].find? isBooleanSum).map Expr.line := by
      cases op <;> simp [isBooleanSum, List.find?_cons]
      cases l.isBoolLiteral <;> cases r.isBoolLiteral <;> rfl
    rw [booleanSum?, ihl, ihr, htop, nodes, List.find?_append, List.find?_append,
      Option.map_or, Option.map_or]
    simp only [Option.orElse_eq_orElse, Option.orElse_eq_or]

end Expr

namespace Stmt

mutual

/-- The expressions that occur in a statement. -/
def nodes : Stmt → List Expr
  | .print e _ | .assign _ e _ => e.nodes
  | .ifThen c s _ => c.nodes ++ s.nodes
  | .ifElse c s t _ => c.nodes ++ (s.nodes ++ t.nodes)
  | .loop c s _ => c.nodes ++ s.nodes
  | .block ss _ => nodesOf ss

/-- The expressions that occur in a list of statements. -/
def nodesOf : List Stmt → List Expr
  | [] => []
  | s :: ss => s.nodes ++ nodesOf ss

end

theorem nodesOf_append (ss ts : List Stmt) : nodesOf (ss ++ ts) = nodesOf ss ++ nodesOf ts := by
  induction ss with
  | nil => rfl
  | cons s ss ih => rw [List.cons_append, nodesOf, nodesOf, ih, List.append_assoc]

mutual

/-- The names that a statement assigns to. -/
def targets : Stmt → List String
  | .print _ _ => []
  | .assign x _ _ => [x]
  | .ifThen _ s _ => s.targets
  | .ifElse _ s t _ => s.targets ++ t.targets
  | .loop _ s _ => s.targets
  | .block ss _ => targetsOf ss

/-- The names that a list of statements assigns to. -/
def targetsOf : List Stmt → List String
  | [] => []
  | s :: ss => s.targets ++ targetsOf ss

end

theorem targetsOf_append (ss ts : List Stmt) :
    targetsOf (ss ++ ts) = targetsOf ss ++ targetsOf ts := by
  induction ss with
  | nil => rfl
  | cons s ss ih => rw [List.cons_append, targetsOf, targetsOf, ih, List.append_assoc]

mutual

/-- The statements that occur in a statement, itself first. -/
def parts : Stmt → List Stmt
  | .print e n => [.print e n]
  | .assign x e n => [.assign x e n]
  | .ifThen c s n => .ifThen c s n :: s.parts
  | .ifElse c s t n => .ifElse c s t n :: (s.parts ++ t.parts)
  | .loop c s n => .loop c s n :: s.parts
  | .block ss n => .block ss n :: partsOf ss

/-- The statements that occur in a list of statements. -/
def partsOf : List Stmt → List Stmt
  | [] => []
  | s :: ss => s.parts ++ partsOf ss

end

theorem partsOf_append (ss ts : List Stmt) : partsOf (ss ++ ts) = partsOf ss ++ partsOf ts := by
  induction ss with
  | nil => rfl
  | cons s ss ih => rw [List.cons_append, partsOf, partsOf, ih, List.append_assoc]

theorem mem_parts_self (s : Stmt) : s ∈ s.parts := by
  cases s <;> simp [parts]

mutual

/-- The first boolean sum of a statement is the first of its nodes that is one. -/
theorem booleanSum?_eq :
    ∀ s : Stmt, s.booleanSum? = (s.nodes.find? Expr.isBooleanSum).map Expr.line
  | .print e _ => e.booleanSum?_eq
  | .assign _ e _ => e.booleanSum?_eq
  | .ifThen c s _ => by
    rw [booleanSum?, c.booleanSum?_eq, booleanSum?_eq s, nodes, List.find?_append, Option.map_or]
    simp only [Option.orElse_eq_orElse, Option.orElse_eq_or]
  | .ifElse c s t _ => by
    rw [booleanSum?, c.booleanSum?_eq, booleanSum?_eq s, booleanSum?_eq t, nodes,
      List.find?_append, List.find?_append, Option.map_or, Option.map_or]
    simp only [Option.orElse_eq_orElse, Option.orElse_eq_or]
  | .loop c s _ => by
    rw [booleanSum?, c.booleanSum?_eq, booleanSum?_eq s, nodes, List.find?_append, Option.map_or]
    simp only [Option.orElse_eq_orElse, Option.orElse_eq_or]
  | .block ss _ => by
    rw [booleanSum?, booleanSums?_eq ss, nodes]

/-- The first boolean sum of a list of statements is the first of its nodes that
is one. -/
theorem booleanSums?_eq :
    ∀ ss : List Stmt, booleanSums? ss = ((nodesOf ss).find? Expr.isBooleanSum).map Expr.line
  | [] => rfl
  | s :: ss => by
    rw [booleanSums?, booleanSum?_eq s, booleanSums?_eq ss, nodesOf, List.find?_append,
      Option.map_or]
    simp only [Option.orElse_eq_orElse, Option.orElse_eq_or]

end

end Stmt

/-- The expressions that occur in a program. -/
def Program.nodes (p : Program) : List Expr :=
  Stmt.nodesOf p

/-- **A program has no boolean sum** exactly when none of its expressions is
one. -/
theorem Program.booleanSum?_eq_none_iff (p : Program) :
    p.booleanSum? = none ↔ ∀ e ∈ p.nodes, e.isBooleanSum = false := by
  rw [Program.booleanSum?, Stmt.booleanSums?_eq, Option.map_eq_none_iff, List.find?_eq_none]
  simp [Program.nodes]

end FlatScript
