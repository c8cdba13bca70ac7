/-
# Statements

A statement prints, assigns, chooses, repeats, or is a block of statements.
There are no scopes: a block only groups.
-/

import FlatScript.Expr.Basic

namespace FlatScript

/-- A statement, with its line. -/
inductive Stmt where
  | print (e : Expr) (line : Nat)
  | assign (name : String) (e : Expr) (line : Nat)
  | ifThen (condition : Expr) (body : Stmt) (line : Nat)
  | ifElse (condition : Expr) (body other : Stmt) (line : Nat)
  | loop (condition : Expr) (body : Stmt) (line : Nat)
  | block (body : List Stmt) (line : Nat)

/-- A program is a list of statements. -/
abbrev Program := List Stmt

namespace Stmt

/-- The line of the statement. -/
def line : Stmt → Nat
  | .print _ n | .assign _ _ n | .ifThen _ _ n | .ifElse _ _ _ n | .loop _ _ n | .block _ n => n

mutual

/-- The line of the first sum in a statement that has a boolean literal as an
operand. -/
def booleanSum? : Stmt → Option Nat
  | .print e _ | .assign _ e _ => e.booleanSum?
  | .ifThen c s _ => c.booleanSum? <|> s.booleanSum?
  | .ifElse c s t _ => c.booleanSum? <|> s.booleanSum? <|> t.booleanSum?
  | .loop c s _ => c.booleanSum? <|> s.booleanSum?
  | .block ss _ => booleanSums? ss

/-- The line of the first sum in a list of statements that has a boolean literal
as an operand. -/
def booleanSums? : List Stmt → Option Nat
  | [] => none
  | s :: ss => s.booleanSum? <|> booleanSums? ss

end

end Stmt

/-- The line of the first sum in a program that has a boolean literal as an
operand. -/
def Program.booleanSum? (p : Program) : Option Nat :=
  Stmt.booleanSums? p

end FlatScript
