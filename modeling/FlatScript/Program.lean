/-
# Parsing programs

A program is a list of statements, each with a semicolon after it, that takes up
all of the tokens.  An error at the end of the tokens stands on the line of the
last one.  A program that parses is still refused if it has a sum with a boolean
literal as an operand.
-/

import FlatScript.Stmt.Parser

namespace FlatScript
namespace Program

/-- Parses statements, each with a semicolon after it, to the end of the tokens. -/
def statements : Tokens → Except ParseError Program
  | [] => .ok []
  | t :: ts =>
    match _h : (Parser.terminated (Stmt.parser Expr.maxNesting)).run (t :: ts) with
    | (.error e, _) => .error e
    | (.ok s, rest) =>
      match statements rest with
      | .ok ss => .ok (s :: ss)
      | .error e => .error e
termination_by ts => ts.length
decreasing_by exact Parser.length_lt_of_terminated _h

/-- Statements are a first one and the statements after it. -/
theorem statements_cons (t : Located Token) (ts : Tokens) :
    statements (t :: ts) =
      match (Parser.terminated (Stmt.parser Expr.maxNesting)).run (t :: ts) with
      | (.error e, _) => .error e
      | (.ok s, rest) =>
        match statements rest with
        | .ok ss => .ok (s :: ss)
        | .error e => .error e := by
  rw [statements]
  split
  · rename_i herr
    rw [herr]
  · rename_i hok
    rw [hok]

/-- The line of the last token; a list without tokens ends on line 1. -/
def lastLine (ts : Tokens) : Nat :=
  match ts.getLast? with
  | some t => t.line
  | none => 1

/-- Refuses a program that has a sum with a boolean literal as an operand. -/
def validate (p : Program) : Except ParseError Unit :=
  match p.booleanSum? with
  | some n => .error ⟨.booleanAddition, n⟩
  | none => .ok ()

/-- Parses a whole list of tokens as a program. -/
def parse (ts : Tokens) : Except ParseError Program :=
  match statements ts with
  | .error e => .error (ParseError.atEndOfInput e (lastLine ts))
  | .ok p =>
    match validate p with
    | .error e => .error e
    | .ok _ => .ok p

end Program
end FlatScript
