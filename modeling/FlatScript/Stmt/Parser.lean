/-
# Parsing statements

    block     := "{" (statement ";")+ "}"
    statement := "print" "(" expression ")"
               | name "=" expression
               | "if" "(" expression ")" block ("else" block)?
               | "while" "(" expression ")" block

A statement stands on the line of its first token, a block on that of its
opening brace.  Each block nests one level; the parentheses after a word do not.
-/

import FlatScript.Expr.Parser
import FlatScript.Stmt.Basic

namespace FlatScript
namespace Stmt

/-- Parses statements, each with a semicolon after it, up to a closing brace. -/
def bodyFrom (statement : Parser Stmt) (ts : Tokens) : Except ParseError (List Stmt) × Tokens :=
  match _h : (Parser.terminated statement).run ts with
  | (.error e, after) => (.error e, after)
  | (.ok _, []) => (.error (Parser.unexpected none Token.rightBrace.text), [])
  | (.ok s, t :: after) =>
    if t.val = .rightBrace then (.ok [s], after)
    else
      match bodyFrom statement (t :: after) with
      | (.ok ss, rest) => (.ok (s :: ss), rest)
      | (.error e, rest) => (.error e, rest)
termination_by ts.length
decreasing_by exact Parser.length_lt_of_terminated _h

/-- A body is a first statement and what comes after it. -/
theorem bodyFrom_eq (p : Parser Stmt) (ts : Tokens) :
    bodyFrom p ts =
      match (Parser.terminated p).run ts with
      | (.error e, after) => (.error e, after)
      | (.ok _, []) => (.error (Parser.unexpected none Token.rightBrace.text), [])
      | (.ok s, t :: after) =>
        if t.val = .rightBrace then (.ok [s], after)
        else
          match bodyFrom p (t :: after) with
          | (.ok ss, rest) => (.ok (s :: ss), rest)
          | (.error e, rest) => (.error e, rest) := by
  rw [bodyFrom]
  split
  · rename_i herr
    rw [herr]
  · rename_i hnil
    rw [hnil]
  · rename_i hok
    rw [hok]

/-- The statements of a block leave the last tokens. -/
theorem bodyFrom_suffix (statement : Parser Stmt) (ts : Tokens) :
    (bodyFrom statement ts).2 <:+ ts := by
  fun_induction bodyFrom statement ts with
  | case1 ts e after h =>
    have := (Parser.terminated statement).suffix ts
    rwa [h] at this
  | case2 => exact List.nil_suffix
  | case3 ts s t after h hb =>
    have := (Parser.terminated statement).suffix ts
    rw [h] at this
    exact (List.suffix_cons t after).trans this
  | case4 ts s t after h hb ss rest hr ih =>
    have := (Parser.terminated statement).suffix ts
    rw [h] at this
    rw [hr] at ih
    exact ih.trans this
  | case5 ts s t after h hb e rest hr ih =>
    have := (Parser.terminated statement).suffix ts
    rw [h] at this
    rw [hr] at ih
    exact ih.trans this

/-- Parses the statements of a block and its closing brace. -/
def body (statement : Parser Stmt) : Parser (List Stmt) where
  run := bodyFrom statement
  suffix := bodyFrom_suffix statement

/-- Parses a block of what `deeper` parses, if there is room for one. -/
def blockOf (deeper : Option (Parser Stmt)) : Parser Stmt := do
  let n ← Parser.expect .leftBrace
  let ss ← Parser.nested n (deeper.map body)
  pure (.block ss n)

/-- Parses an expression in parentheses. -/
def conditionOf (expression : Parser Expr) : Parser Expr := do
  let _ ← Parser.expect .leftParen
  let e ← expression
  let _ ← Parser.expect .rightParen
  pure e

/-- Parses a statement from its expressions and its blocks. -/
def statementOf (expression : Parser Expr) (block : Parser Stmt) : Parser Stmt := do
  let found ← Parser.next?
  match found with
  | some ⟨.printWord, n⟩ =>
    let e ← conditionOf expression
    pure (.print e n)
  | some ⟨.identifier name, n⟩ =>
    let _ ← Parser.expect .equals
    let e ← expression
    pure (.assign name e n)
  | some ⟨.ifWord, n⟩ =>
    let c ← conditionOf expression
    let s ← block
    let after ← Parser.peek?
    match after with
    | some ⟨.elseWord, _⟩ =>
      let _ ← Parser.next?
      let t ← block
      pure (.ifElse c s t n)
    | _ => pure (.ifThen c s n)
  | some ⟨.whileWord, n⟩ =>
    let c ← conditionOf expression
    let s ← block
    pure (.loop c s n)
  | _ => Parser.fail (Parser.unexpected found "a statement")

/-- Parses a statement, with room for so many levels. -/
def parser : Nat → Parser Stmt
  | 0 => statementOf (Expr.parser 0) (blockOf none)
  | room + 1 => statementOf (Expr.parser (room + 1)) (blockOf (some (parser room)))

/-- Parses a block, with room for so many levels. -/
def blockParser : Nat → Parser Stmt
  | 0 => blockOf none
  | room + 1 => blockOf (some (parser room))

end Stmt
end FlatScript
