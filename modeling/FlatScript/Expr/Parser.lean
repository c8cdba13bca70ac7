/-
# Parsing expressions

    comparison     := additive (("<" | ">" | "==" | "!=") additive)*
    additive       := multiplicative (("+" | "-") multiplicative)*
    multiplicative := unary (("*" | "/") unary)*
    unary          := "-" unary | primary
    primary        := literal | name | "(" comparison ")"

Repetitions lean to the left.  A binary node stands on the line of its operator,
a negation on that of its sign, and parentheses leave no node.

Two limits keep expressions small.  Each sign and each parenthesis nests one
level, and the parser has `room` for so many levels.  And no chain of operators
may make an expression taller than `maxHeight`.
-/

import FlatScript.Expr.Basic
import FlatScript.Parser.Basic

namespace FlatScript
namespace Expr

/-- The number of levels that parentheses, negations and blocks may nest. -/
def maxNesting : Nat := 64

/-- The height that no chain of operators may exceed. -/
def maxHeight : Nat := 1024

/-- Goes on with a chain of operators that `accepts` after its left part, whose
height is counted along. -/
def chainFrom (accepts : Operator → Bool) (operand : Parser Expr) (left : Expr) (height : Nat)
    (ts : Tokens) : Except ParseError Expr × Tokens :=
  match ts with
  | [] => (.ok left, [])
  | t :: rest =>
    match t.val.operator? with
    | none => (.ok left, t :: rest)
    | some op =>
      if accepts op then
        match _h : operand.run rest with
        | (.error e, after) => (.error e, after)
        | (.ok right, after) =>
          let taller := max height right.height + 1
          if maxHeight < taller then (.error ⟨.tooDeep, t.line⟩, after)
          else chainFrom accepts operand (.binary op left right t.line) taller after
      else (.ok left, t :: rest)
termination_by ts.length
decreasing_by
  have hle : after.length ≤ rest.length := by simpa only [_h] using operand.length_le rest
  simp only [List.length_cons]
  omega

/-- A chain ends, or takes an operator and an operand and goes on. -/
theorem chainFrom_eq (accepts : Operator → Bool) (operand : Parser Expr) (left : Expr)
    (height : Nat) (ts : Tokens) :
    chainFrom accepts operand left height ts =
      match ts with
      | [] => (.ok left, [])
      | t :: rest =>
        match t.val.operator? with
        | none => (.ok left, t :: rest)
        | some op =>
          if accepts op then
            match operand.run rest with
            | (.error e, after) => (.error e, after)
            | (.ok right, after) =>
              if maxHeight < max height right.height + 1 then
                (.error ⟨.tooDeep, t.line⟩, after)
              else
                chainFrom accepts operand (.binary op left right t.line)
                  (max height right.height + 1) after
          else (.ok left, t :: rest) := by
  rw [chainFrom.eq_def]
  cases ts with
  | nil => rfl
  | cons t rest =>
    dsimp only
    split
    · rfl
    · split
      · split
        · rename_i herr
          rw [herr]
        · rename_i hok
          rw [hok]
      · rfl

/-- A chain stops where there is nothing left. -/
theorem chainFrom_nil (accepts : Operator → Bool) (operand : Parser Expr) (left : Expr)
    (height : Nat) : chainFrom accepts operand left height [] = (.ok left, []) := by
  rw [chainFrom_eq]

/-- A chain takes an operator that it accepts, and an operand. -/
theorem chainFrom_accepted {accepts : Operator → Bool} {operand : Parser Expr}
    {t : Located Token} {op : Operator} (hop : t.val.operator? = some op)
    (ha : accepts op = true) (left : Expr) (height : Nat) (rest : Tokens) :
    chainFrom accepts operand left height (t :: rest) =
      match operand.run rest with
      | (.error e, after) => (.error e, after)
      | (.ok right, after) =>
        if maxHeight < max height right.height + 1 then (.error ⟨.tooDeep, t.line⟩, after)
        else
          chainFrom accepts operand (.binary op left right t.line)
            (max height right.height + 1) after := by
  rw [chainFrom_eq]
  simp only [hop]
  exact if_pos ha

/-- **What is counted along a chain is its height**: started with the height of the
left part, the count is that of each new node, and it is the node that is too tall. -/
theorem chainFrom_height {accepts : Operator → Bool} {operand : Parser Expr}
    {t : Located Token} {op : Operator} (hop : t.val.operator? = some op)
    (ha : accepts op = true) (left : Expr) (rest : Tokens) :
    chainFrom accepts operand left left.height (t :: rest) =
      match operand.run rest with
      | (.error e, after) => (.error e, after)
      | (.ok right, after) =>
        let tree := Expr.binary op left right t.line
        if maxHeight < tree.height then (.error ⟨.tooDeep, t.line⟩, after)
        else chainFrom accepts operand tree tree.height after :=
  chainFrom_accepted hop ha left left.height rest

/-- A chain leaves a suffix of its tokens. -/
theorem chainFrom_suffix (accepts : Operator → Bool) (operand : Parser Expr) (left : Expr)
    (height : Nat) (ts : Tokens) : (chainFrom accepts operand left height ts).2 <:+ ts := by
  fun_induction chainFrom accepts operand left height ts with
  | case1 => exact List.suffix_refl _
  | case2 => exact List.suffix_refl _
  | case3 left height t rest op ho ha e after h =>
    have := operand.suffix rest
    rw [h] at this
    exact this.trans (List.suffix_cons t rest)
  | case4 left height t rest op ho ha right after h taller hh =>
    have := operand.suffix rest
    rw [h] at this
    exact this.trans (List.suffix_cons t rest)
  | case5 left height t rest op ho ha right after h taller hh ih =>
    have := operand.suffix rest
    rw [h] at this
    exact ih.trans (this.trans (List.suffix_cons t rest))
  | case6 => exact List.suffix_refl _

/-- Parses a chain of operators that `accepts`, leaning to the left. -/
def chain (accepts : Operator → Bool) (operand : Parser Expr) : Parser Expr :=
  operand.andThen fun left =>
    { run := chainFrom accepts operand left left.height
      suffix := chainFrom_suffix accepts operand left left.height }

/-- The operators of a product. -/
def isFactor (op : Operator) : Bool :=
  op = .mul || op = .div

/-- The operators of a sum. -/
def isTerm (op : Operator) : Bool :=
  op = .add || op = .sub

/-- Products of what `unary` parses. -/
def productsOf (unary : Parser Expr) : Parser Expr :=
  chain isFactor unary

/-- Sums of products of what `unary` parses. -/
def sumsOf (unary : Parser Expr) : Parser Expr :=
  chain isTerm (productsOf unary)

/-- Comparisons of sums of products of what `unary` parses. -/
def comparisonsOf (unary : Parser Expr) : Parser Expr :=
  chain Operator.isComparison (sumsOf unary)

/-- Parses a negation or a primary expression; `deeper` parses the same one
level further in, if there is room for one. -/
def unaryOf (deeper : Option (Parser Expr)) : Parser Expr := do
  let found ← Parser.next?
  match found with
  | some ⟨.minus, n⟩ =>
    let e ← Parser.nested n deeper
    pure (.negate e n)
  | some ⟨.leftParen, n⟩ =>
    let e ← Parser.nested n (deeper.map comparisonsOf)
    let _ ← Parser.expect .rightParen
    pure e
  | some ⟨.integer k, n⟩ => pure (.literal (.integer k) n)
  | some ⟨.real x, n⟩ => pure (.literal (.real x) n)
  | some ⟨.bool b, n⟩ => pure (.literal (.bool b) n)
  | some ⟨.str s, n⟩ => pure (.literal (.str s) n)
  | some ⟨.identifier name, n⟩ => pure (.var name n)
  | _ => Parser.fail (Parser.unexpected found "an expression")

/-- Parses a negation or a primary expression, with room for so many levels. -/
def unary : Nat → Parser Expr
  | 0 => unaryOf none
  | room + 1 => unaryOf (some (unary room))

/-- Parses a product, with room for so many levels. -/
def multiplicative (room : Nat) : Parser Expr :=
  productsOf (unary room)

/-- Parses a sum, with room for so many levels. -/
def additive (room : Nat) : Parser Expr :=
  sumsOf (unary room)

/-- Parses an expression, with room for so many levels. -/
def parser (room : Nat) : Parser Expr :=
  comparisonsOf (unary room)

end Expr
end FlatScript
