/-
# The grammar

    program        := (statement ";")*
    block          := "{" (statement ";")+ "}"
    statement      := "print" "(" comparison ")"
                    | name "=" comparison
                    | "if" "(" comparison ")" block ("else" block)?
                    | "while" "(" comparison ")" block
    comparison     := additive (("<" | ">" | "==" | "!=") additive)*
    additive       := multiplicative (("+" | "-") multiplicative)*
    multiplicative := unary (("*" | "/") unary)*
    unary          := "-" unary | primary
    primary        := literal | name | "(" comparison ")"

The rules are given as relations between tokens and the trees that they derive,
without regard to how anyone would find a derivation.  A repetition of operators
is folded to the left, parentheses leave no node, and each node has the line of
the token that the table names.

| node | line |
| --- | --- |
| statement | its first token |
| block | its opening brace |
| negation, binary operator | the sign |
| literal, variable | the token itself |

A derivation carries its nesting: the largest number of parentheses around
expressions, negations and blocks that one of its tokens stands inside.  The
parentheses after `print`, `if` and `while` belong to the statement and do not
count.
-/

import FlatScript.Parser.Basic
import FlatScript.Stmt.Basic

namespace FlatScript

/-- The tiers of expressions, from the operators that bind least to the
expressions that no operator can split. -/
inductive Tier where
  | comparison
  | additive
  | multiplicative
  | unary
  | primary
deriving DecidableEq

namespace Tier

/-- The tier that the operands of a tier belong to. -/
def operand? : Tier → Option Tier
  | .comparison => some .additive
  | .additive => some .multiplicative
  | .multiplicative => some .unary
  | .unary => some .primary
  | .primary => none

/-- The operator of the tier that a token stands for. -/
def operator? : Tier → Token → Option Operator
  | .comparison, .less => some .less
  | .comparison, .greater => some .greater
  | .comparison, .equalEqual => some .equal
  | .comparison, .bangEqual => some .notEqual
  | .additive, .plus => some .add
  | .additive, .minus => some .sub
  | .multiplicative, .star => some .mul
  | .multiplicative, .slash => some .div
  | _, _ => none

end Tier

/-- The value that a token is the literal of. -/
def Token.literal? : Token → Option Value
  | .integer k => some (.integer k)
  | .real x => some (.real x)
  | .bool b => some (.bool b)
  | .str s => some (.str s)
  | _ => none

/-- Tokens between parentheses that stand on the lines `k` and `m`. -/
def parenthesized (k m : Nat) (ts : Tokens) : Tokens :=
  ⟨.leftParen, k⟩ :: (ts ++ [⟨.rightParen, m⟩])

/-- Tokens between braces that stand on the lines `k` and `m`. -/
def braced (k m : Nat) (ts : Tokens) : Tokens :=
  ⟨.leftBrace, k⟩ :: (ts ++ [⟨.rightBrace, m⟩])

/-- `Expr.Derives tier d ts e`: the tokens `ts` derive the expression `e` of the
tier, with nesting `d`. -/
inductive Expr.Derives : Tier → Nat → Tokens → Expr → Prop where
  | literal {t : Located Token} {v : Value} (hv : t.val.literal? = some v) :
      Derives .primary 0 [t] (.literal v t.line)
  | name (x : String) (n : Nat) : Derives .primary 0 [⟨.identifier x, n⟩] (.var x n)
  | group {d : Nat} {ts : Tokens} {e : Expr} (k m : Nat) (he : Derives .comparison d ts e) :
      Derives .primary (d + 1) (parenthesized k m ts) e
  | negation {d : Nat} {ts : Tokens} {e : Expr} (n : Nat) (he : Derives .unary d ts e) :
      Derives .unary (d + 1) (⟨.minus, n⟩ :: ts) (.negate e n)
  | operand {tier tighter : Tier} {d : Nat} {ts : Tokens} {e : Expr}
      (ht : tier.operand? = some tighter) (he : Derives tighter d ts e) : Derives tier d ts e
  | operator {tier tighter : Tier} {d d' : Nat} {ts us : Tokens} {l r : Expr} {op : Operator}
      {t : Located Token} (ht : tier.operand? = some tighter)
      (hop : tier.operator? t.val = some op) (hl : Derives tier d ts l)
      (hr : Derives tighter d' us r) :
      Derives tier (max d d') (ts ++ t :: us) (.binary op l r t.line)

/-- What a derivation of statements can be of: one statement, one block, or
statements with a semicolon after each. -/
inductive Phrase where
  | statement (s : Stmt)
  | block (b : Stmt)
  | statements (ss : List Stmt)

/-- `Derives d ts f`: the tokens `ts` derive the phrase `f`, with nesting `d`. -/
inductive Derives : Nat → Tokens → Phrase → Prop where
  | print {d : Nat} {ts : Tokens} {e : Expr} (n k m : Nat) (he : Expr.Derives .comparison d ts e) :
      Derives d (⟨.printWord, n⟩ :: parenthesized k m ts) (.statement (.print e n))
  | assign {d : Nat} {ts : Tokens} {e : Expr} (x : String) (n k : Nat)
      (he : Expr.Derives .comparison d ts e) :
      Derives d (⟨.identifier x, n⟩ :: ⟨.equals, k⟩ :: ts) (.statement (.assign x e n))
  | ifThen {d d₁ : Nat} {ts us : Tokens} {c : Expr} {b : Stmt} (n k m : Nat)
      (hc : Expr.Derives .comparison d ts c) (hb : Derives d₁ us (.block b)) :
      Derives (max d d₁) (⟨.ifWord, n⟩ :: (parenthesized k m ts ++ us))
        (.statement (.ifThen c b n))
  | ifElse {d d₁ d₂ : Nat} {ts us vs : Tokens} {c : Expr} {b b' : Stmt} (n k m j : Nat)
      (hc : Expr.Derives .comparison d ts c) (hb : Derives d₁ us (.block b))
      (hb' : Derives d₂ vs (.block b')) :
      Derives (max d (max d₁ d₂))
        (⟨.ifWord, n⟩ :: (parenthesized k m ts ++ (us ++ ⟨.elseWord, j⟩ :: vs)))
        (.statement (.ifElse c b b' n))
  | loop {d d₁ : Nat} {ts us : Tokens} {c : Expr} {b : Stmt} (n k m : Nat)
      (hc : Expr.Derives .comparison d ts c) (hb : Derives d₁ us (.block b)) :
      Derives (max d d₁) (⟨.whileWord, n⟩ :: (parenthesized k m ts ++ us))
        (.statement (.loop c b n))
  | block {d : Nat} {ts : Tokens} {ss : List Stmt} (n m : Nat) (hne : ss ≠ [])
      (hs : Derives d ts (.statements ss)) :
      Derives (d + 1) (braced n m ts) (.block (.block ss n))
  | none : Derives 0 [] (.statements [])
  | next {d d' : Nat} {ts us : Tokens} {s : Stmt} {ss : List Stmt} (n : Nat)
      (hs : Derives d ts (.statement s)) (hss : Derives d' us (.statements ss)) :
      Derives (max d d') (ts ++ ⟨.semicolon, n⟩ :: us) (.statements (s :: ss))

end FlatScript
