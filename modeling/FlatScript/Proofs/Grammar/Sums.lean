/-
# Which boolean sum is reported

A program is refused for its first sum with a boolean literal as an operand, and
"first" is a matter of order.  The search looks at operands before their sum, as
evaluation does; a reader of the source meets the sign of the sum before its
right operand.

    true +            -- first in the source
      (true + 1)      -- first to be found

`Expr.sums` lists the sums of an expression in the order of their signs, and
these are the signs `+` among the tokens (`Derives.plusLines_eq`).  The search
finds, of the boolean sums that hold no other, the first in that order
(`Expr.find?_nodes`, `Program.booleanSum?_eq_sums`).  So the sum that is reported
is the first in the source exactly when that one holds no other
(`Program.parse_booleanSum`).
-/

import FlatScript.Proofs.Grammar.Program
import FlatScript.Token.Scan

namespace FlatScript
namespace Expr

/-- The sums in an expression, in the order of their signs in the source. -/
def sums : Expr → List Expr
  | .literal _ _ | .var _ _ => []
  | .negate e _ => e.sums
  | .binary op l r n => l.sums ++ ((if op = .add then [.binary op l r n] else []) ++ r.sums)

/-- Whether the top node is a boolean sum that holds no other in its operands. -/
def isInnermostSum : Expr → Bool
  | .binary .add l r n => (binary .add l r n).isBooleanSum && !(l.nodes ++ r.nodes).any isBooleanSum
  | _ => false

theorem isBooleanSum_of_isInnermostSum {e : Expr} (h : e.isInnermostSum = true) :
    e.isBooleanSum = true := by
  unfold isInnermostSum at h
  split at h
  · exact (Bool.and_eq_true_iff.1 h).1
  · cases h

/-- The top node counts only if its operands hold no boolean sum. -/
theorem find?_self (op : Operator) (l r : Expr) (n : Nat) :
    (if op = .add then [binary op l r n] else []).find? isInnermostSum =
      if ((l.nodes ++ r.nodes).find? isBooleanSum).isSome then none
      else [binary op l r n].find? isBooleanSum := by
  rw [List.isSome_find?]
  cases op with
  | add =>
    rw [if_pos rfl, List.find?_singleton, List.find?_singleton, isInnermostSum]
    cases (l.nodes ++ r.nodes).any isBooleanSum <;> simp
  | _ => simp [isBooleanSum]

/-- **The search for a boolean sum finds, of those that hold no other, the first in
the source.** -/
theorem find?_nodes (e : Expr) :
    e.nodes.find? isBooleanSum = e.sums.find? isInnermostSum := by
  induction e with
  | literal v n => rfl
  | var x n => rfl
  | negate e n ih =>
    rw [nodes, sums, List.find?_append, ih]
    simp [isBooleanSum]
  | binary op l r n ihl ihr =>
    simp only [nodes, sums, List.find?_append, find?_self, ihl, ihr]
    -- A sum in the left operand comes first in both orders; one in the right operand comes
    -- before the top node in the search, and rules it out in the source.
    cases l.sums.find? isInnermostSum with
    | some f => rfl
    | none =>
      cases r.sums.find? isInnermostSum with
      | some f => rfl
      | none => simp

end Expr

namespace Stmt

mutual

/-- The sums in a statement, in the order of their signs in the source. -/
def sums : Stmt → List Expr
  | .print e _ | .assign _ e _ => e.sums
  | .ifThen c s _ => c.sums ++ s.sums
  | .ifElse c s t _ => c.sums ++ (s.sums ++ t.sums)
  | .loop c s _ => c.sums ++ s.sums
  | .block ss _ => sumsOf ss

/-- The sums in a list of statements, in the order of their signs in the source. -/
def sumsOf : List Stmt → List Expr
  | [] => []
  | s :: ss => s.sums ++ sumsOf ss

end

mutual

/-- The first boolean sum of a statement is its first innermost one. -/
theorem find?_nodes :
    ∀ s : Stmt, s.nodes.find? Expr.isBooleanSum = s.sums.find? Expr.isInnermostSum
  | .print e _ => e.find?_nodes
  | .assign _ e _ => e.find?_nodes
  | .ifThen c s _ => by
    rw [nodes, sums, List.find?_append, List.find?_append, c.find?_nodes, find?_nodes s]
  | .ifElse c s t _ => by
    simp only [nodes, sums, List.find?_append, c.find?_nodes, find?_nodes s, find?_nodes t]
  | .loop c s _ => by
    rw [nodes, sums, List.find?_append, List.find?_append, c.find?_nodes, find?_nodes s]
  | .block ss _ => by
    rw [nodes, sums, find?_nodesOf ss]

/-- The first boolean sum of statements is their first innermost one. -/
theorem find?_nodesOf :
    ∀ ss : List Stmt,
      (nodesOf ss).find? Expr.isBooleanSum = (sumsOf ss).find? Expr.isInnermostSum
  | [] => rfl
  | s :: ss => by
    rw [nodesOf, sumsOf, List.find?_append, List.find?_append, find?_nodes s, find?_nodesOf ss]

end

end Stmt

/-- The lines of the signs `+` among the tokens, in order. -/
def plusLines (ts : Tokens) : List Nat :=
  (ts.filter fun t => t.val = .plus).map Located.line

@[simp] theorem plusLines_append (ts us : Tokens) :
    plusLines (ts ++ us) = plusLines ts ++ plusLines us := by
  simp [plusLines]

/-- A plus sign is counted where it stands. -/
theorem plusLines_cons (t : Located Token) (ts : Tokens) :
    plusLines (t :: ts) = (if t.val = .plus then [t.line] else []) ++ plusLines ts := by
  by_cases ht : t.val = .plus <;> simp [plusLines, ht]

@[simp] theorem plusLines_parenthesized (k m : Nat) (ts : Tokens) :
    plusLines (parenthesized k m ts) = plusLines ts := by
  simp [parenthesized, plusLines]

@[simp] theorem plusLines_braced (k m : Nat) (ts : Tokens) :
    plusLines (braced k m ts) = plusLines ts := by
  simp [braced, plusLines]

/-- The sign `+` is the only one that stands for a sum, and stands for nothing else. -/
theorem Tier.eq_plus_iff {tier : Tier} {t : Token} {op : Operator}
    (h : tier.operator? t = some op) : t = .plus ↔ op = .add := by
  unfold operator? at h
  split at h <;> cases h <;> simp

theorem Token.ne_plus_of_literal? {t : Token} {v : Value} (h : t.literal? = some v) :
    t ≠ .plus := by
  rintro rfl
  cases h

/-- **The sums of a derived expression are the signs `+` among its tokens**, in the
same order and on the same lines. -/
theorem Expr.Derives.plusLines_eq {tier : Tier} {d : Nat} {ts : Tokens} {e : Expr}
    (h : Derives tier d ts e) : plusLines ts = e.sums.map Expr.line := by
  induction h with
  | literal hv => simp [plusLines, Expr.sums, Token.ne_plus_of_literal? hv]
  | name x n => rfl
  | group k m _ ih => rw [plusLines_parenthesized, ih]
  | negation n _ ih =>
    rw [plusLines_cons, if_neg (by simp), ih]
    rfl
  | operand _ _ ih => exact ih
  | @operator tier tighter d d' ts us l r op t ht hop _ _ ihl ihr =>
    rw [plusLines_append, plusLines_cons, ihl, ihr, Expr.sums]
    simp only [Tier.eq_plus_iff hop, List.map_append]
    by_cases hadd : op = .add
    · simp [hadd, Expr.line]
    · simp [hadd]

/-- The sums in a phrase, in the order of their signs in the source. -/
def Phrase.sums : Phrase → List Expr
  | .statement s | .block s => s.sums
  | .statements ss => Stmt.sumsOf ss

/-- The sums of a derived phrase are the signs `+` among its tokens. -/
theorem Derives.plusLines_eq {d : Nat} {ts : Tokens} {f : Phrase} (h : Derives d ts f) :
    plusLines ts = f.sums.map Expr.line := by
  induction h with
  | print n k m he => simp [plusLines_cons, Phrase.sums, Stmt.sums, he.plusLines_eq]
  | assign x n k he => simp [plusLines_cons, Phrase.sums, Stmt.sums, he.plusLines_eq]
  | ifThen n k m hc _ ih =>
    simp [plusLines_cons, Phrase.sums, Stmt.sums, hc.plusLines_eq, ih]
  | ifElse n k m j hc _ _ ih ih' =>
    simp [plusLines_cons, Phrase.sums, Stmt.sums, hc.plusLines_eq, ih, ih']
  | loop n k m hc _ ih =>
    simp [plusLines_cons, Phrase.sums, Stmt.sums, hc.plusLines_eq, ih]
  | block n m _ _ ih => simp [Phrase.sums, Stmt.sums, ih]
  | none => rfl
  | next n _ _ ih ihs =>
    simp [plusLines_cons, Phrase.sums, Stmt.sumsOf, ih, ihs]

namespace Program

/-- The sums in a program, in the order of their signs in the source. -/
def sums (p : Program) : List Expr :=
  Stmt.sumsOf p

/-- The line that a program is refused for is that of the first, in the source, of
the boolean sums that hold no other. -/
theorem booleanSum?_eq_sums (p : Program) :
    p.booleanSum? = (p.sums.find? Expr.isInnermostSum).map Expr.line := by
  rw [booleanSum?, Stmt.booleanSums?_eq, Stmt.find?_nodesOf]
  rfl

/-- Tokens that are statements with a boolean sum are refused for it. -/
theorem parse_of_booleanSum {ts : Tokens} {p : Program} (h : statements ts = .ok p)
    (hsum : ∃ e ∈ p.nodes, e.isBooleanSum = true) :
    ∃ e, p.sums.find? Expr.isInnermostSum = some e ∧
      parse ts = .error ⟨.booleanAddition, e.line⟩ := by
  have hfind : ((nodes p).find? Expr.isBooleanSum).isSome = true := List.find?_isSome.2 hsum
  rw [nodes, Stmt.find?_nodesOf] at hfind
  obtain ⟨e, he⟩ := Option.isSome_iff_exists.1 hfind
  refine ⟨e, he, ?_⟩
  have hline : p.booleanSum? = some e.line := by
    rw [booleanSum?_eq_sums, sums, he]
    rfl
  simp only [parse, h, validate, hline]

/-- **Which boolean sum is reported.**  Tokens that are statements and have a
boolean sum are refused.  The sums are the signs `+` in order, and the one that is
reported is the first in the source of those boolean sums that hold no other; it
is the first of all boolean sums exactly when that one holds no other. -/
theorem parse_booleanSum {ts : Tokens} {p : Program} (h : statements ts = .ok p)
    (hsum : ∃ e ∈ p.nodes, e.isBooleanSum = true) :
    plusLines ts = p.sums.map Expr.line ∧
      ∃ reported first, p.sums.find? Expr.isInnermostSum = some reported ∧
        p.sums.find? Expr.isBooleanSum = some first ∧
          parse ts = .error ⟨.booleanAddition, reported.line⟩ ∧
            (reported = first ↔ first.isInnermostSum = true) := by
  obtain ⟨d, -, hder, -⟩ := statements_eq_ok_iff.1 h
  obtain ⟨reported, hreported, hparse⟩ := parse_of_booleanSum h hsum
  have hinner : reported.isInnermostSum = true := List.find?_some hreported
  have hany : (p.sums.find? Expr.isBooleanSum).isSome = true :=
    List.find?_isSome.2 ⟨reported, List.mem_of_find?_eq_some hreported,
      Expr.isBooleanSum_of_isInnermostSum hinner⟩
  obtain ⟨first, hfirst⟩ := Option.isSome_iff_exists.1 hany
  refine ⟨hder.plusLines_eq, reported, first, hreported, hfirst, hparse, ?_⟩
  constructor
  · rintro rfl
    exact hinner
  · intro hfirstInner
    -- Nothing before the first boolean sum is one, so nothing there holds no other.
    obtain ⟨-, before, after, hsums, hbefore⟩ := List.find?_eq_some_iff_append.1 hfirst
    have hfound : p.sums.find? Expr.isInnermostSum = some first := by
      refine List.find?_eq_some_iff_append.2 ⟨hfirstInner, before, after, hsums, fun e he => ?_⟩
      have hno := hbefore e he
      rw [Bool.not_eq_true'] at hno ⊢
      rw [← Bool.not_eq_true] at hno ⊢
      exact fun hin => hno (Expr.isBooleanSum_of_isInnermostSum hin)
    exact Option.some.inj (hreported.symm.trans hfound)

/-- Four sums on four lines, of which the last three are boolean.  The sum on line 2
holds the one on line 3, and is an operand of the one on line 4; so the one on line
2 is the first boolean sum in the source, and the one on line 3 is reported. -/
theorem parse_booleanSum_nested :
    let ts := tokensOf "n = 1 + 2;\nprint(true +\n-(n +\nfalse) + true);"
    let inner := Expr.binary .add (.var "n" 3) (.literal (.bool false) 4) 3
    let outer := Expr.binary .add (.literal (.bool true) 2) (.negate inner 3) 2
    let p : Program := [.assign "n"
        (.binary .add (.literal (.integer 1) 1) (.literal (.integer 2) 1) 1) 1,
      .print (.binary .add outer (.literal (.bool true) 4) 4) 2]
    statements ts = .ok p ∧ (∃ e ∈ p.nodes, e.isBooleanSum = true) ∧ plusLines ts = [1, 2, 3, 4] ∧
      parse ts = .error ⟨.booleanAddition, 3⟩ ∧ (inner = outer ↔ outer.isInnermostSum = true) := by
  intro ts inner outer p
  have hp : statements ts = .ok p := by with_unfolding_all rfl
  have hsum : ∃ e ∈ p.nodes, e.isBooleanSum = true := List.any_eq_true.1 rfl
  obtain ⟨hlines, reported, first, hreported, hfirst, hparse, hiff⟩ := parse_booleanSum hp hsum
  obtain rfl : inner = reported := Option.some.inj hreported
  obtain rfl : outer = first := Option.some.inj hfirst
  exact ⟨hp, hsum, hlines, hparse, hiff⟩

/-- **The boolean sum that is reported need not be the first in the source**: of two
signs, on the lines 1 and 2 and both of boolean sums, the second is reported. -/
theorem exists_booleanSum_before_reported :
    let ts := tokensOf "print(true +\n(true + 1));"
    let inner := Expr.binary .add (.literal (.bool true) 2) (.literal (.integer 1) 2) 2
    let outer := Expr.binary .add (.literal (.bool true) 1) inner 1
    let p : Program := [.print outer 1]
    statements ts = .ok p ∧ p.sums = [outer, inner] ∧ plusLines ts = [1, 2] ∧
      p.sums.find? Expr.isBooleanSum = some outer ∧ outer.line = 1 ∧
        parse ts = .error ⟨.booleanAddition, 2⟩ := by
  intro ts inner outer p
  have hp : statements ts = .ok p := by with_unfolding_all rfl
  have hparse : parse ts = .error ⟨.booleanAddition, 2⟩ := by with_unfolding_all rfl
  exact ⟨hp, rfl, by decide +kernel, rfl, rfl, hparse⟩

end Program
end FlatScript
