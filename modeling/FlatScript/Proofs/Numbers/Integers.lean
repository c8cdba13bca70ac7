/-
# Integer expressions are exact or overflow

An expression of integer literals and variables, negations, sums, differences and
products has an exact value among all integers (`Expr.exactValue`), whatever the
size of the numbers on the way.  Evaluation computes with 64 bits and checks each
result:

| exact values | evaluation |
| --- | --- |
| all in range | the exact value |
| one out of range | an overflow, at the first node in the order of evaluation |

So a result is never a wrong number, and it does not help that the whole would be in
range if a part of it is not (`Expr.eval_exact_or_overflow`).
-/

import FlatScript.Proofs.Kinds

namespace FlatScript
namespace Value

/-- Whether the number is in the range of the 64-bit integers. -/
def InRange (z : Int) : Prop :=
  -0x8000000000000000 ≤ z ∧ z ≤ 0x7fffffffffffffff

instance (z : Int) : Decidable (InRange z) :=
  inferInstanceAs (Decidable (_ ∧ _))

theorem inRange_toInt (n : Int64) : InRange n.toInt := by
  have hlo := n.le_toInt
  have hhi := n.toInt_lt
  unfold InRange
  omega

theorem inRange_zero : InRange 0 := by decide

/-- The number of every value is in range. -/
theorem inRange_number (v : Value) : InRange v.number := by
  cases v with
  | integer n => exact inRange_toInt n
  | _ => exact inRange_zero

/-- **A checked result is exact or an overflow**, as it is in range or not. -/
theorem exact_cases (z : Int) :
    (InRange z ∧ ∃ k : Int64, k.toInt = z ∧ exact z = .ok (.integer k)) ∨
      ¬ InRange z ∧ exact z = .error .overflow := by
  unfold exact
  cases hk : ofInt? z with
  | some k =>
    have hz := ofInt?_eq_some_iff.1 hk
    exact .inl ⟨hz ▸ inRange_toInt k, k, hz, rfl⟩
  | none =>
    refine .inr ⟨fun hrange => ?_, rfl⟩
    obtain ⟨hlo, hhi⟩ := hrange
    have hz : (Int64.ofInt z).toInt = z := Int64.toInt_ofInt_of_le (by omega) (by omega)
    rw [ofInt?_eq_some_iff.2 hz] at hk
    cases hk

end Value

namespace Operator

/-- Whether the operator makes an integer of two integers. -/
def isIntegral : Operator → Bool
  | .add | .sub | .mul => true
  | _ => false

/-- The exact result of such an operator. -/
def exactly (op : Operator) (a b : Int) : Int :=
  match op with
  | .add => a + b
  | .sub => a - b
  | .mul => a * b
  | _ => 0

/-- Sums, differences and products of integers are checked exact results. -/
theorem apply_integers {op : Operator} (h : op.isIntegral = true) (a b : Int64) :
    op.apply (.integer a) (.integer b) = Value.exact (op.exactly a.toInt b.toInt) := by
  cases op with
  | add => rfl
  | sub => rfl
  | mul => rfl
  | _ => cases h

end Operator

namespace Expr

open Value (InRange)

/-- Whether the expression is one of integer literals and variables, negations, sums,
differences and products. -/
def isIntegral : Expr → Bool
  | .literal v _ => v.kind = .integer
  | .var _ _ => true
  | .negate e _ => e.isIntegral
  | .binary op l r _ => op.isIntegral && (l.isIntegral && r.isIntegral)

/-- Whether the top node is an operator or a negation. -/
def isOperation : Expr → Bool
  | .negate _ _ | .binary _ _ _ _ => true
  | _ => false

/-- The exact value of an expression of integers, without regard to any range. -/
def exactValue (c : Context) : Expr → Int
  | .literal v _ => v.number
  | .var x _ => ((c.get? x).map Value.number).getD 0
  | .negate e _ => -e.exactValue c
  | .binary op l r _ => op.exactly (l.exactValue c) (r.exactValue c)

variable {c : Context} {e : Expr}

/-- Literals and variables are always in range. -/
theorem isOperation_of_not_inRange (h : ¬ InRange (e.exactValue c)) : e.isOperation = true := by
  cases e with
  | literal v n => exact absurd v.inRange_number h
  | var x n =>
    refine absurd ?_ h
    rw [exactValue]
    cases c.get? x with
    | some v => exact v.inRange_number
    | none => exact Value.inRange_zero
  | negate e n => rfl
  | binary op l r n => rfl

/-- How the evaluation of an expression of integers comes out. -/
inductive ComesOut (c : Context) (e : Expr) : Prop where
  /-- All nodes are in range, and the value is exact. -/
  | exact (k : Int64) (heval : e.eval c = .ok (.integer k)) (hk : k.toInt = e.exactValue c)
      (hrange : ∀ f ∈ e.nodes, InRange (f.exactValue c))
  /-- The node `f` is the first that is not in range, and overflows. -/
  | overflow (before : List Expr) (f : Expr) (after : List Expr)
      (hnodes : e.nodes = before ++ f :: after) (hbefore : ∀ g ∈ before, InRange (g.exactValue c))
      (hf : ¬ InRange (f.exactValue c)) (heval : e.eval c = .error ⟨.overflow, f.line⟩)

/-- A checked result after nodes in range comes out exact, or is the first that is
not. -/
theorem comesOut_of_exact {before : List Expr} (hnodes : e.nodes = before ++ [e])
    (hbefore : ∀ g ∈ before, InRange (g.exactValue c))
    (heval : e.eval c = onLine e.line (Value.exact (e.exactValue c))) : ComesOut c e := by
  rcases Value.exact_cases (e.exactValue c) with ⟨hrange, k, hk, hexact⟩ | ⟨hrange, hexact⟩
  · refine .exact k (by rw [heval, hexact]; rfl) hk ?_
    rw [hnodes]
    exact List.forall_mem_append.2 ⟨hbefore, List.forall_mem_singleton.2 hrange⟩
  · exact .overflow before e [] hnodes hbefore hrange (by rw [heval, hexact]; rfl)

/-- **Every expression of integers comes out exact or overflows at its first node out
of range**, if its variables are integers. -/
theorem comesOut (he : e.isIntegral = true)
    (hvars : ∀ x n, .var x n ∈ e.nodes → c.kindOf? x = some .integer) : ComesOut c e := by
  induction e with
  | literal v n =>
    obtain ⟨k, rfl⟩ := Value.exists_integer_of_kind (of_decide_eq_true he)
    exact .exact k rfl rfl (List.forall_mem_singleton.2 (Value.inRange_toInt k))
  | var x n =>
    obtain ⟨v, hv, hkind⟩ := Option.map_eq_some_iff.1 (hvars x n List.mem_cons_self)
    obtain ⟨k, rfl⟩ := Value.exists_integer_of_kind hkind
    have hvalue : (var x n).exactValue c = k.toInt := by
      rw [exactValue, hv]
      rfl
    refine .exact k (eval_var_eq_ok_iff.2 hv) hvalue.symm (List.forall_mem_singleton.2 ?_)
    rw [hvalue]
    exact Value.inRange_toInt k
  | negate e n ih =>
    cases ih he fun x m hm => hvars x m (List.mem_append_left _ hm) with
    | exact k heval hk hrange =>
      refine comesOut_of_exact rfl hrange ?_
      rw [eval, heval, exactValue, ← hk]
      rfl
    | overflow before f after hnodes hbefore hf heval =>
      refine .overflow before f (after ++ [negate e n]) ?_ hbefore hf (by rw [eval, heval])
      rw [nodes, hnodes, List.append_assoc, List.cons_append]
  | binary op l r n ihl ihr =>
    obtain ⟨hop, hlr⟩ := Bool.and_eq_true_iff.1 he
    obtain ⟨hl, hr⟩ := Bool.and_eq_true_iff.1 hlr
    cases ihl hl fun x m hm => hvars x m (List.mem_append_left _ hm) with
    | overflow before f after hnodes hbefore hf heval =>
      refine .overflow before f (after ++ (r.nodes ++ [binary op l r n])) ?_ hbefore hf
        (by rw [eval, heval])
      rw [nodes, hnodes, List.append_assoc, List.cons_append]
    | exact k heval hk hrange =>
      have hright := ihr hr fun x m hm =>
        hvars x m (List.mem_append_right _ (List.mem_append_left _ hm))
      cases hright with
      | overflow before f after hnodes hbefore hf heval' =>
        refine .overflow (l.nodes ++ before) f (after ++ [binary op l r n]) ?_
          (List.forall_mem_append.2 ⟨hrange, hbefore⟩) hf (by rw [eval, heval, heval'])
        rw [nodes, hnodes]
        simp only [List.append_assoc, List.cons_append]
      | exact k' heval' hk' hrange' =>
        refine comesOut_of_exact (List.append_assoc _ _ _).symm
          (List.forall_mem_append.2 ⟨hrange, hrange'⟩) ?_
        rw [exactValue, ← hk, ← hk', ← Operator.apply_integers hop]
        rw [eval, heval, heval']
        rfl

/-- **Integer expressions are exact or overflow, never wrong.**  If the exact value of
every expression inside is in range, evaluation gives the exact value.  Otherwise it
overflows, on the line of the first operation, operands before their operator and left
before right, whose exact value is out of range. -/
theorem eval_exact_or_overflow {c : Context} {e : Expr} (he : e.isIntegral = true)
    (hvars : ∀ x n, .var x n ∈ e.nodes → c.kindOf? x = some .integer) :
    ((∀ f ∈ e.nodes, InRange (f.exactValue c)) →
      ∃ k : Int64, e.eval c = .ok (.integer k) ∧ k.toInt = e.exactValue c) ∧
    ((∃ f ∈ e.nodes, ¬ InRange (f.exactValue c)) →
      ∃ before f after, e.nodes = before ++ f :: after ∧ f.isOperation = true ∧
        (∀ g ∈ before, InRange (g.exactValue c)) ∧ ¬ InRange (f.exactValue c) ∧
          e.eval c = .error ⟨.overflow, f.line⟩) := by
  cases comesOut he hvars with
  | exact k heval hk hrange =>
    refine ⟨fun _ => ⟨k, heval, hk⟩, ?_⟩
    rintro ⟨f, hmem, hf⟩
    exact absurd (hrange f hmem) hf
  | overflow before f after hnodes hbefore hf heval =>
    constructor
    · intro hrange
      have hmem : f ∈ e.nodes := hnodes ▸ List.mem_append_right before List.mem_cons_self
      exact absurd (hrange f hmem) hf
    · intro _
      exact ⟨before, f, after, hnodes, isOperation_of_not_inRange hf, hbefore, hf, heval⟩

/-- Where `n` is the least integer, `-(n + 1)` is the largest one.  Where `k` is the 32nd
power of two, its square on line 2 overflows: the square less itself would be zero, and
the negation of `n` on line 4 is out of range too, but comes later. -/
theorem eval_exact_or_overflow_inside :
    let c := (Context.empty.set "n" (.integer (-0x8000000000000000))).set "k"
      (.integer 0x100000000)
    let e := Expr.negate (.binary .add (.var "n" 1) (.literal (.integer 1) 1) 1) 1
    let square := Expr.binary .mul (.var "k" 2) (.var "k" 2) 2
    let e' := Expr.binary .sub (.binary .sub square square 3) (.negate (.var "n" 4) 4) 3
    (∃ k : Int64, e.eval c = .ok (.integer k) ∧ k.toInt = 0x7fffffffffffffff) ∧
      ∃ before f after, e'.nodes = before ++ f :: after ∧ f.isOperation = true ∧
        (∀ g ∈ before, InRange (g.exactValue c)) ∧ ¬ InRange (f.exactValue c) ∧
          e'.eval c = .error ⟨.overflow, f.line⟩ := by
  intro c e square e'
  have hvars : ∀ x, x ∈ ["n", "k"] → c.kindOf? x = some .integer := by decide +kernel
  constructor
  · refine (eval_exact_or_overflow rfl fun x n hm => hvars x ?_).1 ?_
    · simp [e, nodes] at hm
      simp [hm]
    · decide +kernel
  · refine (eval_exact_or_overflow rfl fun x n hm => hvars x ?_).2 ⟨square, ?_, ?_⟩
    · simp [e', square, nodes] at hm
      grind
    · exact List.mem_append_left _ (List.mem_append_left _ (mem_nodes_self square))
    · decide +kernel

end Expr
end FlatScript
