/-
# Evaluation is strict

An expression has a value only if every expression inside it has one
(`Expr.exists_eval_of_mem_nodes`): operands are always evaluated, and no
operator decides its value from one of them.

That makes it safe to refuse programs by the looks of their sums.  A sum with a
boolean literal as an operand has no value in any context
(`Expr.eval_booleanSum`), so an expression with such a sum anywhere inside has
none either, and refusing it before it runs loses nothing
(`Program.validate_refuses_only_failures`).
-/

import FlatScript.Expr.Eval
import FlatScript.Program
import FlatScript.Proofs.Nodes

namespace FlatScript

/-- A value is the same on every line. -/
theorem onLine_eq_ok_iff {α : Type} {n : Nat} {x : Except RuntimeFault α} {a : α} :
    onLine n x = .ok a ↔ x = .ok a := by
  cases x <;> simp [onLine]

namespace Expr

variable {c : Context} {v : Value} {n : Nat}

/-- A variable has the value that is found. -/
theorem eval_var_eq_ok_iff {x : String} : (var x n).eval c = .ok v ↔ c.get? x = some v := by
  rw [eval, onLine_eq_ok_iff, Context.lookup]
  cases c.get? x <;> simp

/-- A negation has a value when its operand has one that can be negated. -/
theorem eval_negate_eq_ok_iff {e : Expr} :
    (negate e n).eval c = .ok v ↔ ∃ w, e.eval c = .ok w ∧ w.negate = .ok v := by
  rw [eval]
  cases e.eval c with
  | ok w => simp [onLine_eq_ok_iff]
  | error err => simp

/-- A binary expression has a value when both operands have, and the operator fits these. -/
theorem eval_binary_eq_ok_iff {op : Operator} {l r : Expr} :
    (binary op l r n).eval c = .ok v ↔
      ∃ w w', l.eval c = .ok w ∧ r.eval c = .ok w' ∧ op.apply w w' = .ok v := by
  rw [eval]
  cases l.eval c with
  | error err => simp
  | ok w =>
    cases r.eval c with
    | error err => simp
    | ok w' => simp [onLine_eq_ok_iff]

/-- **Evaluation is strict**: with an expression, every expression inside it has
a value. -/
theorem exists_eval_of_mem_nodes {e f : Expr} (h : e.eval c = .ok v) (hf : f ∈ e.nodes) :
    ∃ w, f.eval c = .ok w := by
  induction e generalizing v with
  | literal u k =>
    obtain rfl := List.mem_singleton.1 hf
    exact ⟨v, h⟩
  | var x k =>
    obtain rfl := List.mem_singleton.1 hf
    exact ⟨v, h⟩
  | negate e k ih =>
    obtain ⟨w, he, -⟩ := eval_negate_eq_ok_iff.1 h
    rcases List.mem_append.1 hf with hf | hf
    · exact ih he hf
    · obtain rfl := List.mem_singleton.1 hf
      exact ⟨v, h⟩
  | binary op l r k ihl ihr =>
    obtain ⟨w, w', hl, hr, -⟩ := eval_binary_eq_ok_iff.1 h
    rw [nodes, List.mem_append, List.mem_append, List.mem_singleton] at hf
    rcases hf with hf | hf | rfl
    · exact ihl hl hf
    · exact ihr hr hf
    · exact ⟨v, h⟩

/-- A boolean literal has a boolean as its value. -/
theorem kind_of_isBoolLiteral {e : Expr} (hb : e.isBoolLiteral = true) (h : e.eval c = .ok v) :
    v.kind = .boolean := by
  unfold isBoolLiteral at hb
  split at hb
  · obtain rfl := Except.ok.inj h
    rfl
  · cases hb

end Expr

/-- A sum with a boolean operand is a mismatch of its own, whatever the other
operand is. -/
theorem Operator.apply_add_of_boolean {v w : Value} (h : v.kind = .boolean ∨ w.kind = .boolean) :
    Operator.add.apply v w = .error (.typeMismatch .booleanAddition) := by
  have hcompute : Operator.add.apply v w = Operator.add.compute v w := rfl
  rw [hcompute]
  unfold compute
  exact if_pos ⟨rfl, h⟩

namespace Expr

variable {c : Context} {l r : Expr} {k : Nat}

/-- **A sum with a boolean literal as an operand fails once its operands have
values**, with a mismatch on its own line. -/
theorem eval_booleanSum {v w : Value} (hb : l.isBoolLiteral = true ∨ r.isBoolLiteral = true)
    (hl : l.eval c = .ok v) (hr : r.eval c = .ok w) :
    (binary .add l r k).eval c = .error ⟨.typeMismatch .booleanAddition, k⟩ := by
  have hkind : v.kind = .boolean ∨ w.kind = .boolean :=
    hb.imp (fun h => kind_of_isBoolLiteral h hl) (fun h => kind_of_isBoolLiteral h hr)
  simp only [eval, hl, hr, Operator.apply_add_of_boolean hkind, onLine]

/-- An expression with such a sum anywhere inside has no value. -/
theorem exists_error_of_booleanSum {e : Expr} (hmem : binary .add l r k ∈ e.nodes)
    (hb : l.isBoolLiteral = true ∨ r.isBoolLiteral = true) (c : Context) :
    ∃ err, e.eval c = .error err := by
  cases he : e.eval c with
  | error err => exact ⟨err, rfl⟩
  | ok v =>
    obtain ⟨u, hu⟩ := exists_eval_of_mem_nodes he hmem
    obtain ⟨w, w', hl, hr, -⟩ := eval_binary_eq_ok_iff.1 hu
    rw [eval_booleanSum hb hl hr] at hu
    cases hu

theorem isBooleanSum_iff {e : Expr} :
    e.isBooleanSum = true ↔ ∃ l r k, e = binary .add l r k ∧
      (l.isBoolLiteral = true ∨ r.isBoolLiteral = true) := by
  constructor
  · intro h
    unfold isBooleanSum at h
    split at h
    · exact ⟨_, _, _, rfl, Bool.or_eq_true_iff.1 h⟩
    · cases h
  · rintro ⟨l, r, k, rfl, hb⟩
    exact Bool.or_eq_true_iff.2 hb

end Expr

namespace Program

/-- A program is refused exactly when one of its expressions is a boolean sum. -/
theorem validate_eq_error_iff {p : Program} :
    (∃ refusal, validate p = .error refusal) ↔ ∃ e ∈ p.nodes, e.isBooleanSum = true := by
  have hnone := booleanSum?_eq_none_iff p
  unfold validate
  cases hsum : p.booleanSum? with
  | none =>
    rw [hsum] at hnone
    simpa using hnone.1 rfl
  | some n =>
    rw [hsum] at hnone
    simpa using hnone

/-- **The check for boolean sums refuses only what fails anyway.**  It refuses
`print(e)` exactly when a sum in `e` has a boolean literal as an operand.  Then
`e` has no value in any context, and that sum, once its operands have values, is
a type mismatch on its line. -/
theorem validate_refuses_only_failures (e : Expr) (n : Nat) :
    ((∃ refusal, validate [.print e n] = .error refusal) ↔
        ∃ l r k, .binary .add l r k ∈ e.nodes ∧
          (l.isBoolLiteral = true ∨ r.isBoolLiteral = true)) ∧
      ∀ l r k, .binary .add l r k ∈ e.nodes →
        (l.isBoolLiteral = true ∨ r.isBoolLiteral = true) → ∀ c : Context,
          (∃ err, e.eval c = .error err) ∧
            ((∃ v, l.eval c = .ok v) → (∃ w, r.eval c = .ok w) →
              (Expr.binary .add l r k).eval c =
                .error ⟨.typeMismatch .booleanAddition, k⟩) := by
  refine ⟨?_, fun l r k hmem hb c => ⟨Expr.exists_error_of_booleanSum hmem hb c, ?_⟩⟩
  · have hnodes : nodes [.print e n] = e.nodes := List.append_nil _
    rw [validate_eq_error_iff, hnodes]
    constructor
    · rintro ⟨f, hmem, hf⟩
      obtain ⟨l, r, k, rfl, hb⟩ := Expr.isBooleanSum_iff.1 hf
      exact ⟨l, r, k, hmem, hb⟩
    · rintro ⟨l, r, k, hmem, hb⟩
      exact ⟨_, hmem, Expr.isBooleanSum_iff.2 ⟨l, r, k, rfl, hb⟩⟩
  · rintro ⟨v, hl⟩ ⟨w, hr⟩
    exact Expr.eval_booleanSum hb hl hr

/-- The sum on line 2 of `-(x + true) * y`, over an `x` that has a value and a `y`
that has none. -/
theorem validate_refuses_only_failures_nested :
    let sum := Expr.binary .add (.var "x" 1) (.literal (.bool true) 3) 2
    let e := Expr.binary .mul (.negate sum 1) (.var "y" 3) 3
    let c := Context.empty.set "x" (.integer 1)
    sum ∈ e.nodes ∧ (∃ err, e.eval c = .error err) ∧
      sum.eval c = .error ⟨.typeMismatch .booleanAddition, 2⟩ := by
  intro sum e c
  have hmem : sum ∈ e.nodes := by simp [e, sum, Expr.nodes]
  obtain ⟨herr, hsum⟩ := (validate_refuses_only_failures e 1).2 _ _ _ hmem (.inr rfl) c
  exact ⟨hmem, herr, hsum ⟨_, rfl⟩ ⟨_, rfl⟩⟩

end Program
end FlatScript
