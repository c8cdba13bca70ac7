/-
# Kinds decide type errors

The kind of an expression can be told before it runs, from the kinds of the
variables alone (`Expr.kind?`).  The kinds of the operands decide whether an
operator fits them, and which kind its result has:

| operands | `+` | `-`, `*` | `/` | comparison |
| --- | --- | --- | --- | --- |
| two integers | integer | integer | float | boolean |
| other numbers | float | float | float | boolean |
| two strings | string | | | boolean |
| two booleans | | | | boolean |
| any others | | | | |

Where the table is blank the operator is a mismatch; elsewhere it has a value of
that kind, unless the numbers themselves are at fault, by a zero divisor or a
result out of range (`Operator.foretells_apply`).  So an expression that has a
value in one context is no mismatch in any other context of the same kinds
(`Expr.eval_of_same_kinds`).
-/

import FlatScript.Proofs.Strictness

namespace FlatScript

namespace Kind

/-- Whether values of the two kinds are ordered together. -/
def goesWith (k k' : Kind) : Bool :=
  k = k' || k.isNumber && k'.isNumber

end Kind

namespace Operator

/-- The kind of what is computed from operands of two kinds, if the operator fits
them. -/
def computedKind? (op : Operator) : Kind → Kind → Option Kind
  | .integer, .integer => some (if op = .div then .float else .integer)
  | .integer, .float | .float, .integer | .float, .float => some .float
  | .string, .string => if op = .add then some .string else none
  | _, _ => none

/-- The kind that the operator gives to operands of two kinds, if it fits them. -/
def kind? (op : Operator) (k k' : Kind) : Option Kind :=
  if op.isComparison then
    if k.goesWith k' then some .boolean else none
  else op.computedKind? k k'

end Operator

/-- The kind of an expression over variables of the given kinds, if every
operator in it fits its operands and every variable has a kind. -/
def Expr.kind? (kinds : String → Option Kind) : Expr → Option Kind
  | .literal v _ => some v.kind
  | .var x _ => kinds x
  | .negate e _ => (e.kind? kinds).filter Kind.isNumber
  | .binary op l r _ => (l.kind? kinds).bind fun k => (r.kind? kinds).bind (op.kind? k)

/-- What a kind foretells of an operation: a value of that kind, or a fault of
the numbers.  No kind foretells a mismatch. -/
def Foretells : Option Kind → Except RuntimeFault Value → Prop
  | some k, .ok v => v.kind = k
  | some _, .error fault => fault = .divisionByZero ∨ fault = .overflow
  | none, .ok _ => False
  | none, .error fault => ∃ cause, fault = .typeMismatch cause

/-- What a kind foretells of an evaluation: the same, a fault on some line. -/
def Settles (k : Kind) (r : Except RuntimeError Value) : Prop :=
  (∃ v, r = .ok v ∧ v.kind = k) ∨
    ∃ err, r = .error err ∧ (err.val = .divisionByZero ∨ err.val = .overflow)

/-- A value has the kind that was foretold. -/
theorem Foretells.eq_some {k? : Option Kind} {v : Value} (h : Foretells k? (.ok v)) :
    k? = some v.kind := by
  cases k? with
  | none => exact h.elim
  | some k => exact congrArg some (Eq.symm h)

/-- What is foretold of an operation settles its evaluation on a line. -/
theorem Foretells.settles {k : Kind} {r : Except RuntimeFault Value} (h : Foretells (some k) r)
    (n : Nat) : Settles k (onLine n r) := by
  cases r with
  | ok v => exact .inl ⟨v, rfl, h⟩
  | error fault => exact .inr ⟨⟨fault, n⟩, rfl, h⟩

namespace Value

/-- The number that an integer stands for; other values stand for none. -/
def number : Value → Int
  | .integer n => n.toInt
  | _ => 0

/-- What has the kind of an integer is one. -/
theorem exists_integer_of_kind {v : Value} (h : v.kind = .integer) : ∃ n, v = .integer n := by
  cases v with
  | integer n => exact ⟨n, rfl⟩
  | _ => cases h

/-- A checked integer is an integer or an overflow. -/
theorem foretells_exact (n : Int) : Foretells (some .integer) (exact n) := by
  unfold exact
  split
  · rfl
  · exact .inr rfl

theorem foretells_finite (x : Float) : Foretells (some .float) (finite x) := by
  unfold finite
  split
  · rfl
  · exact .inr rfl

/-- The negative of a number has its kind. -/
theorem foretells_negate (v : Value) :
    Foretells ((some v.kind).filter Kind.isNumber) v.negate := by
  cases v with
  | integer n => exact foretells_exact _
  | real x => rfl
  | bool b => exact ⟨_, rfl⟩
  | str s => exact ⟨_, rfl⟩

/-- Values of kinds that go together are ordered or, for a NaN, found to have no
order. -/
theorem exists_order {v w : Value} (h : v.kind.goesWith w.kind = true) :
    ∃ o, v.order w = .ok o := by
  cases v <;> cases w <;> first
    | exact ⟨_, rfl⟩
    | simp [kind, Kind.goesWith, Kind.isNumber] at h

/-- Values of any other kinds are incomparable. -/
theorem order_eq_error {v w : Value} (h : v.kind.goesWith w.kind = false) :
    v.order w = .error (.typeMismatch (.incomparable v.kind w.kind)) := by
  cases v <;> cases w <;> first
    | rfl
    | simp [kind, Kind.goesWith, Kind.isNumber] at h

/-- Where a float is to be had from both values, both are demanded as numbers. -/
theorem isNumber_and_of_toFloat? {v w : Value} {x y : Float} (hv : v.toFloat? = some x)
    (hw : w.toFloat? = some y) : (v.kind.isNumber && w.kind.isNumber) = true := by
  rw [exists_toFloat?_eq_some_iff.1 ⟨x, hv⟩, exists_toFloat?_eq_some_iff.1 ⟨y, hw⟩]
  rfl

/-- Two numbers that are not both integers are ordered as floats. -/
theorem order_eq_floatOrder {v w : Value} {x y : Float} (hv : v.toFloat? = some x)
    (hw : w.toFloat? = some y) (hkinds : v.kind = .integer → w.kind ≠ .integer) :
    v.order w = .ok (floatOrder x y) := by
  unfold order
  split
  · exact absurd rfl (hkinds rfl)
  · cases hv
  · cases hv
  · rw [if_pos (isNumber_and_of_toFloat? hv hw), onNumbers_eq hv hw]

end Value

namespace Operator

variable {op : Operator}

/-- Two numbers that are not both integers are computed with as floats. -/
theorem compute_eq_onFloats {v w : Value} {x y : Float} (hv : v.toFloat? = some x)
    (hw : w.toFloat? = some y) (hkinds : v.kind = .integer → w.kind ≠ .integer) :
    op.compute v w = op.onFloats x y := by
  have hv' := Value.exists_toFloat?_eq_some_iff.1 ⟨x, hv⟩
  have hw' := Value.exists_toFloat?_eq_some_iff.1 ⟨y, hw⟩
  have hbool : ¬ (op = .add ∧ (v.kind = .boolean ∨ w.kind = .boolean)) := by
    rintro ⟨-, h | h⟩
    · rw [h] at hv'
      cases hv'
    · rw [h] at hw'
      cases hw'
  unfold compute
  rw [if_neg hbool]
  split
  · exact absurd rfl (hkinds rfl)
  · cases hv
  · rw [if_pos (Value.isNumber_and_of_toFloat? hv hw), Value.onNumbers_eq hv hw]

/-- **Numbers that are not both integers meet as floats**: both are demanded as numbers,
and neither demand fails. -/
theorem apply_mixed (op : Operator) {v w : Value} (hv : v.kind.isNumber = true)
    (hw : w.kind.isNumber = true) (hmixed : v.kind = .integer → w.kind ≠ .integer) :
    ∃ x y, v.asNumber = .ok x ∧ w.asNumber = .ok y ∧
      op.apply v w =
        if op.isComparison then .ok (.bool (op.holds (Value.floatOrder x y)))
        else op.onFloats x y := by
  obtain ⟨x, hx⟩ := Value.exists_toFloat?_eq_some_iff.2 hv
  obtain ⟨y, hy⟩ := Value.exists_toFloat?_eq_some_iff.2 hw
  refine ⟨x, y, Value.asNumber_of_toFloat? hx, Value.asNumber_of_toFloat? hy, ?_⟩
  unfold apply
  split
  · rename_i hop
    rw [compare, if_pos hop, Value.order_eq_floatOrder hx hy hmixed]
  · exact compute_eq_onFloats hx hy hmixed

/-- Integers divide to a float, and make integers otherwise. -/
theorem foretells_onIntegers (h : op.isComparison = false) (a b : Int64) :
    Foretells (some (if op = .div then .float else .integer)) (op.onIntegers a b) := by
  cases op with
  | add | sub | mul => exact Value.foretells_exact _
  | div =>
    rw [onIntegers, if_pos rfl]
    split
    · exact .inl rfl
    · exact Value.foretells_finite _
  | less | greater | equal | notEqual => cases h

/-- Floats make floats. -/
theorem foretells_onFloats (h : op.isComparison = false) (x y : Float) :
    Foretells (some .float) (op.onFloats x y) := by
  cases op with
  | add | sub | mul => exact Value.foretells_finite _
  | div =>
    rw [onFloats]
    split
    · exact .inl rfl
    · exact Value.foretells_finite _
  | less | greater | equal | notEqual => cases h

/-- Values are compared when their kinds go together. -/
theorem foretells_compare (h : op.isComparison = true) (v w : Value) :
    Foretells (if v.kind.goesWith w.kind then some .boolean else none) (op.compare v w) := by
  rw [compare, if_pos h]
  cases hkinds : v.kind.goesWith w.kind with
  | true =>
    obtain ⟨o, ho⟩ := Value.exists_order hkinds
    rw [ho]
    rfl
  | false =>
    rw [Value.order_eq_error hkinds]
    exact ⟨_, rfl⟩

/-- What is computed has the kind that the operands foretell. -/
theorem foretells_compute (h : op.isComparison = false) (v w : Value) :
    Foretells (op.computedKind? v.kind w.kind) (op.compute v w) := by
  unfold compute
  split
  · -- The sum of a boolean and anything else has no place in the table.
    rename_i hb
    cases v <;> cases w <;> first
      | exact ⟨_, rfl⟩
      | simp [Value.kind] at hb
  split
  · exact foretells_onIntegers h _ _
  · simp only [Value.kind, computedKind?]
    split
    · rfl
    · exact ⟨_, rfl⟩
  · rename_i hint hstr
    cases v <;> cases w <;> first
      | exact foretells_onFloats h _ _
      | exact ⟨_, rfl⟩
      | exact (hint _ _ rfl rfl).elim
      | exact (hstr _ _ rfl rfl).elim

/-- **The kinds of its operands decide whether an operator fits them**, and the
kind of its result. -/
theorem foretells_apply (op : Operator) (v w : Value) :
    Foretells (op.kind? v.kind w.kind) (op.apply v w) := by
  unfold apply kind?
  cases h : op.isComparison with
  | true => exact foretells_compare h v w
  | false => exact foretells_compute h v w

end Operator

namespace Expr

variable {c : Context} {e : Expr} {k : Kind} {v : Value}

/-- An expression that has a value has its kind. -/
theorem kind?_of_eval (h : e.eval c = .ok v) : e.kind? c.kindOf? = some v.kind := by
  induction e generalizing v with
  | literal u n =>
    obtain rfl := Except.ok.inj h
    rfl
  | var x n =>
    rw [kind?, Context.kindOf?, eval_var_eq_ok_iff.1 h]
    rfl
  | negate e n ih =>
    obtain ⟨w, hw, hv⟩ := eval_negate_eq_ok_iff.1 h
    have hkind := w.foretells_negate
    rw [hv] at hkind
    rw [kind?, ih hw]
    exact hkind.eq_some
  | binary op l r n ihl ihr =>
    obtain ⟨w, w', hl, hr, hv⟩ := eval_binary_eq_ok_iff.1 h
    have hkind := op.foretells_apply w w'
    rw [hv] at hkind
    rw [kind?, ihl hl, ihr hr]
    exact hkind.eq_some

/-- **An expression that has a kind has a value of that kind**, unless its numbers
are at fault. -/
theorem settles_of_kind? (h : e.kind? c.kindOf? = some k) : Settles k (e.eval c) := by
  induction e generalizing k with
  | literal u n => exact .inl ⟨u, rfl, Option.some.inj h⟩
  | var x n =>
    obtain ⟨v, hv, hk⟩ := Option.map_eq_some_iff.1 h
    exact .inl ⟨v, eval_var_eq_ok_iff.2 hv, hk⟩
  | negate e n ih =>
    obtain ⟨he, hnumber⟩ := Option.filter_eq_some_iff.1 h
    rw [eval]
    rcases ih he with ⟨v, hv, rfl⟩ | ⟨err, herr, hnumbers⟩
    · have hkind := v.foretells_negate
      rw [Option.filter_some_pos hnumber] at hkind
      rw [hv]
      exact hkind.settles n
    · rw [herr]
      exact .inr ⟨err, rfl, hnumbers⟩
  | binary op l r n ihl ihr =>
    obtain ⟨kl, hl, h⟩ := Option.bind_eq_some_iff.1 h
    obtain ⟨kr, hr, h⟩ := Option.bind_eq_some_iff.1 h
    rw [eval]
    rcases ihl hl with ⟨v, hv, rfl⟩ | ⟨err, herr, hnumbers⟩
    · rcases ihr hr with ⟨w, hw, rfl⟩ | ⟨err, herr, hnumbers⟩
      · have hkind := op.foretells_apply v w
        rw [h] at hkind
        rw [hv, hw]
        exact hkind.settles n
      · rw [hv, herr]
        exact .inr ⟨err, rfl, hnumbers⟩
    · rw [herr]
      exact .inr ⟨err, rfl, hnumbers⟩

/-- **Kinds decide type errors, values do not.**  Where an expression has a value,
it has one of the same kind in every context that gives the same variables the
same kinds, or else a divisor is zero or a number out of range there.  It is
never a mismatch, and no variable is missing. -/
theorem eval_of_same_kinds {c d : Context} {e : Expr} {v : Value}
    (hkinds : ∀ x, c.kindOf? x = d.kindOf? x) (h : e.eval c = .ok v) :
    (∃ w, e.eval d = .ok w ∧ w.kind = v.kind) ∨
      ∃ err, e.eval d = .error err ∧ (err.val = .divisionByZero ∨ err.val = .overflow) := by
  have hkind := kind?_of_eval h
  rw [funext hkinds] at hkind
  exact settles_of_kind? hkind

/-- `-n * n < 10 / m` has a value where both variables are 3.  In a context of the
same kinds, in another order, its product overflows on line 2. -/
theorem eval_of_same_kinds_overflow :
    let e := Expr.binary .less (.binary .mul (.negate (.var "n" 1) 1) (.var "n" 2) 2)
      (.binary .div (.literal (.integer 10) 3) (.var "m" 3) 3) 3
    let c := (Context.empty.set "n" (.integer 3)).set "m" (.integer 3)
    let d := (Context.empty.set "m" (.integer 0)).set "n" (.integer 0x100000000)
    (∀ x, c.kindOf? x = d.kindOf? x) ∧ e.eval c = .ok (.bool true) ∧
      e.eval d = .error ⟨.overflow, 2⟩ ∧
        ((∃ w, e.eval d = .ok w ∧ w.kind = .boolean) ∨
          ∃ err, e.eval d = .error err ∧
            (err.val = .divisionByZero ∨ err.val = .overflow)) := by
  intro e c d
  have hkinds : ∀ x, c.kindOf? x = d.kindOf? x := by
    intro x
    by_cases hn : x = "n" <;> by_cases hm : x = "m" <;>
      simp [c, d, Context.kindOf?, Context.get?_set, hn, hm, Value.kind]
  have hc : e.eval c = .ok (.bool true) := rfl
  exact ⟨hkinds, hc, rfl, eval_of_same_kinds hkinds hc⟩

end Expr
end FlatScript
