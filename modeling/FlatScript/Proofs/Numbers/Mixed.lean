/-
# Comparing integers with floats

Numbers of one kind are compared by their exact values.  An integer meets a float
as the float nearest to it:

| compared | by |
| --- | --- |
| two integers | their values |
| two floats | their exact values |
| an integer and a float | the exact values of the nearest float and of the float |

Rounding moves no integer past a float, so that the last row is about the integer
itself as long as the float is not the one it is rounded to
(`Value.compareAs_toInt`).  Beyond `2 ^ 53` there are more integers than floats.
Two of them may be equal to a float in between without being equal to each other,
and nothing else keeps `==` from being transitive (`Value.Equal.trans_or`).
-/

import FlatScript.Proofs.Kinds
import FlatScript.Proofs.Numbers.Nearest

namespace FlatScript

namespace Operator

variable {op : Operator} {a b : ℚ}

/-- What a comparison says of two numbers. -/
def Says (op : Operator) (a b : ℚ) : Prop :=
  match op with
  | .less => a < b
  | .greater => b < a
  | .equal => a = b
  | _ => a ≠ b

instance (op : Operator) (a b : ℚ) : Decidable (op.Says a b) :=
  match op with
  | .less => inferInstanceAs (Decidable (a < b))
  | .greater => inferInstanceAs (Decidable (b < a))
  | .equal => inferInstanceAs (Decidable (a = b))
  | .notEqual | .add | .sub | .mul | .div => inferInstanceAs (Decidable (a ≠ b))

/-- A comparison depends on the order of two numbers only. -/
theorem says_congr {a' b' : ℚ} (hlt : a < b ↔ a' < b') (hgt : b < a ↔ b' < a') :
    op.Says a b ↔ op.Says a' b' := by
  have heq : a = b ↔ a' = b' := by
    rw [eq_iff_le_not_lt, eq_iff_le_not_lt, ← not_lt, ← not_lt, hlt, hgt]
  cases op with
  | less => exact hlt
  | greater => exact hgt
  | equal => exact heq
  | _ => exact not_congr heq

/-- The order found answers every comparison. -/
theorem compare_of_order {v w : Value} {o : Ordering} (hop : op.isComparison = true)
    (horder : v.order w = .ok (some o)) (h : o.Compares a b) :
    op.compare v w = .ok (.bool (decide (op.Says a b))) := by
  have hholds : op.holds (some o) = decide (op.Says a b) := by
    rw [Bool.eq_iff_iff, decide_eq_true_iff]
    cases op with
    | add => exact absurd hop (by decide)
    | sub => exact absurd hop (by decide)
    | mul => exact absurd hop (by decide)
    | div => exact absurd hop (by decide)
    | less => simpa [holds, Says] using h.eq_lt
    | greater => simpa [holds, Says] using h.eq_gt
    | equal => simpa [holds, Says] using h.eq_eq
    | notEqual => simpa [holds, Says] using not_congr h.eq_eq
  unfold compare
  rw [if_pos hop, horder, ← hholds]

/-- **Two integers are compared by their values.** -/
theorem compare_integers (hop : op.isComparison = true) (a b : Int64) :
    op.compare (.integer a) (.integer b) = .ok (.bool (decide (op.Says a.toInt b.toInt))) := by
  have horder : Value.order (.integer a) (.integer b) =
      .ok (some (if a.toInt < b.toInt then .lt else if a.toInt = b.toInt then .eq else .gt)) := rfl
  refine compare_of_order hop horder ?_
  rcases lt_trichotomy a.toInt b.toInt with hlt | heq | hgt
  · rw [if_pos hlt]
    exact Int.cast_lt.2 hlt
  · rw [if_neg heq.not_lt, if_pos heq]
    exact congrArg Int.cast heq
  · rw [if_neg hgt.not_gt, if_neg hgt.ne']
    exact Int.cast_lt.2 hgt

/-- **Two numbers that are not both integers are compared by their floats.** -/
theorem compare_floats {v w : Value} {x y : Float} (hop : op.isComparison = true)
    (hv : v.toFloat? = some x) (hw : w.toFloat? = some y)
    (hkinds : v.kind = .integer → w.kind ≠ .integer) (hx : x.isFinite = true)
    (hy : y.isFinite = true) :
    op.compare v w = .ok (.bool (decide (op.Says (exactOf x) (exactOf y)))) := by
  obtain ⟨o, ho, hcompares⟩ := Value.floatOrder_exact hx hy
  exact compare_of_order hop (ho ▸ Value.order_eq_floatOrder hv hw hkinds) hcompares

end Operator

namespace Value

/-- Two values are compared as two numbers are, in either order. -/
def CompareAs (line : Nat) (v w : Value) (a b : ℚ) : Prop :=
  ∀ op : Operator, op.isComparison = true →
    onLine line (op.compare v w) = .ok (.bool (decide (op.Says a b))) ∧
      onLine line (op.compare w v) = .ok (.bool (decide (op.Says b a)))

/-- `==` holds between two values. -/
def Equal (line : Nat) (v w : Value) : Prop :=
  onLine line (Operator.equal.compare v w) = .ok (.bool true)

instance (line : Nat) (v w : Value) : Decidable (Equal line v w) :=
  inferInstanceAs (Decidable (_ = _))

variable {u v w : Value} {line : Nat}

/-- **An integer meets a float as the float nearest to it.** -/
theorem compareAs_nearestFloat (n : Int64) {x : Float} (hx : x.isFinite = true) (line : Nat) :
    CompareAs line (.integer n) (.real x) (exactOf (nearestFloat n)) (exactOf x) := by
  have hn := (isNearest_nearestFloat n).finite
  intro op hop
  rw [onLine_eq_ok_iff, onLine_eq_ok_iff]
  exact ⟨Operator.compare_floats hop rfl rfl (by simp [kind]) hn hx,
    Operator.compare_floats hop rfl rfl (by simp [kind]) hx hn⟩

/-- **Rounding is not seen by the other floats.** -/
theorem compareAs_toInt (n : Int64) {x : Float} (hx : x.isFinite = true)
    (hne : exactOf x ≠ exactOf (nearestFloat n)) (line : Nat) :
    CompareAs line (.integer n) (.real x) n.toInt (exactOf x) := by
  have hnearest := isNearest_nearestFloat n
  have hlt : exactOf (nearestFloat n) < exactOf x ↔ (n.toInt : ℚ) < exactOf x := by
    refine ⟨hnearest.lt_of_lt hx, fun hlt => ?_⟩
    exact (lt_or_gt_of_ne hne).resolve_left fun hgt => hlt.not_gt (hnearest.gt_of_gt hx hgt)
  have hgt : exactOf x < exactOf (nearestFloat n) ↔ exactOf x < (n.toInt : ℚ) := by
    refine ⟨hnearest.gt_of_gt hx, fun hgt => ?_⟩
    exact (lt_or_gt_of_ne hne).resolve_right fun hlt => hgt.not_gt (hnearest.lt_of_lt hx hlt)
  intro op hop
  have hcompare := compareAs_nearestFloat n hx line op hop
  rwa [decide_eq_decide.2 (Operator.says_congr hlt hgt),
    decide_eq_decide.2 (Operator.says_congr hgt hlt)] at hcompare

theorem equal_iff_order : Equal line v w ↔ v.order w = .ok (some .eq) := by
  have hop : Operator.equal.isComparison = true := rfl
  unfold Equal Operator.compare
  rw [onLine_eq_ok_iff, if_pos hop]
  cases v.order w with
  | ok o => simp [Operator.holds]
  | error fault => simp

/-- Integers are equal when they are the same. -/
theorem equal_integers_iff {a b : Int64} : Equal line (.integer a) (.integer b) ↔ a = b := by
  unfold Equal
  rw [onLine_eq_ok_iff, Operator.compare_integers rfl, Except.ok.injEq, bool.injEq,
    decide_eq_true_iff, Operator.Says, Int.cast_inj, Int64.toInt_inj]

section Floats

variable {x y : Float} (hv : v.toFloat? = some x) (hw : w.toFloat? = some y)

include hv hw

/-- Numbers that are not both integers are equal when their floats are. -/
theorem equal_iff_beq (hkinds : v.kind = .integer → w.kind ≠ .integer) :
    Equal line v w ↔ (x == y) = true := by
  rw [equal_iff_order, order_eq_floatOrder hv hw hkinds, Except.ok.injEq,
    floatOrder_eq_eq_iff]

/-- Equal numbers have equal floats. -/
theorem Equal.beq (h : Equal line v w) : (x == y) = true := by
  by_cases hkinds : v.kind = .integer → w.kind ≠ .integer
  · exact (equal_iff_beq hv hw hkinds).1 h
  · obtain ⟨hv', hw'⟩ := Classical.not_imp.1 hkinds
    obtain ⟨a, rfl⟩ := exists_integer_of_kind hv'
    obtain ⟨b, rfl⟩ := exists_integer_of_kind (not_not.1 hw')
    obtain rfl := equal_integers_iff.1 h
    cases hv
    cases hw
    have hfinite := (isNearest_nearestFloat a).finite
    exact (beq_iff_exactOf hfinite hfinite).2 rfl

end Floats

/-- **Equality is transitive**, but for two integers that are rounded to one float. -/
theorem Equal.trans_or (hu : u.kind.isNumber = true) (hv : v.kind.isNumber = true)
    (hw : w.kind.isNumber = true) (huv : Equal line u v) (hvw : Equal line v w) :
    Equal line u w ∨ ∃ (a b : Int64) (x : Float), u = .integer a ∧ v = .real x ∧ w = .integer b ∧
      a ≠ b ∧ (nearestFloat a == x) = true ∧ (x == nearestFloat b) = true := by
  obtain ⟨x, hux⟩ := exists_toFloat?_eq_some_iff.2 hu
  obtain ⟨y, hvy⟩ := exists_toFloat?_eq_some_iff.2 hv
  obtain ⟨z, hwz⟩ := exists_toFloat?_eq_some_iff.2 hw
  have hxy := huv.beq hux hvy
  have hyz := hvw.beq hvy hwz
  by_cases hkinds : u.kind = .integer → w.kind ≠ .integer
  · exact .inl ((equal_iff_beq hux hwz hkinds).2 (beq_trans hxy hyz))
  · obtain ⟨hu', hw'⟩ := Classical.not_imp.1 hkinds
    obtain ⟨a, rfl⟩ := exists_integer_of_kind hu'
    obtain ⟨b, rfl⟩ := exists_integer_of_kind (not_not.1 hw')
    by_cases hab : a = b
    · exact .inl (equal_integers_iff.2 hab)
    · cases v with
      | integer c =>
        exact absurd ((equal_integers_iff.1 huv).trans (equal_integers_iff.1 hvw)) hab
      | real t =>
        cases hux
        cases hvy
        cases hwz
        exact .inr ⟨a, b, _, rfl, rfl, rfl, hab, hxy, hyz⟩
      | bool t => cases hvy
      | str t => cases hvy

/-- Two integers are rounded to one float only beyond `2 ^ 53`. -/
theorem lt_natAbs_of_exactOf_eq {a b : Int64} (hne : a ≠ b)
    (h : exactOf (nearestFloat a) = exactOf (nearestFloat b)) :
    2 ^ 53 < max a.toInt.natAbs b.toInt.natAbs := by
  by_contra hle
  have hmax := max_le_iff.1 (not_lt.1 hle)
  rw [exactOf_nearestFloat a hmax.1, exactOf_nearestFloat b hmax.2, Int.cast_inj,
    Int64.toInt_inj] at h
  exact hne h

/-- **Integers and floats are compared through the float nearest to the integer**,
which is the integer itself up to `2 ^ 53`.  The answer is that for the integer
unless the other float is this one; so equality is transitive, but for two integers,
not both up to `2 ^ 53`, that are rounded to the float between them. -/
theorem compared_through_nearest :
    (∀ (n : Int64) (x : Float) (line : Nat), x.isFinite = true →
      IsNearest n.toInt (nearestFloat n) ∧
      (n.toInt.natAbs ≤ 2 ^ 53 → exactOf (nearestFloat n) = n.toInt) ∧
      CompareAs line (.integer n) (.real x) (exactOf (nearestFloat n)) (exactOf x) ∧
      (exactOf x ≠ exactOf (nearestFloat n) →
        CompareAs line (.integer n) (.real x) n.toInt (exactOf x))) ∧
    (∀ (u v w : Value) (line : Nat), u.kind.isNumber = true → v.kind.isNumber = true →
      w.kind.isNumber = true → Equal line u v → Equal line v w →
      Equal line u w ∨ ∃ (a b : Int64) (x : Float), u = .integer a ∧ v = .real x ∧
        w = .integer b ∧ a ≠ b ∧ 2 ^ 53 < max a.toInt.natAbs b.toInt.natAbs ∧
        x.isFinite = true ∧ exactOf (nearestFloat a) = exactOf x ∧
        exactOf (nearestFloat b) = exactOf x) := by
  constructor
  · intro n x line hx
    exact ⟨isNearest_nearestFloat n, exactOf_nearestFloat n, compareAs_nearestFloat n hx line,
      fun hne => compareAs_toInt n hx hne line⟩
  · intro u v w line hu hv hw huv hvw
    refine (Equal.trans_or hu hv hw huv hvw).imp_right ?_
    rintro ⟨a, b, x, hua, hvx, hwb, hab, hax, hxb⟩
    have hfinite := (isNearest_nearestFloat a).finite
    have hx := isFinite_of_beq hax hfinite
    have ha := (beq_iff_exactOf hfinite hx).1 hax
    have hb := (beq_iff_exactOf hx (isNearest_nearestFloat b).finite).1 hxb
    exact ⟨a, b, x, hua, hvx, hwb, hab, lt_natAbs_of_exactOf_eq hab (ha.trans hb), hx, ha, hb.symm⟩

/-- The exact value of the float with the bits of `2 ^ 53`. -/
theorem exactOf_two_pow_53 : exactOf (.ofBits 0x4340000000000000) = 2 ^ 53 := by
  have hbits : (Float.ofBits 0x4340000000000000).toModel.unpack =
      .finite .positive (2 ^ 52) 1 (by decide) := rfl
  rw [exactOf, hbits, numberOf_positive]
  norm_num

/-- The first integer that is no float. -/
theorem toInt_two_pow_53_add_one :
    ((Int64.toInt 0x20000000000001 : ℤ) : ℚ) = 2 ^ 53 + 1 := by
  have htoInt : Int64.toInt 0x20000000000001 = 2 ^ 53 + 1 := by decide
  rw [htoInt]
  norm_num

/-- Three is less than three and a half, and equal to what is equal to `3.0`.  The
integer `2 ^ 53 + 1` is rounded to `2 ^ 53`, and compared with that float as if it were
it, but with the next float by its own value; and it is equal to the float `2 ^ 53`,
which is equal to the integer `2 ^ 53`, which is not equal to it. -/
theorem compared_through_nearest_three :
    CompareAs 1 (.integer 3) (.real (.ofBits 0x400C000000000000)) 3 (7 / 2) ∧
      Equal 1 (.integer 3) (.integer 3) ∧
      IsNearest (2 ^ 53 + 1) (nearestFloat 0x20000000000001) ∧
      exactOf (nearestFloat 0x20000000000001) = 2 ^ 53 ∧
      CompareAs 1 (.integer 0x20000000000001) (.real (.ofBits 0x4340000000000000))
        (2 ^ 53) (2 ^ 53) ∧
      CompareAs 1 (.integer 0x20000000000001) (.real (.ofBits 0x4340000000000001))
        (2 ^ 53 + 1) (2 ^ 53 + 2) ∧
      Equal 1 (.integer 0x20000000000001) (.real (.ofBits 0x4340000000000000)) ∧
      Equal 1 (.real (.ofBits 0x4340000000000000)) (.integer 0x20000000000000) ∧
      ¬ Equal 1 (.integer 0x20000000000001) (.integer 0x20000000000000) := by
  have hhalf : exactOf (.ofBits 0x400C000000000000) = 7 / 2 := by
    have hbits : (Float.ofBits 0x400C000000000000).toModel.unpack =
        .finite .positive (7 * 2 ^ 50) (-51) (by decide) := rfl
    rw [exactOf, hbits, numberOf_positive]
    norm_num
  have hnext : exactOf (.ofBits 0x4340000000000001) = 2 ^ 53 + 2 := by
    have hbits : (Float.ofBits 0x4340000000000001).toModel.unpack =
        .finite .positive (2 ^ 52 + 1) 1 (by decide) := rfl
    rw [exactOf, hbits, numberOf_positive]
    norm_num
  have hthree : ((Int64.toInt 3 : ℤ) : ℚ) = 3 := rfl
  have hleft : Equal 1 (.integer 0x20000000000001) (.real (.ofBits 0x4340000000000000)) := by
    decide +kernel
  have hright : Equal 1 (.real (.ofBits 0x4340000000000000)) (.integer 0x20000000000000) := by
    decide +kernel
  have hneq : ¬ Equal 1 (.integer 0x20000000000001) (.integer 0x20000000000000) := by
    decide +kernel
  -- Equality fails to be transitive there, so the float is the one both are rounded to.
  have hrounded : exactOf (nearestFloat 0x20000000000001) = 2 ^ 53 := by
    obtain h | ⟨a, b, x, ha, hx, -, -, -, -, hexact, -⟩ :=
      compared_through_nearest.2 _ _ _ 1 rfl rfl rfl hleft hright
    · exact absurd h hneq
    · cases ha
      cases hx
      rw [hexact, exactOf_two_pow_53]
  refine ⟨?_, ?_, ?_, hrounded, ?_, ?_, hleft, hright, hneq⟩
  · obtain ⟨-, hexact, -, hcompare⟩ :=
      compared_through_nearest.1 3 (.ofBits 0x400C000000000000) 1 rfl
    have hne : (7 / 2 : ℚ) ≠ 3 := by norm_num
    rw [hhalf, hexact (by decide), hthree] at hcompare
    exact hcompare hne
  · obtain h | ⟨a, b, x, ha, -, hb, hne, -⟩ :=
      compared_through_nearest.2 (.integer 3) (.real (.ofBits 0x4008000000000000)) (.integer 3) 1
        rfl rfl rfl (by decide +kernel) (by decide +kernel)
    · exact h
    · cases ha
      cases hb
      exact absurd rfl hne
  · have hnearest := (compared_through_nearest.1 0x20000000000001 0 1 rfl).1
    rwa [toInt_two_pow_53_add_one] at hnearest
  · have hcompare :=
      (compared_through_nearest.1 0x20000000000001 (.ofBits 0x4340000000000000) 1 rfl).2.2.1
    rwa [hrounded, exactOf_two_pow_53] at hcompare
  · have hcompare :=
      (compared_through_nearest.1 0x20000000000001 (.ofBits 0x4340000000000001) 1 rfl).2.2.2
    rw [hrounded, hnext, toInt_two_pow_53_add_one] at hcompare
    exact hcompare (by norm_num)

/-- The float `2 ^ 53` is equal to the integer `2 ^ 53` and to the next one, which
is neither its exact value nor equal to the first. -/
theorem equal_to_two_integers :
    Equal 1 (.integer 0x20000000000001) (.real (.ofBits 0x4340000000000000)) ∧
      ¬ CompareAs 1 (.integer 0x20000000000001) (.real (.ofBits 0x4340000000000000))
        (Int64.toInt 0x20000000000001) (exactOf (.ofBits 0x4340000000000000)) ∧
      Equal 1 (.real (.ofBits 0x4340000000000000)) (.integer 0x20000000000000) ∧
      ¬ Equal 1 (.integer 0x20000000000001) (.integer 0x20000000000000) := by
  have hequal : Equal 1 (.integer 0x20000000000001) (.real (.ofBits 0x4340000000000000)) := by
    decide +kernel
  refine ⟨hequal, fun hcompare => ?_, by decide +kernel, by decide +kernel⟩
  have hsays : (2 ^ 53 + 1 : ℚ) = 2 ^ 53 := by
    have hanswer := (hcompare .equal rfl).1.symm.trans hequal
    rwa [Except.ok.injEq, bool.injEq, decide_eq_true_iff, Operator.Says, exactOf_two_pow_53,
      toInt_two_pow_53_add_one] at hanswer
  linarith

end Value

end FlatScript
