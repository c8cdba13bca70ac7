/-
# The exact value of a float

A finite float is a sign, a mantissa and an exponent, and stands for the rational
number `± m · 2 ^ e` (`exactOf`).  Of the ways to write that number, one is proper:

| | mantissa | exponent |
| --- | --- | --- |
| normal | `2 ^ 52 ≤ m < 2 ^ 53` | `-1074 ≤ e ≤ 971` |
| subnormal | `m < 2 ^ 52` | `e = -1074` |

The bits of a finite float are taken apart into its proper form
(`proper_unpack`), and a normal one is not changed by being put into bits and
taken apart again (`unpack_pack`).

Two proper forms are compared by exponent first and then by mantissa, and that is
the order of their numbers (`compare_proper`).  So floats are ordered by their
exact values (`Value.floatOrder_exact`).
-/

import FlatScript.Proofs.Regular
import Mathlib

namespace FlatScript

open Float.Model Float.Model.UnpackedFloat

/-- The number that an unpacked float stands for; 0 for an infinity and for a NaN,
which stand for none. -/
def numberOf : UnpackedFloat → ℚ
  | .finite s m e _ => (s.apply m : ℤ) * 2 ^ e
  | _ => 0

/-- The exact value of a finite float. -/
def exactOf (x : Float) : ℚ :=
  numberOf x.toModel.unpack

/-- A mantissa and an exponent of a float, normal or subnormal. -/
structure IsProper (m : ℕ) (e : ℤ) : Prop where
  mantissa : m < 2 ^ 53
  exponent : e ≤ 971
  normal : 2 ^ 52 ≤ m ∧ -1074 ≤ e ∨ e = -1074

/-- A zero, or a finite float of proper mantissa and exponent. -/
def Proper : UnpackedFloat → Prop
  | .zero _ => True
  | .finite _ m e _ => IsProper m e
  | _ => False

/-- The mantissa of a normal float has a bit that is not written. -/
theorem toNat_implicit (b : BitVec 52) : (1#1 ++ b).toNat = 2 ^ 52 + b.toNat := by
  have hlt := b.isLt
  rw [BitVec.toNat_append, ← Nat.shiftLeft_add_eq_or_of_lt hlt, Nat.shiftLeft_eq]
  simp

/-- **The bits of a finite float have a proper form.** -/
theorem proper_unpack {b : BitVec Format.binary64.numBits}
    (h : (UnpackedFloat.unpack .binary64 b).isFinite = true) :
    Proper (UnpackedFloat.unpack .binary64 b) := by
  have hbias : (Format.binary64.exponentBias : ℤ) = 1023 := rfl
  have hbits : (Format.binary64.mantissaBitsWithoutImplicit : ℤ) = 52 := rfl
  have hmantissa : (unpackMantissa b).toNat < 2 ^ 52 := (unpackMantissa b).isLt
  have hexponent := isFinite_unpack_iff.1 h
  have hlt : (unpackExponent b).toNat < 2047 := by
    have hle : (unpackExponent b).toNat < 2048 := (unpackExponent b).isLt
    have hne : (unpackExponent b).toNat ≠ 2047 := fun hn => hexponent (BitVec.eq_of_toNat_eq hn)
    omega
  delta UnpackedFloat.unpack
  dsimp only
  rw [if_neg hexponent]
  by_cases hzero : unpackExponent b = 0#_
  · have hnat : (unpackExponent b).toNat = 0 := congrArg BitVec.toNat hzero
    rw [if_pos hzero]
    split
    · trivial
    · exact ⟨by omega, by omega, .inr (by omega)⟩
  · have hnat : (unpackExponent b).toNat ≠ 0 := fun hn => hzero (BitVec.eq_of_toNat_eq hn)
    rw [if_neg hzero]
    refine ⟨?_, by omega, .inl ⟨?_, by omega⟩⟩
    · rw [toNat_implicit]
      omega
    · rw [toNat_implicit]
      omega

/-- **A normal form is kept by the bits that it is put into.** -/
theorem unpack_pack {s : Sign} {m : ℕ} {e : ℤ} {hm : 0 < m} (hlow : 2 ^ 52 ≤ m)
    (h : IsProper m e) :
    UnpackedFloat.unpack .binary64 (UnpackedFloat.pack .binary64 (.finite s m e hm)) =
      .finite s m e hm := by
  have hbias : (Format.binary64.exponentBias : ℤ) = 1023 := rfl
  have hbits : (Format.binary64.mantissaBitsWithoutImplicit : ℤ) = 52 := rfl
  have hpow : 2 ^ Format.binary64.exponentBits = 2048 := rfl
  have hexponent := h.exponent
  have hmantissa := h.mantissa
  have hlow' : -1074 ≤ e := h.normal.elim And.right (by omega)
  have hlog : m.log2 + 1 = Format.binary64.mantissaBits := by
    have hlog : m.log2 = 52 := (Nat.log2_eq_iff (by omega)).2 ⟨hlow, hmantissa⟩
    rw [hlog]
    rfl
  obtain ⟨k, hk, hk₁, hk₂⟩ : ∃ k : ℕ, (e + Format.binary64.exponentBias +
      Format.binary64.mantissaBitsWithoutImplicit).toNat = k ∧ 0 < k ∧ k < 2047 :=
    ⟨_, rfl, by omega, by omega⟩
  have hkbits : (BitVec.ofNat Format.binary64.exponentBits k).toNat = k := by
    rw [BitVec.toNat_ofNat, hpow]
    omega
  have hkzero : BitVec.ofNat Format.binary64.exponentBits k ≠ 0#_ := by
    intro hzero
    have hnat := congrArg BitVec.toNat hzero
    rw [hkbits] at hnat
    exact hk₁.ne' hnat
  have hkones : BitVec.ofNat Format.binary64.exponentBits k ≠ -1#_ := by
    intro hones
    have hnat : k % 2048 = 2047 := congrArg BitVec.toNat hones
    omega
  have hmbits : (1#1 ++ BitVec.ofNat 52 m).toNat = m := by
    rw [toNat_implicit, BitVec.toNat_ofNat]
    omega
  delta UnpackedFloat.pack
  dsimp only
  rw [hk, if_neg (by omega), if_pos hlog]
  delta UnpackedFloat.unpack
  simp only [unpackExponent_packComponents, unpackMantissa_packComponents,
    unpackSign_packComponents, Sign.ofBitVec_toBitVec, if_neg hkones, if_neg hkzero, hkbits, hmbits]
  congr 1
  omega

/-- Of two floats, the one of the larger exponent is larger. -/
theorem mul_zpow_lt {m m' : ℕ} {e e' : ℤ} (hm : m < 2 ^ 53) (hm' : 2 ^ 52 ≤ m') (he : e < e') :
    (m : ℚ) * 2 ^ e < m' * 2 ^ e' := by
  have hlt : (m : ℚ) < 2 ^ 53 := by exact_mod_cast hm
  have hle : (2 : ℚ) ^ 52 ≤ m' := by exact_mod_cast hm'
  calc (m : ℚ) * 2 ^ e < 2 ^ 53 * 2 ^ e := by gcongr
    _ = 2 ^ 52 * 2 ^ (e + 1) := by rw [zpow_add_one₀ two_ne_zero]; ring
    _ ≤ m' * 2 ^ e' := by gcongr; norm_num; omega

/-- **Exponents are compared first, then mantissas**, and so are the numbers. -/
theorem compares_magnitudes {m m' : ℕ} {e e' : ℤ} (h : IsProper m e) (h' : IsProper m' e') :
    ((compare e e').then (compare m m')).Compares ((m : ℚ) * 2 ^ e) (m' * 2 ^ e') := by
  rcases lt_trichotomy e e' with he | rfl | he
  · have hlow := h.normal
    rw [Int.compare_eq_lt.2 he]
    exact mul_zpow_lt h.mantissa (h'.normal.elim And.left (by omega)) he
  · have hpow : (0 : ℚ) < 2 ^ e := by positivity
    rw [Int.compare_eq_eq.2 rfl, Ordering.eq_then]
    rcases lt_trichotomy m m' with hm | rfl | hm
    · rw [Nat.compare_eq_lt.2 hm]
      exact mul_lt_mul_of_pos_right (by exact_mod_cast hm) hpow
    · rw [Nat.compare_eq_eq.2 rfl]
      exact rfl
    · rw [Nat.compare_eq_gt.2 hm]
      exact mul_lt_mul_of_pos_right (by exact_mod_cast hm) hpow
  · have hlow' := h'.normal
    rw [Int.compare_eq_gt.2 he]
    exact mul_zpow_lt h'.mantissa (h.normal.elim And.left (by omega)) he

/-- The sign of a float is the sign of its number. -/
theorem numberOf_neg (a : UnpackedFloat) : numberOf a.neg = -numberOf a := by
  cases a with
  | infinity s => exact neg_zero.symm
  | notANumber => exact neg_zero.symm
  | zero s => exact neg_zero.symm
  | finite s m e hm =>
    cases s with
    | positive =>
      change (((-(m : ℤ) : ℤ)) : ℚ) * 2 ^ e = -(((m : ℤ) : ℚ) * 2 ^ e)
      push_cast
      ring
    | negative =>
      change (((m : ℤ)) : ℚ) * 2 ^ e = -(((-(m : ℤ) : ℤ) : ℚ) * 2 ^ e)
      push_cast
      ring

theorem Proper.neg {a : UnpackedFloat} (h : Proper a) : Proper a.neg := by
  cases a with
  | infinity s => exact h
  | notANumber => exact h
  | zero s => trivial
  | finite s m e hm => exact h

/-- The number of a positive form is its mantissa at its exponent. -/
theorem numberOf_positive {m : ℕ} {e : ℤ} (hm : 0 < m) :
    numberOf (.finite .positive m e hm) = m * 2 ^ e := by
  simp [numberOf, Sign.apply]

/-- The number of a negative form is minus its mantissa at its exponent. -/
theorem numberOf_negative {m : ℕ} {e : ℤ} (hm : 0 < m) :
    numberOf (.finite .negative m e hm) = -(m * 2 ^ e) := by
  rw [← numberOf_positive hm, ← numberOf_neg]
  rfl

/-- **Proper forms are ordered as their numbers are.** -/
theorem compare_proper {a b : UnpackedFloat} (ha : Proper a) (hb : Proper b) :
    ∃ o : Ordering, a.compare b = some o ∧ o.Compares (numberOf a) (numberOf b) := by
  have hpositive : ∀ {m : ℕ} {e : ℤ} (hm : 0 < m), 0 < numberOf (.finite .positive m e hm) := by
    intro m e hm
    rw [numberOf_positive]
    positivity
  have hnegative : ∀ {m : ℕ} {e : ℤ} (hm : 0 < m), numberOf (.finite .negative m e hm) < 0 := by
    intro m e hm
    rw [numberOf_negative, neg_lt_zero]
    positivity
  cases a with
  | infinity s => exact ha.elim
  | notANumber => exact ha.elim
  | zero s =>
    cases b with
    | infinity t => exact hb.elim
    | notANumber => exact hb.elim
    | zero t => exact ⟨.eq, rfl, rfl⟩
    | finite t m' e' hm' =>
      cases t with
      | positive => exact ⟨.lt, rfl, hpositive hm'⟩
      | negative => exact ⟨.gt, rfl, hnegative hm'⟩
  | finite s m e hm =>
    cases b with
    | infinity t => exact hb.elim
    | notANumber => exact hb.elim
    | zero t =>
      cases s with
      | positive => exact ⟨.gt, rfl, hpositive hm⟩
      | negative => exact ⟨.lt, rfl, hnegative hm⟩
    | finite t m' e' hm' =>
      have hmagnitudes := compares_magnitudes ha hb
      cases s with
      | positive =>
        cases t with
        | positive =>
          refine ⟨_, rfl, ?_⟩
          rwa [numberOf_positive, numberOf_positive]
        | negative => exact ⟨.gt, rfl, (hnegative hm').trans (hpositive hm)⟩
      | negative =>
        cases t with
        | positive => exact ⟨.lt, rfl, (hnegative hm).trans (hpositive hm')⟩
        | negative =>
          -- the larger magnitude is the smaller number
          refine ⟨_, rfl, ?_⟩
          rw [numberOf_negative, numberOf_negative, Ordering.compares_swap]
          generalize (compare e e').then (compare m m') = o at hmagnitudes ⊢
          cases o with
          | lt => exact neg_lt_neg hmagnitudes
          | eq => exact congrArg Neg.neg (Eq.symm hmagnitudes)
          | gt => exact neg_lt_neg hmagnitudes

section Order

variable {x y : Float}

/-- Finite floats compare as their exact values do. -/
theorem compare_toModel (hx : x.isFinite = true) (hy : y.isFinite = true) :
    ∃ o : Ordering, x.toModel.compare y.toModel = some o ∧ o.Compares (exactOf x) (exactOf y) :=
  compare_proper (proper_unpack hx) (proper_unpack hy)

theorem lt_iff_compare : x < y ↔ x.toModel.compare y.toModel = some .lt :=
  decide_eq_true_iff.trans beq_iff_eq

theorem beq_iff_compare : (x == y) = true ↔ x.toModel.compare y.toModel = some .eq := by
  change (x.toModel.compare y.toModel == some .eq) = true ↔ _
  exact beq_iff_eq

/-- Of two finite floats the lesser one is the one of the lesser value. -/
theorem lt_iff_exactOf (hx : x.isFinite = true) (hy : y.isFinite = true) :
    x < y ↔ exactOf x < exactOf y := by
  obtain ⟨o, ho, hcompares⟩ := compare_toModel hx hy
  rw [lt_iff_compare, ho, Option.some_inj, hcompares.eq_lt]

/-- Finite floats are equal when their values are. -/
theorem beq_iff_exactOf (hx : x.isFinite = true) (hy : y.isFinite = true) :
    (x == y) = true ↔ exactOf x = exactOf y := by
  obtain ⟨o, ho, hcompares⟩ := compare_toModel hx hy
  rw [beq_iff_compare, ho, Option.some_inj, hcompares.eq_eq]

/-- **Finite floats are ordered by their exact values.** -/
theorem Value.floatOrder_exact (hx : x.isFinite = true) (hy : y.isFinite = true) :
    ∃ o : Ordering, floatOrder x y = some o ∧ o.Compares (exactOf x) (exactOf y) := by
  unfold floatOrder
  simp only [lt_iff_exactOf hx hy, lt_iff_exactOf hy hx, beq_iff_exactOf hx hy]
  rcases lt_trichotomy (exactOf x) (exactOf y) with hlt | heq | hgt
  · exact ⟨.lt, if_pos hlt, hlt⟩
  · refine ⟨.eq, ?_, heq⟩
    rw [if_neg heq.not_lt, if_pos heq]
  · refine ⟨.gt, ?_, hgt⟩
    rw [if_neg hgt.not_gt, if_neg hgt.ne', if_pos hgt]

/-- Floats are in the same place of the order when they are equal. -/
theorem Value.floatOrder_eq_eq_iff : floatOrder x y = some .eq ↔ (x == y) = true := by
  unfold floatOrder
  by_cases hlt : x < y
  · have hne : (x == y) ≠ true := fun heq => by
      rw [beq_iff_compare, lt_iff_compare.1 hlt] at heq
      cases heq
    simp [hlt, hne]
  · by_cases heq : (x == y) = true
    · simp [hlt, heq]
    · rw [if_neg hlt, if_neg heq]
      split <;> simp [heq]

/-- Equality of floats is transitive. -/
theorem beq_trans {z : Float} (hxy : (x == y) = true) (hyz : (y == z) = true) :
    (x == z) = true := by
  rw [Float.beq_iff_ne_nan_and_eq] at *
  grind

theorem isFinite_of_beq (h : (x == y) = true) (hx : x.isFinite = true) : y.isFinite = true := by
  obtain ⟨-, -, rfl | ⟨-, rfl⟩ | ⟨-, rfl⟩⟩ := Float.beq_iff_ne_nan_and_eq.1 h
  · exact hx
  · rfl
  · rfl

end Order

end FlatScript
