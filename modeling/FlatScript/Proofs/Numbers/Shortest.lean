/-
# How large the shortest decimal is

`Magnitude.shortest` looks for a decimal on the grids of 1, 2, … 17 digits, and takes
a neighbour of the number on the first grid that has one which rounds to it.  Such a
neighbour is not below the leading power of ten, and not above the number by more than
half a gap of the floats, or half a unit of the last grid
(`Magnitude.shortestFrom_spec`).

A float below `10 ^ 16` has another float above it that is at most `10 ^ 16`, so the
decimal of such a float stays below `10 ^ 16` too (`Magnitude.value_shortest_lt`).  From
`10 ^ 16` on, 17 digits are all in front of the point, and the decimal is a whole number
(`Magnitude.shortest_of_le`).
-/

import FlatScript.Decimal.Layout
import Mathlib

namespace FlatScript
namespace Decimal

/-- The number that a decimal stands for. -/
def value (d : Decimal) : ℚ :=
  d.digits * 10 ^ d.exponent

/-- Numbers below a power of ten have at most so many digits. -/
theorem digitCount_le_iff {n k : ℕ} (hk : 0 < k) : digitCount n ≤ k ↔ n < 10 ^ k :=
  Nat.length_toDigits_le_iff (by decide) hk

theorem digitCount_pos (n : ℕ) : 0 < digitCount n :=
  List.length_pos_iff.2 Nat.toDigits_ne_nil

theorem lt_pow_digitCount (n : ℕ) : n < 10 ^ digitCount n :=
  (digitCount_le_iff (digitCount_pos n)).1 le_rfl

/-- A number is not below the power of ten of as many digits. -/
theorem pow_digitCount_le {n : ℕ} (hn : 0 < n) : 10 ^ (digitCount n - 1) ≤ n := by
  have hpos := digitCount_pos n
  by_cases hone : digitCount n = 1
  · rw [hone]
    exact hn
  · have hlt : ¬ digitCount n ≤ digitCount n - 1 := by omega
    rwa [digitCount_le_iff (by omega), not_lt] at hlt

/-- **The exponent of the leading digit** gives the power of ten that a decimal has
reached. -/
theorem leading_spec {d : Decimal} (h : 0 < d.digits) :
    10 ^ d.leading ≤ d.value ∧ d.value < 10 ^ (d.leading + 1) := by
  have hpos := digitCount_pos d.digits
  have hle : (10 : ℚ) ^ (digitCount d.digits - 1) ≤ d.digits := by
    exact_mod_cast pow_digitCount_le h
  have hlt : (d.digits : ℚ) < 10 ^ digitCount d.digits := by
    exact_mod_cast lt_pow_digitCount d.digits
  have hunit : (0 : ℚ) < 10 ^ d.exponent := by positivity
  have hlow : d.leading = ((digitCount d.digits - 1 : ℕ) : ℤ) + d.exponent := by
    rw [leading]
    omega
  have hhigh : d.leading + 1 = (digitCount d.digits : ℤ) + d.exponent := by
    rw [leading]
    omega
  rw [hhigh, hlow, zpow_add₀ (by norm_num), zpow_add₀ (by norm_num), zpow_natCast, zpow_natCast]
  exact ⟨mul_le_mul_of_nonneg_right hle hunit.le, mul_lt_mul_of_pos_right hlt hunit⟩

/-- A decimal reaches a power of ten exactly when its leading digit does. -/
theorem le_leading_iff {d : Decimal} (h : 0 < d.digits) (k : ℤ) :
    k ≤ d.leading ↔ 10 ^ k ≤ d.value := by
  obtain ⟨hle, hlt⟩ := leading_spec h
  constructor
  · exact fun hk => (zpow_le_zpow_right₀ (by norm_num) hk).trans hle
  · intro hk
    have hk' := (zpow_lt_zpow_iff_right₀ (by norm_num)).1 (hk.trans_lt hlt)
    omega

/-- Zeros at the end of the digits are not lost, but counted by the exponent. -/
theorem normalize_spec (d : Decimal) :
    d.normalize.value = d.value ∧ d.exponent ≤ d.normalize.exponent ∧
      (0 < d.digits → 0 < d.normalize.digits) := by
  fun_induction normalize d with
  | case1 d h ih =>
    obtain ⟨hvalue, hexponent, hdigits⟩ := ih
    refine ⟨?_, by simp only at hexponent; omega, fun _ => hdigits (by simp only; omega)⟩
    have hten : ((d.digits / 10 : ℕ) : ℚ) * 10 = d.digits := by
      exact_mod_cast Nat.div_mul_cancel (Nat.dvd_of_mod_eq_zero h.2)
    rw [hvalue, value, value, ← hten, zpow_add_one₀ (by norm_num)]
    ring
  | case2 d h => exact ⟨rfl, le_rfl, id⟩

namespace Magnitude

/-- The number that a magnitude stands for. -/
def value (x : Magnitude) : ℚ :=
  x.num / x.den

/-- Half of the gap between the number and the float above it. -/
def half (x : Magnitude) : ℚ :=
  x.above / x.den

variable {x : Magnitude}

/-- The quotient of naturals is the whole part of the number. -/
theorem le_div_iff (hden : 0 < x.den) {k : ℕ} : k ≤ x.num / x.den ↔ (k : ℚ) ≤ x.value := by
  have hden' : (0 : ℚ) < x.den := by exact_mod_cast hden
  rw [Nat.le_div_iff_mul_le hden, value, le_div_iff₀ hden']
  exact_mod_cast Iff.rfl

/-- **The exponent of the leading digit** gives the power of ten that a number has
reached. -/
theorem leading_spec (hnum : 0 < x.num) (hden : 0 < x.den) :
    10 ^ x.leading ≤ x.value ∧ x.value < 10 ^ (x.leading + 1) := by
  have hden' : (0 : ℚ) < x.den := by exact_mod_cast hden
  unfold leading
  split
  · rename_i hle
    have hwhole : 0 < x.num / x.den := Nat.div_pos hle hden
    have hpos := digitCount_pos (x.num / x.den)
    have hlt : ¬ 10 ^ digitCount (x.num / x.den) ≤ x.num / x.den :=
      not_le.2 (lt_pow_digitCount _)
    have hlow := (le_div_iff hden).1 (pow_digitCount_le hwhole)
    rw [le_div_iff hden, not_le] at hlt
    have hexponent : ((digitCount (x.num / x.den) : ℤ) - 1) =
        ((digitCount (x.num / x.den) - 1 : ℕ) : ℤ) := by omega
    rw [sub_add_cancel, hexponent, zpow_natCast, zpow_natCast]
    exact ⟨by exact_mod_cast hlow, by exact_mod_cast hlt⟩
  · rename_i hlt
    -- below one, the digits of the inverse count the zeros behind the point
    have hwhole : 0 < (x.den - 1) / x.num := Nat.div_pos (by omega) hnum
    have hpos := digitCount_pos ((x.den - 1) / x.num)
    have hlow : x.den ≤ 10 ^ digitCount ((x.den - 1) / x.num) * x.num := by
      have := (Nat.div_lt_iff_lt_mul hnum).1 (lt_pow_digitCount ((x.den - 1) / x.num))
      omega
    have hhigh : 10 ^ (digitCount ((x.den - 1) / x.num) - 1) * x.num < x.den := by
      have := (Nat.le_div_iff_mul_le hnum).1 (pow_digitCount_le hwhole)
      omega
    generalize digitCount ((x.den - 1) / x.num) = k at hpos hlow hhigh
    have hexponent : -(k : ℤ) + 1 = -((k - 1 : ℕ) : ℤ) := by omega
    have hlow' : (x.den : ℚ) ≤ 10 ^ k * x.num := by exact_mod_cast hlow
    have hhigh' : (10 : ℚ) ^ (k - 1) * x.num < x.den := by exact_mod_cast hhigh
    rw [hexponent, zpow_neg, zpow_neg, zpow_natCast, zpow_natCast, value]
    constructor
    · rw [inv_le_iff_one_le_mul₀' (by positivity), ← mul_div_assoc, one_le_div hden']
      exact hlow'
    · rw [lt_inv_comm₀ (by positivity) (by positivity), inv_div,
        lt_div_iff₀ (by exact_mod_cast hnum)]
      exact hhigh'

/-- In units of a power of ten, the number and the gap above it are so many times
smaller. -/
theorem inUnits_spec (x : Magnitude) (g : ℤ) :
    (x.inUnits g).value = x.value / 10 ^ g ∧ (x.inUnits g).half = x.half / 10 ^ g := by
  unfold inUnits value half
  split
  · rename_i hg
    obtain ⟨k, rfl⟩ := Int.eq_ofNat_of_zero_le hg
    simp [div_div]
  · rename_i hg
    obtain ⟨k, rfl⟩ : ∃ k : ℕ, g = -k := ⟨(-g).toNat, by omega⟩
    simp [mul_div_right_comm]

theorem den_inUnits_pos (hden : 0 < x.den) (g : ℤ) : 0 < (x.inUnits g).den := by
  unfold inUnits
  split
  · exact Nat.mul_pos hden (Nat.pow_pos (by decide))
  · exact hden

/-- What rounds to a number is at most half a gap above it. -/
theorem le_of_admits (hden : 0 < x.den) {c : ℕ} (h : x.admits c = true) :
    (c : ℚ) ≤ x.value + x.half := by
  have hden' : (0 : ℚ) < x.den := by exact_mod_cast hden
  have hle : c * x.den ≤ x.num + x.above := by
    unfold admits at h
    split at h <;> simp only [Bool.and_eq_true, decide_eq_true_eq] at h <;> omega
  rw [value, half, ← add_div, le_div_iff₀ hden']
  exact_mod_cast hle

/-- The nearest natural number is not below the whole part, and at most one half above
the number. -/
theorem nearest_spec (hden : 0 < x.den) :
    x.num / x.den ≤ x.nearest ∧ (x.nearest : ℚ) ≤ x.value + 1 / 2 := by
  have hden' : (0 : ℚ) < x.den := by exact_mod_cast hden
  unfold nearest
  constructor
  · have hle := Nat.div_mul_le_self x.num x.den
    rw [Nat.le_div_iff_mul_le (by omega), Nat.mul_left_comm]
    omega
  · have hle : (2 * x.num + x.den) / (2 * x.den) * (2 * x.den) ≤ 2 * x.num + x.den :=
      Nat.div_mul_le_self _ _
    generalize (2 * x.num + x.den) / (2 * x.den) = c at hle
    have hle' : (c : ℚ) * (2 * x.den) ≤ 2 * x.num + x.den := by exact_mod_cast hle
    rw [value, div_add_div _ _ hden'.ne' (by norm_num), le_div_iff₀ (by positivity)]
    linarith

/-- A neighbour that rounds to a number is not below its whole part, and at most half a
gap above it. -/
theorem neighbour?_spec (hden : 0 < x.den) {c : ℕ} (h : x.neighbour? = some c) :
    x.num / x.den ≤ c ∧ (c : ℚ) ≤ x.value + x.half := by
  have hnear := (nearest_spec hden).1
  obtain ⟨far, hfar, hle⟩ : ∃ far, (if x.nearest = x.num / x.den then x.num / x.den + 1
      else x.num / x.den) = far ∧ x.num / x.den ≤ far := by
    refine ⟨_, rfl, ?_⟩
    split <;> omega
  simp only [neighbour?, hfar] at h
  split at h
  · rename_i hadmits
    obtain rfl := Option.some.inj h
    exact ⟨hnear, le_of_admits hden hadmits⟩
  · split at h
    · rename_i hadmits
      obtain rfl := Option.some.inj h
      exact ⟨hle, le_of_admits hden hadmits⟩
    · cases h

/-- A natural number that is not below the whole part in units of the last of `m`
digits is not below the leading power of ten. -/
theorem pow_leading_le (hnum : 0 < x.num) (hden : 0 < x.den) {m c : ℕ} (hm : 0 < m)
    (hc : (x.inUnits (x.leading + 1 - m)).num / (x.inUnits (x.leading + 1 - m)).den ≤ c) :
    10 ^ x.leading ≤ (Decimal.mk c (x.leading + 1 - m)).value := by
  have hunit : (0 : ℚ) < 10 ^ (x.leading + 1 - m) := by positivity
  have hpow : (10 : ℚ) ^ x.leading = 10 ^ (m - 1) * 10 ^ (x.leading + 1 - m) := by
    rw [← zpow_natCast, ← zpow_add₀ (by norm_num)]
    congr 1
    omega
  have hfloor : 10 ^ (m - 1) ≤ c := by
    refine le_trans ?_ hc
    rw [le_div_iff (den_inUnits_pos hden _), (inUnits_spec x _).1, le_div_iff₀ hunit]
    push_cast
    rw [← hpow]
    exact (leading_spec hnum hden).1
  rw [hpow, Decimal.value]
  exact mul_le_mul_of_nonneg_right (by exact_mod_cast hfloor) hunit.le

/-- **Where the search ends.**  It finds a decimal of `m` digits, not below the leading
power of ten, that is at most half a gap above the number; or it has run out of grids,
and the decimal is at most half a unit of its last digit above. -/
theorem shortestFrom_spec (hnum : 0 < x.num) (hden : 0 < x.den) {n : ℕ} (hn : 0 < n)
    (tries : ℕ) :
    ∃ m, n ≤ m ∧ m ≤ n + tries ∧ (x.shortestFrom n tries).exponent = x.leading + 1 - m ∧
      10 ^ x.leading ≤ (x.shortestFrom n tries).value ∧
        ((x.shortestFrom n tries).value ≤ x.value + x.half ∨
          m = n + tries ∧ (x.shortestFrom n tries).value ≤
            x.value + 10 ^ (x.leading + 1 - m) / 2) := by
  induction tries generalizing n with
  | zero =>
    have hunit : (0 : ℚ) < 10 ^ (x.leading + 1 - n) := by positivity
    obtain ⟨hlow, hhigh⟩ := nearest_spec (den_inUnits_pos hden (x.leading + 1 - n))
    refine ⟨n, le_rfl, le_rfl, rfl, pow_leading_le hnum hden hn hlow, .inr ⟨rfl, ?_⟩⟩
    rw [(inUnits_spec x _).1] at hhigh
    calc (x.shortestFrom n 0).value
        ≤ (x.value / 10 ^ (x.leading + 1 - n) + 1 / 2) * 10 ^ (x.leading + 1 - n) :=
          mul_le_mul_of_nonneg_right hhigh hunit.le
      _ = x.value + 10 ^ (x.leading + 1 - n) / 2 := by field_simp
  | succ tries ih =>
    have hunit : (0 : ℚ) < 10 ^ (x.leading + 1 - n) := by positivity
    cases hc : (x.inUnits (x.leading + 1 - n)).neighbour? with
    | none =>
      obtain ⟨m, hm, hm', hspec⟩ := ih (Nat.succ_pos n)
      have hnext : x.shortestFrom n (tries + 1) = x.shortestFrom (n + 1) tries := by
        rw [shortestFrom, hc]
      rw [hnext]
      refine ⟨m, by omega, by omega, ?_⟩
      rwa [show n + (tries + 1) = n + 1 + tries by omega]
    | some c =>
      have hfound : x.shortestFrom n (tries + 1) = ⟨c, x.leading + 1 - n⟩ := by
        rw [shortestFrom, hc]
      obtain ⟨hlow, hhigh⟩ := neighbour?_spec (den_inUnits_pos hden _) hc
      rw [hfound]
      refine ⟨n, le_rfl, by omega, rfl, pow_leading_le hnum hden hn hlow, .inl ?_⟩
      rw [(inUnits_spec x _).1, (inUnits_spec x _).2, ← add_div, le_div_iff₀ hunit] at hhigh
      exact hhigh

/-- **The shortest decimal of a number below `10 ^ 16`** is below it, if the float above
the number is not beyond, and the number one unit below. -/
theorem value_shortest_lt (hnum : 0 < x.num) (hden : 0 < x.den) (habove : 0 < x.above)
    (hgap : x.value + 2 * x.half ≤ 10 ^ 16) (hone : x.value + 1 ≤ 10 ^ 16) :
    x.shortest.value < 10 ^ 16 := by
  have hhalf : 0 < x.half := by
    rw [half]
    positivity
  have hleading : x.leading < 16 := by
    have hlt : (10 : ℚ) ^ x.leading < 10 ^ (16 : ℤ) := by
      have hlow := (leading_spec hnum hden).1
      norm_num at hone ⊢
      linarith
    exact (zpow_lt_zpow_iff_right₀ (by norm_num)).1 hlt
  rw [shortest, (normalize_spec _).1]
  obtain ⟨m, -, -, -, -, hclose | ⟨rfl, hclose⟩⟩ :=
    shortestFrom_spec hnum hden (n := 1) (by decide) 16
  · linarith
  · -- after 17 digits, the last unit is below the point
    have hunit : (10 : ℚ) ^ (x.leading + 1 - (1 + 16 : ℕ)) ≤ 10 ^ (0 : ℤ) :=
      zpow_le_zpow_right₀ (by norm_num) (by omega)
    rw [zpow_zero] at hunit
    generalize (10 : ℚ) ^ (x.leading + 1 - (1 + 16 : ℕ)) = unit at hclose hunit
    linarith

/-- **The shortest decimal of a number from `10 ^ 16` on** is not below that and has no
digits behind the point. -/
theorem shortest_of_le (hnum : 0 < x.num) (hden : 0 < x.den) (h : 10 ^ 16 ≤ x.value) :
    0 ≤ x.shortest.exponent ∧ 10 ^ 16 ≤ x.shortest.value := by
  have hleading : 16 ≤ x.leading := by
    have hlt : (10 : ℚ) ^ (16 : ℤ) < 10 ^ (x.leading + 1) := by
      have hhigh := (leading_spec hnum hden).2
      norm_num at h ⊢
      linarith
    have := (zpow_lt_zpow_iff_right₀ (by norm_num)).1 hlt
    omega
  obtain ⟨hvalue, hexponent, -⟩ := normalize_spec (x.shortestFrom 1 16)
  obtain ⟨m, -, hm, hm', hlow, -⟩ := shortestFrom_spec hnum hden (n := 1) (by decide) 16
  rw [shortest, hvalue]
  refine ⟨by omega, le_trans ?_ hlow⟩
  exact_mod_cast zpow_le_zpow_right₀ (a := (10 : ℚ)) (by norm_num) hleading

/-- The shortest decimal of a positive number has a digit. -/
theorem digits_shortest_pos (hnum : 0 < x.num) (hden : 0 < x.den) : 0 < x.shortest.digits := by
  refine (normalize_spec _).2.2 (Nat.pos_of_ne_zero fun hzero => ?_)
  obtain ⟨m, -, -, -, hlow, -⟩ := shortestFrom_spec hnum hden (n := 1) (by decide) 16
  rw [Decimal.value, hzero, Nat.cast_zero, zero_mul] at hlow
  exact (zpow_pos (by norm_num) x.leading).not_ge hlow

end Magnitude
end Decimal
end FlatScript
