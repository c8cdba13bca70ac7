/-
# Which floats show a point

A printed float is written positionally.  Digits behind the point show one, and a whole
number shows `.0` if its leading digit stands below `10 ^ 16`.

| magnitude | digits | text |
| --- | --- | --- |
| below `10 ^ 16`, not whole | some behind the point | `0.1` |
| below `10 ^ 16`, whole | none behind the point | `2.0` |
| from `10 ^ 16` on | none behind the point | `10000000000000000` |

All floats of the last row are whole numbers.  So a finite float shows a point exactly
when it is below `10 ^ 16` in magnitude, and then its text is no integer's; from there on
its text is that of a whole number and can be that of an integer
(`Value.text_real_shows_point`).
-/

import FlatScript.Proofs.Numbers.Exact
import FlatScript.Proofs.Numbers.Shortest

namespace FlatScript

namespace Decimal

namespace Magnitude

/-- The mantissa that the fields of a float stand for. -/
def mantissa (e f : ℕ) : ℕ :=
  if e = 0 then f else fractions + f

/-- The exponent field, where that of a subnormal float counts as one. -/
def scale (e : ℕ) : ℕ :=
  if e = 0 then 1 else e

/-- What the fields of a float stand for, in quarters of the gap above it: fractions of a
small exponent, and whole numbers of a large one. -/
theorem ofFields_cases (e f : ℕ) :
    (∃ k, scale e + k = 1076 ∧ (ofFields e f).num = 4 * mantissa e f ∧
      (ofFields e f).den = 2 * 2 ^ k ∧ (ofFields e f).above = 2) ∨
    ∃ k, scale e = 1077 + k ∧ (ofFields e f).num = 4 * (mantissa e f * 2 ^ k) ∧
      (ofFields e f).den = 1 ∧ (ofFields e f).above = 2 * 2 ^ k := by
  by_cases hlarge : 1077 ≤ scale e
  · refine .inr ⟨scale e - 1077, by omega, ?_⟩
    have hfields : ofFields e f = ⟨4 * mantissa e f * 2 ^ (scale e - 1077), 1, _,
        2 * 2 ^ (scale e - 1077), _⟩ := if_pos hlarge
    rw [hfields]
    exact ⟨Nat.mul_assoc .., rfl, rfl⟩
  · refine .inl ⟨1076 - scale e, by omega, ?_⟩
    have hfields : ofFields e f = ⟨4 * mantissa e f, 2 ^ (1077 - scale e), _, 2, _⟩ :=
      if_neg hlarge
    have hden : 2 ^ (1077 - scale e) = 2 * 2 ^ (1076 - scale e) := by
      rw [← Nat.pow_succ']
      congr 1
      omega
    rw [hfields]
    exact ⟨rfl, hden, rfl⟩

theorem den_ofFields_pos (e f : ℕ) : 0 < (ofFields e f).den := by
  obtain ⟨k, -, -, hden, -⟩ | ⟨k, -, -, hden, -⟩ := ofFields_cases e f
  · rw [hden]
    positivity
  · rw [hden]
    exact Nat.one_pos

/-- There is a gap above every float. -/
theorem above_ofFields_pos (e f : ℕ) : 0 < (ofFields e f).above := by
  obtain ⟨k, -, -, -, habove⟩ | ⟨k, -, -, -, habove⟩ := ofFields_cases e f
  · omega
  · rw [habove]
    positivity

/-- A mantissa has 53 bits, the one that is not written among them. -/
theorem mantissa_lt {e f : ℕ} (hf : f < fractions) : mantissa e f < 2 ^ 53 := by
  have hfractions : fractions = 2 ^ 52 := rfl
  unfold mantissa
  split <;> omega

/-- The mantissa of a large exponent has the bit that is not written. -/
theorem le_mantissa {e f : ℕ} (he : 1 < scale e) : 2 ^ 52 ≤ mantissa e f := by
  have hfractions : fractions = 2 ^ 52 := rfl
  unfold scale at he
  unfold mantissa
  split at he
  · omega
  · rename_i hne
    rw [if_neg hne]
    omega

/-- **The exact value of the fields** is the mantissa at its scale. -/
theorem value_ofFields (e f : ℕ) :
    (ofFields e f).value = mantissa e f * 2 ^ ((scale e : ℤ) - 1075) := by
  obtain ⟨k, hk, hnum, hden, -⟩ | ⟨k, hk, hnum, hden, -⟩ := ofFields_cases e f
  · have hexponent : (scale e : ℤ) - 1075 = 1 - (k : ℤ) := by omega
    rw [value, hnum, hden, hexponent, zpow_sub₀ two_ne_zero, zpow_one, zpow_natCast]
    push_cast
    field_simp
    ring
  · have hexponent : (scale e : ℤ) - 1075 = ((2 + k : ℕ) : ℤ) := by omega
    rw [value, hnum, hden, hexponent, zpow_natCast, pow_add]
    push_cast
    ring

/-- Only the fields of a zero stand for none. -/
theorem num_ofFields_pos {e f : ℕ} (h : ¬ (e = 0 ∧ f = 0)) : 0 < (ofFields e f).num := by
  have hmantissa : 0 < mantissa e f := by
    have hfractions : fractions = 2 ^ 52 := rfl
    unfold mantissa
    split <;> omega
  obtain ⟨k, -, hnum, -⟩ | ⟨k, -, hnum, -⟩ := ofFields_cases e f
  · omega
  · rw [hnum]
    positivity

/-- A float is below `10 ^ 16` exactly when its numerator is so many times its
denominator. -/
theorem value_lt_iff {x : Magnitude} (hden : 0 < x.den) :
    x.value < 10 ^ 16 ↔ x.num < 10 ^ 16 * x.den := by
  rw [value, div_lt_iff₀ (by exact_mod_cast hden)]
  exact_mod_cast Iff.rfl

/-- A float below `10 ^ 16` has a small exponent. -/
theorem exists_of_value_lt {e f : ℕ} (h : (ofFields e f).value < 10 ^ 16) :
    ∃ k, (ofFields e f).num = 4 * mantissa e f ∧ (ofFields e f).den = 2 * 2 ^ k ∧
      (ofFields e f).above = 2 := by
  obtain ⟨k, -, hfields⟩ | ⟨k, hk, hnum, hden, -⟩ := ofFields_cases e f
  · exact ⟨k, hfields⟩
  · rw [value_lt_iff (den_ofFields_pos e f), hnum, hden] at h
    have hlow := le_mantissa (f := f) (show 1 < scale e by omega)
    have hmul := Nat.le_mul_of_pos_right (mantissa e f) (Nat.two_pow_pos k)
    omega

/-- **`10 ^ 16` is a float.**  So the one above a smaller one is not beyond it, and the
smaller one is at least a unit below, for the fractions end before. -/
theorem gap_ofFields {e f : ℕ} (hf : f < fractions) (h : (ofFields e f).value < 10 ^ 16) :
    (ofFields e f).value + 2 * (ofFields e f).half ≤ 10 ^ 16 ∧
      (ofFields e f).value + 1 ≤ 10 ^ 16 := by
  have hden := den_ofFields_pos e f
  have hden' : (0 : ℚ) < (ofFields e f).den := by exact_mod_cast hden
  have hmantissa := mantissa_lt (e := e) hf
  obtain ⟨k, hnum, hpow, habove⟩ := exists_of_value_lt h
  have hpos := Nat.two_pow_pos k
  have hsmall : 2 ^ k ≤ 2 ∨ 4 ≤ 2 ^ k := by
    rcases Nat.lt_or_ge k 2 with hk | hk
    · exact .inl (Nat.pow_le_pow_right Nat.two_pos (by omega : k ≤ 1))
    · exact .inr (Nat.pow_le_pow_right Nat.two_pos hk)
  have hnat : (ofFields e f).num + 2 * (ofFields e f).above ≤ 10 ^ 16 * (ofFields e f).den ∧
      (ofFields e f).num + (ofFields e f).den ≤ 10 ^ 16 * (ofFields e f).den := by
    rw [value_lt_iff hden] at h
    omega
  constructor
  · rw [value, half, ← mul_div_assoc, ← add_div, div_le_iff₀ hden']
    exact_mod_cast hnat.1
  · rw [value, div_add_one hden'.ne', div_le_iff₀ hden']
    exact_mod_cast hnat.2

/-- **Floats from `10 ^ 16` on are whole numbers.** -/
theorem whole_of_le {e f : ℕ} (hf : f < fractions) (h : 10 ^ 16 ≤ (ofFields e f).value) :
    ∃ n : ℕ, (ofFields e f).value = n := by
  have hden := den_ofFields_pos e f
  have hmantissa := mantissa_lt (e := e) hf
  rw [← not_lt, value_lt_iff hden] at h
  suffices hdvd : (ofFields e f).den ∣ (ofFields e f).num by
    refine ⟨(ofFields e f).num / (ofFields e f).den, ?_⟩
    rw [value, Nat.cast_div hdvd (by exact_mod_cast hden.ne')]
  obtain ⟨k, -, hnum, hpow, -⟩ | ⟨k, -, -, hone, -⟩ := ofFields_cases e f
  · rw [hnum, hpow] at h ⊢
    rcases Nat.lt_or_ge k 2 with hk | hk
    · have hfour : 2 * 2 ^ k ∣ 4 := by
        obtain rfl | rfl : k = 0 ∨ k = 1 := by omega
        · decide
        · decide
      exact hfour.mul_right _
    · have hlarge : 4 ≤ 2 ^ k := Nat.pow_le_pow_right Nat.two_pos hk
      omega
  · rw [hone]
    exact one_dvd _

end Magnitude

/-- Zeros behind the digits of a number are the digits of a number so many times as
large. -/
theorem toDigits_mul_pow {n : ℕ} (hn : 0 < n) (k : ℕ) :
    Nat.toDigits 10 (n * 10 ^ k) = Nat.toDigits 10 n ++ List.replicate k '0' := by
  induction k with
  | zero => simp
  | succ k ih =>
    have hpos : 0 < n * 10 ^ k := by positivity
    have hten : n * 10 ^ (k + 1) = n * 10 ^ k * 10 := by rw [pow_succ, mul_assoc]
    rw [hten, Nat.toDigits_of_base_le (by decide) (by omega), Nat.mul_div_cancel _ (by decide), ih,
      Nat.mul_mod_left, List.replicate_succ', List.append_assoc]
    rfl

/-- Digits have no point. -/
theorem point_notMem_toDigits (n : ℕ) : '.' ∉ Nat.toDigits 10 n :=
  fun h => absurd (Nat.isDigit_of_mem_toDigits (by decide) (by decide) h) (by decide)

namespace Layout

/-- **A decimal that is written positionally shows a point** when it has digits behind it,
or is to show one. -/
theorem mem_point_positionally (d : Decimal) (pointed : Bool) :
    '.' ∈ (positionally d pointed).toList ↔ d.exponent < 0 ∨ pointed = true := by
  have hdigits := point_notMem_toDigits d.digits
  by_cases hexponent : 0 ≤ d.exponent
  · rw [positionally, if_pos hexponent]
    cases pointed <;> simp [zeros, hdigits, hexponent]
  · rw [positionally, if_neg hexponent]
    split <;> simp [not_le.1 hexponent]

/-- A whole decimal without a point is written as a natural number. -/
theorem positionally_eq_repr {d : Decimal} (hexponent : 0 ≤ d.exponent) (hdigits : 0 < d.digits) :
    positionally d false = toString (d.digits * 10 ^ d.exponent.toNat) := by
  rw [positionally, if_pos hexponent, Nat.toString_eq_ofList_toDigits, toDigits_mul_pow hdigits,
    String.ofList_append]
  simp [zeros]

end Layout
end Decimal

section Fields

open Float.Model Float.Model.UnpackedFloat Decimal Decimal.Magnitude

variable (b : BitVec Format.binary64.numBits)

/-- The exponent field of the bits of a double. -/
theorem toNat_unpackExponent : (unpackExponent b).toNat = b.toNat / fractions % 0x800 := by
  rw [unpackExponent, BitVec.toNat_cast, BitVec.extractLsb, BitVec.extractLsb'_toNat,
    Nat.shiftRight_eq_div_pow]
  rfl

/-- The fraction field of the bits of a double. -/
theorem toNat_unpackMantissa : (unpackMantissa b).toNat = b.toNat % fractions := by
  rw [unpackMantissa, BitVec.toNat_cast, BitVec.extractLsb, BitVec.extractLsb'_toNat,
    Nat.shiftRight_zero]
  rfl

/-- **The fields of a finite float give its exact value**, up to the sign. -/
theorem abs_numberOf_unpack (h : (UnpackedFloat.unpack .binary64 b).isFinite = true) :
    |numberOf (UnpackedFloat.unpack .binary64 b)| =
      (ofFields (b.toNat / fractions % 0x800) (b.toNat % fractions)).value := by
  have hbias : (Format.binary64.exponentBias : ℤ) = 1023 := rfl
  have hbits : (Format.binary64.mantissaBitsWithoutImplicit : ℤ) = 52 := rfl
  have habs : ∀ (s : Sign) (m : ℕ) (e : ℤ) (hm : 0 < m),
      |numberOf (.finite s m e hm)| = m * 2 ^ e := by
    intro s m e hm
    cases s with
    | positive => rw [numberOf_positive, abs_of_nonneg (by positivity)]
    | negative => rw [numberOf_negative, abs_neg, abs_of_nonneg (by positivity)]
  have hexponent := isFinite_unpack_iff.1 h
  rw [value_ofFields, ← toNat_unpackExponent, ← toNat_unpackMantissa]
  delta UnpackedFloat.unpack
  dsimp only
  rw [if_neg hexponent]
  by_cases hzero : unpackExponent b = 0#_
  · have hnat : (unpackExponent b).toNat = 0 := congrArg BitVec.toNat hzero
    rw [if_pos hzero, hnat]
    split
    · rename_i hmantissa
      rw [hmantissa]
      simp [numberOf, mantissa]
    · rw [habs, hbias, hbits]
      simp [mantissa, scale]
  · have hnat : (unpackExponent b).toNat ≠ 0 := fun hn => hzero (BitVec.eq_of_toNat_eq hn)
    rw [if_neg hzero, habs, toNat_implicit, hbias, hbits, mantissa, scale, if_neg hnat, if_neg hnat]
    norm_num [fractions]

/-- What a finite float is read as: a zero, or the shortest decimal of its exact value. -/
theorem exists_reading {x : Float} (h : x.isFinite = true) :
    ∃ negative d, Reading.ofFloat x = .finite negative d ∧
      (d = ⟨0, 0⟩ ∧ exactOf x = 0 ∨
        ∃ e f, ¬ (e = 0 ∧ f = 0) ∧ f < fractions ∧ d = (ofFields e f).shortest ∧
          |exactOf x| = (ofFields e f).value) := by
  have habs := abs_numberOf_unpack x.toModel.toBits.toBitVec h
  have hexponent : x.toBits.toNat / fractions % 0x800 ≠ 0x7ff := by
    intro hones
    refine isFinite_unpack_iff.1 h (BitVec.eq_of_toNat_eq ?_)
    exact (toNat_unpackExponent x.toModel.toBits.toBitVec).trans hones
  have hf : x.toBits.toNat % fractions < fractions := Nat.mod_lt _ (by decide)
  change |exactOf x| =
    (ofFields (x.toBits.toNat / fractions % 0x800) (x.toBits.toNat % fractions)).value at habs
  unfold Reading.ofFloat
  dsimp only
  generalize x.toBits.toNat / fractions % 0x800 = e at habs hexponent ⊢
  generalize x.toBits.toNat % fractions = f at habs hf ⊢
  rw [if_neg hexponent]
  by_cases hzero : e = 0 ∧ f = 0
  · rw [if_pos hzero]
    refine ⟨_, _, rfl, .inl ⟨rfl, ?_⟩⟩
    obtain ⟨rfl, rfl⟩ := hzero
    rw [value_ofFields] at habs
    simpa [mantissa] using habs
  · rw [if_neg hzero]
    exact ⟨_, _, rfl, .inr ⟨e, f, hzero, hf, rfl, habs⟩⟩

/-- **The digits of a finite float.**  Below `10 ^ 16` their leading one stands below that;
from there on the float is a whole number, and so are its digits. -/
theorem exists_digits {x : Float} (h : x.isFinite = true) :
    ∃ negative d, Reading.ofFloat x = .finite negative d ∧
      (|exactOf x| < 10 ^ 16 ∧ d.leading < 16 ∨
        10 ^ 16 ≤ |exactOf x| ∧ (∃ n : ℕ, |exactOf x| = n) ∧
          0 < d.digits ∧ 0 ≤ d.exponent ∧ 16 ≤ d.leading) := by
  obtain ⟨negative, d, hreading, ⟨rfl, hzero⟩ | ⟨e, f, hfields, hf, rfl, habs⟩⟩ := exists_reading h
  · refine ⟨negative, _, hreading, .inl ⟨?_, by decide⟩⟩
    rw [hzero, abs_zero]
    norm_num
  · have hnum := num_ofFields_pos hfields
    have hden := den_ofFields_pos e f
    have hdigits := digits_shortest_pos hnum hden
    refine ⟨negative, _, hreading, ?_⟩
    rw [habs]
    rcases lt_or_ge (ofFields e f).value (10 ^ 16) with hlt | hle
    · obtain ⟨hgap, hone⟩ := gap_ofFields hf hlt
      have hsmall := value_shortest_lt hnum hden (above_ofFields_pos e f) hgap hone
      refine .inl ⟨hlt, ?_⟩
      rw [← not_le, le_leading_iff hdigits, not_le]
      exact_mod_cast hsmall
    · obtain ⟨hexponent, hlarge⟩ := shortest_of_le hnum hden hle
      refine .inr ⟨hle, whole_of_le hf hle, hdigits, hexponent, ?_⟩
      rw [le_leading_iff hdigits]
      exact_mod_cast hlarge

end Fields

namespace Value

open Decimal Decimal.Layout

/-- A finite float is shown by its sign and digits, with a point below `1e16`. -/
theorem text_real_of_reading {x : Float} {negative : Bool} {d : Decimal}
    (h : Reading.ofFloat x = .finite negative d) :
    text (.real x) = (if negative then "-" else "") ++ positionally d (d.leading < 16) := by
  simp only [text, Layout.float, h, Layout.decimal, printed, if_true]

/-- No integer shows a point. -/
theorem point_notMem_toString (z : ℤ) : '.' ∉ (toString z).toList := by
  rw [Int.toString_eq_repr, Int.repr_eq_if]
  split <;> simp [Nat.repr_eq_ofList_toDigits, point_notMem_toDigits]

/-- Digits after a sign, or after none, are those of an integer. -/
theorem exists_toString_eq (negative : Bool) {n : ℕ} (hn : 0 < n) :
    ∃ z : ℤ, (if negative then "-" else "") ++ toString n = toString z ∧ z.natAbs = n := by
  cases negative with
  | false =>
    refine ⟨n, ?_, Int.natAbs_natCast n⟩
    rw [Int.toString_eq_repr, Int.repr_eq_if, if_pos (Int.natCast_nonneg n)]
    simp [Nat.toString_eq_repr]
  | true =>
    refine ⟨-n, ?_, by omega⟩
    rw [Int.toString_eq_repr, Int.repr_eq_if, if_neg (show ¬ (0 : ℤ) ≤ -n by omega)]
    simp [Nat.toString_eq_repr]

/-- **Which floats show a point.**  A finite float shows a point exactly when it is below
`10 ^ 16` in magnitude, and then no integer has its text.  All others are whole numbers,
and have the text of a whole number that is not below `10 ^ 16` either. -/
theorem text_real_shows_point {x : Float} (h : x.isFinite = true) :
    ('.' ∈ (text (.real x)).toList ↔ |exactOf x| < 10 ^ 16) ∧
      (|exactOf x| < 10 ^ 16 → ∀ n, text (.real x) ≠ text (.integer n)) ∧
      (10 ^ 16 ≤ |exactOf x| → (∃ n : ℕ, |exactOf x| = n) ∧
        ∃ z : ℤ, text (.real x) = toString z ∧ 10 ^ 16 ≤ z.natAbs) := by
  obtain ⟨negative, d, hreading, hdigits⟩ := exists_digits h
  have htext := text_real_of_reading hreading
  have hpoint : '.' ∈ (text (.real x)).toList ↔ |exactOf x| < 10 ^ 16 := by
    have hsign : '.' ∉ (if negative then "-" else "").toList := by cases negative <;> decide
    rw [htext, String.toList_append, List.mem_append, or_iff_right hsign, mem_point_positionally,
      decide_eq_true_eq]
    rcases hdigits with ⟨hlt, hleading⟩ | ⟨hle, -, -, hexponent, hleading⟩
    · exact iff_of_true (.inr hleading) hlt
    · exact iff_of_false (by omega) hle.not_gt
  refine ⟨hpoint, fun hlt n heq => ?_, fun hle => ?_⟩
  · have hmem := hpoint.2 hlt
    rw [heq] at hmem
    exact point_notMem_toString n.toInt hmem
  · rcases hdigits with ⟨hlt, -⟩ | ⟨-, hwhole, hpos, hexponent, hleading⟩
    · exact absurd hlt hle.not_gt
    · refine ⟨hwhole, ?_⟩
      have hn : 10 ^ 16 ≤ d.digits * 10 ^ d.exponent.toNat := by
        have hvalue := (le_leading_iff hpos 16).1 hleading
        obtain ⟨k, hk⟩ := Int.eq_ofNat_of_zero_le hexponent
        rw [Decimal.value, hk, zpow_natCast] at hvalue
        rw [hk, Int.toNat_natCast]
        exact_mod_cast hvalue
      obtain ⟨z, hz, habs⟩ := exists_toString_eq negative (n := d.digits * 10 ^ d.exponent.toNat)
        (by omega)
      refine ⟨z, ?_, habs ▸ hn⟩
      rw [htext, decide_eq_false (not_lt.2 hleading), positionally_eq_repr hexponent hpos, hz]

/-- The two floats on the sides of the bound. -/
theorem text_real_shows_point_bound :
    let below : Float := 9999999999999998.0
    let bound : Float := 10000000000000000.0
    (below.isFinite = true ∧ text (.real below) = "9999999999999998.0" ∧
        |exactOf below| < 10 ^ 16) ∧
      bound.isFinite = true ∧ text (.real bound) = "10000000000000000" ∧
        10 ^ 16 ≤ |exactOf bound| := by
  intro below bound
  have hbelow : below.isFinite = true := by decide
  have hbound : bound.isFinite = true := by decide
  have htextBelow : text (.real below) = "9999999999999998.0" := by decide +kernel
  have htextBound : text (.real bound) = "10000000000000000" := by decide +kernel
  obtain ⟨⟨hlt, -⟩, -⟩ := text_real_shows_point hbelow
  obtain ⟨⟨-, hpoint⟩, -⟩ := text_real_shows_point hbound
  rw [htextBelow] at hlt
  rw [htextBound] at hpoint
  refine ⟨⟨hbelow, htextBelow, hlt (by decide)⟩, hbound, htextBound, not_lt.1 fun hsmall => ?_⟩
  exact absurd (hpoint hsmall) (by decide)

/-- Ten to the 16th has the same text as a float and as an integer. -/
theorem exists_real_printed_as_integer :
    ∃ (x : Float) (n : Int64), x.isFinite = true ∧ '.' ∉ (text (.real x)).toList ∧
      text (.real x) = text (.integer n) :=
  ⟨10000000000000000.0, 10000000000000000, by decide, by decide +kernel, by decide +kernel⟩

end Value
end FlatScript
