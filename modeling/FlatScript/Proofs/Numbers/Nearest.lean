/-
# The float nearest to an integer

A number that has too many binary digits for a float loses its low ones, one at a
time.  Two bits say what has been lost: the round bit is the digit that went last,
and the sticky bit tells whether there was a 1 among those before.  They are all
that rounding needs (`Tracks.rounds`):

| round | sticky | lost, of one unit | rounded |
| --- | --- | --- | --- |
| 0 | 0 | nothing | down |
| 0 | 1 | less than a half | down |
| 1 | 0 | a half | to even |
| 1 | 1 | more than a half | up |

Floats of a larger exponent are multiples of that unit too, and floats of a
smaller one lie below the number altogether.  So the rounded number is the
nearest float (`isNormalNear_roundWithAccuracy`), and an integer is converted to
the float nearest to it (`Value.isNearest_nearestFloat`).
-/

import FlatScript.Proofs.Numbers.Exact

namespace FlatScript

open Float.Model Float.Model.UnpackedFloat

section Shifting

variable {x k : ℕ} {em : ExtendedMantissa}

/-- An extended mantissa holds the number `x` without its last `k` digits.  The
digits beyond the round bit, which it does not hold, amount to half of `rest`. -/
def Tracks (x k : ℕ) (em : ExtendedMantissa) : Prop :=
  ∃ rest < 2 ^ k, 2 * x = 2 ^ k * (2 * em.mantissa + em.roundBit.toNat) + rest ∧
    (em.stickyBit = true ↔ rest ≠ 0)

/-- Nothing is lost at first. -/
theorem tracks_exact (x : ℕ) : Tracks x 0 (.ofMantissaAndAccuracy x .exact) :=
  ⟨0, by simp, by simp [ExtendedMantissa.ofMantissaAndAccuracy],
    by simp [ExtendedMantissa.ofMantissaAndAccuracy]⟩

/-- One digit more is lost. -/
theorem Tracks.shiftRightOne (h : Tracks x k em) : Tracks x (k + 1) em.shiftRightOne := by
  obtain ⟨rest, hrest, hx, hsticky⟩ := h
  have hbit : em.roundBit.toNat ≤ 1 := Bool.toNat_le _
  have hround : (em.mantissa % 2 != 0).toNat = em.mantissa % 2 := by
    rcases Nat.mod_two_eq_zero_or_one em.mantissa with hm | hm <;> simp [hm]
  refine ⟨2 ^ k * em.roundBit.toNat + rest, ?_, ?_, ?_⟩
  · have hle : 2 ^ k * em.roundBit.toNat ≤ 2 ^ k * 1 := Nat.mul_le_mul_left _ hbit
    rw [pow_succ]
    omega
  · have hm := Nat.div_add_mod em.mantissa 2
    change 2 * x = 2 ^ (k + 1) * (2 * (em.mantissa / 2) + (em.mantissa % 2 != 0).toNat) + _
    rw [hround, hm, hx]
    ring
  · change (em.roundBit || em.stickyBit) = true ↔ _
    rw [Bool.or_eq_true, hsticky]
    cases em.roundBit <;> simp

/-- **Losing digits one at a time loses them as it should.** -/
theorem Tracks.shiftRight (h : Tracks x 0 em) (k : ℕ) : Tracks x k (em >>> k) := by
  induction k with
  | zero => exact h
  | succ k ih => exact ih.shiftRightOne

/-- The number of units of size `q` that is nearest to `x`, the even one where two are. -/
structure Rounds (x q r : ℕ) : Prop where
  above : 2 * x ≤ (2 * r + 1) * q
  below : 2 * r * q ≤ 2 * x + q
  even_of_above : 2 * x = (2 * r + 1) * q → Even r
  even_of_below : 2 * r * q = 2 * x + q → Even r

section Units

variable {q m d : ℕ}

/-- Less than half a unit is dropped. -/
theorem Rounds.down (hx : 2 * x = 2 * (m * q) + d) (hd : d < q) : Rounds x q m := by
  have hunits : 2 * m * q = 2 * (m * q) := by ring
  have hnext : (2 * m + 1) * q = 2 * (m * q) + q := by ring
  constructor <;> omega

/-- More than half a unit counts as one. -/
theorem Rounds.up (hx : 2 * x = 2 * (m * q) + d) (hlow : q < d) (hhigh : d < 2 * q) :
    Rounds x q (m + 1) := by
  have hunits : 2 * (m + 1) * q = 2 * (m * q) + 2 * q := by ring
  have hnext : (2 * (m + 1) + 1) * q = 2 * (m * q) + 3 * q := by ring
  constructor <;> omega

/-- Half a unit goes to the even number. -/
theorem Rounds.tie (hx : 2 * x = 2 * (m * q) + q) : Rounds x q (m + m % 2) := by
  have heven : Even (m + m % 2) := by rw [Nat.even_iff]; omega
  rcases Nat.mod_two_eq_zero_or_one m with hm | hm
  · have hunits : 2 * (m + 0) * q = 2 * (m * q) := by ring
    have hnext : (2 * (m + 0) + 1) * q = 2 * (m * q) + q := by ring
    rw [hm] at heven ⊢
    exact ⟨by omega, by omega, fun _ => heven, fun _ => heven⟩
  · have hunits : 2 * (m + 1) * q = 2 * (m * q) + 2 * q := by ring
    have hnext : (2 * (m + 1) + 1) * q = 2 * (m * q) + 3 * q := by ring
    rw [hm] at heven ⊢
    exact ⟨by omega, by omega, fun _ => heven, fun _ => heven⟩

end Units

/-- **The two bits decide how to round.** -/
theorem Tracks.rounds (h : Tracks x k em) : Rounds x (2 ^ k) em.roundedMantissa := by
  obtain ⟨rest, hrest, hx, hsticky⟩ := h
  obtain ⟨m, round, sticky⟩ := em
  cases round with
  | false =>
    have hlost : 2 * x = 2 * (m * 2 ^ k) + rest := by
      rw [hx, Bool.toNat_false]
      ring
    cases sticky with
    | false => exact .down hlost hrest
    | true => exact .down hlost hrest
  | true =>
    have hlost : 2 * x = 2 * (m * 2 ^ k) + (2 ^ k + rest) := by
      rw [hx, Bool.toNat_true]
      ring
    cases sticky with
    | false =>
      obtain rfl : rest = 0 := by simpa using hsticky
      exact .tie hlost
    | true =>
      have hpos : rest ≠ 0 := hsticky.1 rfl
      exact .up hlost (by omega) (by omega)

/-- A number of 53 digits is rounded to one of 53 digits, or to the next power of two. -/
theorem Rounds.bounds {q r : ℕ} (h : Rounds x q r) (hq : 0 < q) (hlow : 2 ^ 52 * q ≤ x)
    (hhigh : x < 2 ^ 53 * q) : 2 ^ 52 ≤ r ∧ r ≤ 2 ^ 53 := by
  have habove : 2 ^ 53 * q ≤ (2 * r + 1) * q := by linarith [h.above]
  have hbelow : 2 * r * q < (2 ^ 54 + 1) * q := by linarith [h.below]
  have hlow' := Nat.le_of_mul_le_mul_right habove hq
  have hhigh' := Nat.lt_of_mul_lt_mul_right hbelow
  omega

/-- A number of 53 digits and `j` more. -/
theorem two_pow_log2 {j : ℕ} (hlog : x.log2 = 52 + j) :
    2 ^ 52 * 2 ^ j ≤ x ∧ x < 2 ^ 53 * 2 ^ j := by
  have hx : x ≠ 0 := by
    rintro rfl
    rw [Nat.log2_zero] at hlog
    omega
  obtain ⟨hlow, hhigh⟩ := (Nat.log2_eq_iff hx).1 hlog
  rw [← pow_add, ← pow_add]
  exact ⟨hlow, by rwa [show 53 + j = 52 + j + 1 by omega]⟩

/-- A double has 53 digits, and no exponent below that of the subnormal ones. -/
theorem targetExponent_eq (x : ℕ) (e : ℤ) :
    Format.binary64.targetExponent (totalExponent x e) = max (x.log2 + e - 52) (-1074) := by
  have hbits : Format.binary64.mantissaBits = 53 := rfl
  have hmin : Format.binary64.minExponent = -1074 := rfl
  unfold Format.targetExponent totalExponent
  rw [hbits, hmin]
  push_cast
  omega

/-- The digits after the first 53 are lost. -/
theorem shiftToTargetExponent_eq {j : ℕ} {e : ℤ} (hlog : x.log2 = 52 + j) (he : -1074 ≤ e + j) :
    shiftToTargetExponent .binary64 x e .exact =
      (ExtendedMantissa.ofMantissaAndAccuracy x .exact >>> j, e + j) := by
  have htarget : Format.binary64.targetExponent (totalExponent x e) = e + j := by
    rw [targetExponent_eq, hlog]
    push_cast
    omega
  have hshift : (e + j - e).toNat = j := by omega
  unfold shiftToTargetExponent shiftToExponent
  simp only [htarget, hshift]

/-- **Rounding to 53 digits.**  Where that makes 54, the last of them is 0 and is
dropped. -/
theorem exists_roundWithAccuracy {j : ℕ} {e : ℤ} {s : Sign} (hlog : x.log2 = 52 + j)
    (he : -1074 ≤ e + j) :
    ∃ r m e' hm, roundWithAccuracy .binary64 s x e .exact = .finite s m e' hm ∧
      Rounds x (2 ^ j) r ∧ 2 ^ 52 ≤ m ∧ m < 2 ^ 53 ∧
      (m = r ∧ e' = e + j ∨ r = 2 ^ 53 ∧ m = 2 ^ 52 ∧ e' = e + j + 1) := by
  have hrounds := ((tracks_exact x).shiftRight j).rounds
  obtain ⟨hlow, hhigh⟩ := two_pow_log2 hlog
  obtain ⟨hr, hr'⟩ := hrounds.bounds (by positivity) hlow hhigh
  unfold roundWithAccuracy
  rw [shiftToTargetExponent_eq hlog he]
  dsimp only
  generalize (ExtendedMantissa.ofMantissaAndAccuracy x .exact >>> j).roundedMantissa = r at *
  rcases hr'.lt_or_eq with hr' | rfl
  · have hlog' : r.log2 = 52 + 0 := (Nat.log2_eq_iff (by omega)).2 ⟨hr, hr'⟩
    have hshift := shiftToTargetExponent_eq (e := e + j) hlog' (by omega)
    rw [hshift]
    have hpos : 0 < r := by omega
    exact ⟨r, r, _, hpos, dif_neg hpos.ne', hrounds, hr, hr', .inl ⟨rfl, by omega⟩⟩
  · have hlog' : (2 ^ 53 : ℕ).log2 = 52 + 1 := Nat.log2_two_pow
    have hshift := shiftToTargetExponent_eq (e := e + j) hlog' (by omega)
    rw [hshift]
    have hpos : 0 < 2 ^ 52 := by omega
    exact ⟨2 ^ 53, 2 ^ 52, _, hpos, dif_neg hpos.ne', hrounds, le_rfl, by omega,
      .inr ⟨rfl, rfl, by omega⟩⟩

end Shifting

section Distance

variable {z u : ℚ} {r : ℤ}

/-- **A multiple within half a unit is the nearest one**, and another is as near
only if it is just half a unit away. -/
theorem nearest_multiple (hu : 0 < u) (hr : 2 * |z - r * u| ≤ u) (k : ℤ) :
    |z - r * u| ≤ |z - k * u| ∧
      (|z - r * u| = |z - k * u| → k = r ∨ 2 * |z - r * u| = u) := by
  by_cases hk : k = r
  · subst hk
    exact ⟨le_rfl, fun _ => .inl rfl⟩
  · have hone : (1 : ℚ) ≤ |(k : ℚ) - r| := by
      exact_mod_cast Int.one_le_abs (sub_ne_zero.2 hk)
    have hunit : u ≤ |z - r * u| + |z - k * u| :=
      calc u ≤ |(k : ℚ) - r| * u := le_mul_of_one_le_left hu.le hone
        _ = |((k : ℚ) - r) * u| := by rw [abs_mul, abs_of_pos hu]
        _ = |(z - r * u) - (z - k * u)| := by congr 1; ring
        _ ≤ |z - r * u| + |z - k * u| := abs_sub _ _
    exact ⟨by linarith, fun heq => .inr (by linarith)⟩

/-- Floats are multiples of a unit, or too small for its multiples of 53 digits. -/
theorem Proper.multiple_or_lt {a : UnpackedFloat} (ha : Proper a) (t : ℤ) :
    (∃ k : ℤ, numberOf a = k * 2 ^ t) ∨ numberOf a < 2 ^ 52 * 2 ^ t := by
  cases a with
  | infinity s => exact ha.elim
  | notANumber => exact ha.elim
  | zero s => exact .inl ⟨0, by simp [numberOf]⟩
  | finite s m e hm =>
    rcases le_or_gt t e with ht | ht
    · refine .inl ⟨s.apply m * 2 ^ (e - t).toNat, ?_⟩
      have hsplit : (2 : ℚ) ^ e = 2 ^ (e - t).toNat * 2 ^ t := by
        rw [← zpow_natCast, ← zpow_add₀ two_ne_zero]
        congr 1
        omega
      change ((s.apply m : ℤ) : ℚ) * 2 ^ e = _
      rw [hsplit]
      push_cast
      ring
    · right
      cases s with
      | positive =>
        rw [numberOf_positive]
        exact_mod_cast mul_zpow_lt ha.mantissa le_rfl ht
      | negative =>
        rw [numberOf_negative]
        have hneg : -((m : ℚ) * 2 ^ e) ≤ 0 := neg_nonpos.2 (by positivity)
        exact hneg.trans_lt (by positivity)

/-- **No float is nearer than the nearest multiple**, for a number of 53 digits. -/
theorem Proper.not_nearer {a : UnpackedFloat} {t : ℤ} (ha : Proper a) (hz : 2 ^ 52 * 2 ^ t ≤ z)
    (hr : 2 * |z - r * 2 ^ t| ≤ 2 ^ t) :
    |z - r * 2 ^ t| ≤ |z - numberOf a| ∧
      (|z - r * 2 ^ t| = |z - numberOf a| →
        numberOf a = r * 2 ^ t ∨ 2 * |z - r * 2 ^ t| = 2 ^ t) := by
  have hunit : (0 : ℚ) < 2 ^ t := by positivity
  obtain ⟨k, hk⟩ | hsmall := ha.multiple_or_lt t
  · obtain ⟨hle, htie⟩ := nearest_multiple hunit hr k
    rw [hk]
    refine ⟨hle, fun heq => (htie heq).imp_left ?_⟩
    rintro rfl
    rfl
  · -- the least multiple of 53 digits is between the float and the number
    have hle := (nearest_multiple hunit hr (2 ^ 52)).1
    rw [Int.cast_pow, Int.cast_ofNat, abs_of_nonneg (sub_nonneg.2 hz)] at hle
    have habs : |z - numberOf a| = z - numberOf a := abs_of_nonneg (by linarith)
    exact ⟨by linarith, fun heq => by linarith⟩

/-- Rounding, with the digits in their places. -/
theorem Rounds.distance {x j n : ℕ} (h : Rounds x (2 ^ j) n) (e : ℤ) :
    2 * |(x : ℚ) * 2 ^ e - (n : ℤ) * 2 ^ (e + j)| ≤ 2 ^ (e + j) ∧
      (2 * |(x : ℚ) * 2 ^ e - (n : ℤ) * 2 ^ (e + j)| = 2 ^ (e + j) → Even n) := by
  have hp : (0 : ℚ) < 2 ^ e := by positivity
  have hsplit : (2 : ℚ) ^ (e + j) = 2 ^ j * 2 ^ e := by
    rw [zpow_add₀ two_ne_zero, zpow_natCast, mul_comm]
  have hdistance : |(x : ℚ) * 2 ^ e - (n : ℤ) * 2 ^ (e + j)| = |(x : ℚ) - n * 2 ^ j| * 2 ^ e := by
    rw [hsplit, ← abs_of_pos hp, ← abs_mul, abs_of_pos hp]
    congr 1
    push_cast
    ring
  have habove : 2 * (x : ℚ) ≤ (2 * n + 1) * 2 ^ j := by exact_mod_cast h.above
  have hbelow : 2 * (n : ℚ) * 2 ^ j ≤ 2 * x + 2 ^ j := by exact_mod_cast h.below
  rw [hdistance, hsplit, ← mul_assoc]
  constructor
  · have hunits : |(x : ℚ) - n * 2 ^ j| ≤ 2 ^ j / 2 := abs_le.2 ⟨by linarith, by linarith⟩
    gcongr
    linarith
  · intro heq
    have heq := mul_right_cancel₀ hp.ne' heq
    rcases abs_choice ((x : ℚ) - n * 2 ^ j) with habs | habs
    · refine h.even_of_above ?_
      have hhalf : 2 * (x : ℚ) = (2 * n + 1) * 2 ^ j := by linarith
      exact_mod_cast hhalf
    · refine h.even_of_below ?_
      have hhalf : 2 * (n : ℚ) * 2 ^ j = 2 * x + 2 ^ j := by linarith
      exact_mod_cast hhalf

end Distance

/-- A float of even mantissa. -/
def EvenMantissa : UnpackedFloat → Prop
  | .finite _ m _ _ => Even m
  | _ => True

/-- No float is nearer to a number, and another is as near only if the mantissa of
this one is even. -/
structure NearestForm (z : ℚ) (a : UnpackedFloat) : Prop where
  closest : ∀ b, Proper b → |z - numberOf a| ≤ |z - numberOf b|
  even : ∀ b, Proper b → |z - numberOf a| = |z - numberOf b| →
    numberOf b = numberOf a ∨ EvenMantissa a

/-- A number that is a float is its own nearest. -/
theorem NearestForm.numberOf_eq {z : ℚ} {a b : UnpackedFloat} (h : NearestForm z a) (hb : Proper b)
    (hz : numberOf b = z) : numberOf a = z := by
  have hle := h.closest b hb
  rw [hz, sub_self, abs_zero, abs_nonpos_iff, sub_eq_zero] at hle
  exact hle.symm

/-- A positive normal float, nearest to a number. -/
def IsNormalNear (z : ℚ) (a : UnpackedFloat) : Prop :=
  ∃ m e hm, a = .finite .positive m e hm ∧ 2 ^ 52 ≤ m ∧ IsProper m e ∧ NearestForm z a

/-- **Rounding leads to the nearest float.** -/
theorem isNormalNear_roundWithAccuracy {x j : ℕ} {e : ℤ} (hlog : x.log2 = 52 + j)
    (he : -1074 ≤ e + j) (he' : e + j ≤ 970) :
    IsNormalNear (x * 2 ^ e) (roundWithAccuracy .binary64 .positive x e .exact) := by
  obtain ⟨r, m, e', hm, hround, hr, hlow, hhigh, hcarry⟩ :=
    exists_roundWithAccuracy (s := .positive) hlog he
  obtain ⟨hnear, htie⟩ := hr.distance e
  have hz : (2 : ℚ) ^ 52 * 2 ^ (e + j) ≤ x * 2 ^ e := by
    have hx : (2 : ℚ) ^ 52 * 2 ^ j ≤ x := by exact_mod_cast (two_pow_log2 hlog).1
    calc (2 : ℚ) ^ 52 * 2 ^ (e + j) = 2 ^ 52 * 2 ^ j * 2 ^ e := by
          rw [zpow_add₀ two_ne_zero, zpow_natCast]; ring
      _ ≤ (x : ℚ) * 2 ^ e := by gcongr
  have hnumber : numberOf (.finite .positive m e' hm) = (r : ℤ) * 2 ^ (e + j) := by
    rw [numberOf_positive]
    rcases hcarry with ⟨rfl, rfl⟩ | ⟨rfl, rfl, rfl⟩
    · rfl
    · rw [zpow_add_one₀ two_ne_zero]
      push_cast
      ring
  have heven : Even r → Even m := by
    rcases hcarry with ⟨rfl, -⟩ | ⟨-, rfl, -⟩
    · exact id
    · exact fun _ => by decide
  rw [hround]
  refine ⟨m, e', hm, rfl, hlow, ⟨hhigh, by omega, .inl ⟨hlow, by omega⟩⟩, ?_, ?_⟩
  · intro b hb
    rw [hnumber]
    exact (hb.not_nearer hz hnear).1
  · intro b hb heq
    rw [hnumber] at heq ⊢
    exact ((hb.not_nearer hz hnear).2 heq).imp_right fun htied => heven (htie htied)

/-- Writing a number with more zeros after it makes it longer. -/
theorem log2_mul_two_pow {x : ℕ} (hx : x ≠ 0) (k : ℕ) : (x * 2 ^ k).log2 = x.log2 + k := by
  obtain ⟨hlow, hhigh⟩ := (Nat.log2_eq_iff hx).1 rfl
  refine (Nat.log2_eq_iff (by positivity)).2 ⟨?_, ?_⟩
  · rw [pow_add]
    gcongr
  · rw [add_right_comm, pow_add]
    gcongr

/-- A normal float keeps its value when it is stored. -/
theorem IsNormalNear.unpack_pack {z : ℚ} {a : UnpackedFloat} (h : IsNormalNear z a) :
    (Float.Model.pack a).unpack = a := by
  obtain ⟨m, e, hm, rfl, hlow, hproper, -⟩ := h
  exact FlatScript.unpack_pack hlow hproper

/-- A product is that of the mantissas, rounded. -/
theorem mul_positive {m m' : ℕ} {e e' : ℤ} {hm : 0 < m} {hm' : 0 < m'} :
    UnpackedFloat.mul .binary64 (.finite .positive m e hm) (.finite .positive m' e' hm') =
      roundWithAccuracy .binary64 .positive (m * m') (e + e') .exact :=
  rfl

/-- Multiplication by one rounds a number anew, which changes nothing. -/
theorem IsNormalNear.mul_one {z : ℚ} {a : UnpackedFloat} (h : IsNormalNear z a)
    (hz : numberOf a = z) (hsmall : z < 2 ^ 53) :
    IsNormalNear z (UnpackedFloat.mul .binary64 a (.finite .positive (2 ^ 52) (-52) (by decide))) := by
  obtain ⟨m, e, hm, rfl, hlow, hproper, -⟩ := h
  have hmantissa := hproper.mantissa
  have hnormal := hproper.normal
  rw [numberOf_positive] at hz
  have hexponent : e < 1 := by
    have hlow' : (2 : ℚ) ^ 52 ≤ m := by exact_mod_cast hlow
    have hlt : (2 : ℚ) ^ 52 * 2 ^ e < 2 ^ 52 * 2 ^ (1 : ℤ) :=
      calc (2 : ℚ) ^ 52 * 2 ^ e ≤ m * 2 ^ e := by gcongr
        _ < 2 ^ 52 * 2 ^ (1 : ℤ) := by rw [hz, zpow_one]; linarith
    exact (zpow_lt_zpow_iff_right₀ one_lt_two).1 (lt_of_mul_lt_mul_left hlt (by positivity))
  have hlog : (m * 2 ^ 52).log2 = 52 + 52 := by
    rw [log2_mul_two_pow hm.ne', (Nat.log2_eq_iff hm.ne').2 ⟨hlow, hmantissa⟩]
  have hnumber : ((m * 2 ^ 52 : ℕ) : ℚ) * 2 ^ (e + -52) = z := by
    rw [← hz, zpow_add₀ two_ne_zero, zpow_neg]
    push_cast
    field_simp
  have hround := isNormalNear_roundWithAccuracy (e := e + -52) hlog (by omega) (by omega)
  rwa [hnumber, ← mul_positive] at hround

/-- A number of at most 53 digits is a float. -/
theorem isNormalNear_ofNat_small {n : ℕ} (hn : n ≠ 0) (hsmall : n < 2 ^ 53) :
    IsNormalNear n (UnpackedFloat.ofNat .binary64 n) ∧
      numberOf (UnpackedFloat.ofNat .binary64 n) = n := by
  obtain ⟨k, hk⟩ : ∃ k, n.log2 + k = 52 :=
    ⟨52 - n.log2, by have := (Nat.log2_lt hn).2 hsmall; omega⟩
  have hlog : (n * 2 ^ k).log2 = 52 + 0 := by rw [log2_mul_two_pow hn, hk]
  have htarget : Format.binary64.targetExponent (totalExponent n 0) = -k := by
    rw [targetExponent_eq]
    omega
  have hround : UnpackedFloat.ofNat .binary64 n =
      roundWithAccuracy .binary64 .positive (n * 2 ^ k) (-k) .exact := by
    unfold UnpackedFloat.ofNat UnpackedFloat.ofInt UnpackedFloat.normalize
    rw [Int.compare_eq_gt.2 (by omega : (0 : ℤ) < n)]
    dsimp only
    unfold UnpackedFloat.round decreaseExponent
    rw [Int.toNat_natCast, htarget]
    simp [Nat.shiftLeft_eq]
  have hnumber : ((n * 2 ^ k : ℕ) : ℚ) * 2 ^ (-k : ℤ) = n := by
    rw [zpow_neg, zpow_natCast]
    push_cast
    field_simp
  have hnear := isNormalNear_roundWithAccuracy (e := -k) hlog (by omega) (by omega)
  rw [hnumber, ← hround] at hnear
  obtain ⟨-, -, -, -, -, -, hnearest⟩ := id hnear
  obtain ⟨hlow, hhigh⟩ := two_pow_log2 hlog
  have hpos : 0 < n * 2 ^ k := by positivity
  refine ⟨hnear, hnearest.numberOf_eq (b := .finite .positive (n * 2 ^ k) (-k) hpos) ?_ ?_⟩
  · exact ⟨by omega, by omega, .inl ⟨by omega, by omega⟩⟩
  · rw [numberOf_positive, hnumber]

/-- A number of more than 53 digits is rounded. -/
theorem isNormalNear_ofScientific {n : ℕ} (hn : n ≠ 0) (hlow : 52 ≤ n.log2)
    (hhigh : n.log2 ≤ 1000) : IsNormalNear n (UnpackedFloat.ofScientific .binary64 n 0) := by
  have hlog : (n * 2 ^ 53).log2 = 52 + (n.log2 + 1) := by rw [log2_mul_two_pow hn]; omega
  have hround : UnpackedFloat.ofScientific .binary64 n 0 =
      roundWithAccuracy .binary64 .positive (n * 2 ^ 53) (-53) .exact := by
    have hpow : (0 : ℤ) ≤ 2 ^ Format.binary64.exponentBits := by positivity
    unfold UnpackedFloat.ofScientific
    rw [dif_neg hn, if_neg (by decide), if_neg (by omega), if_pos le_rfl]
    rw [mul_positive, Int.toNat_zero, pow_zero, mul_one, add_zero, Nat.shiftLeft_eq]
    rfl
  have hnumber : ((n * 2 ^ 53 : ℕ) : ℚ) * 2 ^ (-53 : ℤ) = n := by
    rw [zpow_neg]
    push_cast
    field_simp
  have hnear := isNormalNear_roundWithAccuracy (e := -53) hlog (by omega) (by omega)
  rwa [hnumber, ← hround] at hnear

/-- A number that fits a mantissa is converted and multiplied by one. -/
theorem ofNat_eq_mul {n : ℕ} (hn : n < 2 ^ 53) :
    Float.ofNat n = n.toUInt64.toFloat * Float.ofBits 0x3FF0000000000000 := by
  change Float.ofScientific n false 0 = _
  unfold Float.ofScientific
  rw [dif_pos (by omega)]
  rfl

/-- A larger number is converted as a decimal. -/
theorem ofNat_eq_ofScientific {n : ℕ} (hn : 2 ^ 53 ≤ n) :
    Float.ofNat n = Float.ofModel (Float.Model.ofScientific n 0) := by
  change Float.ofScientific n false 0 = _
  unfold Float.ofScientific
  rw [dif_neg (by omega)]
  rfl

/-- **The float nearest to a natural number.** -/
theorem isNormalNear_ofNat {n : ℕ} (hn : n ≠ 0) (hlog : n.log2 ≤ 1000) :
    IsNormalNear n (Float.ofNat n).toModel.unpack := by
  rcases lt_or_ge n (2 ^ 53) with hsmall | hlarge
  · obtain ⟨hnear, hnumber⟩ := isNormalNear_ofNat_small hn hsmall
    have hbits : n.toUInt64.toNat = n := Nat.mod_eq_of_lt (by omega)
    have hstored : n.toUInt64.toFloat.toModel.unpack = UnpackedFloat.ofNat .binary64 n := by
      change (Float.Model.pack (UnpackedFloat.ofNat .binary64 n.toUInt64.toNat)).unpack = _
      rw [hbits, hnear.unpack_pack]
    have hone : (Float.ofBits 0x3FF0000000000000).toModel.unpack =
        .finite .positive (2 ^ 52) (-52) (by decide) := rfl
    have hproduct := hnear.mul_one hnumber (by exact_mod_cast hsmall)
    rw [ofNat_eq_mul hsmall]
    change IsNormalNear n (Float.Model.pack (UnpackedFloat.mul .binary64
      n.toUInt64.toFloat.toModel.unpack (Float.ofBits 0x3FF0000000000000).toModel.unpack)).unpack
    rwa [hstored, hone, hproduct.unpack_pack]
  · have hnear := isNormalNear_ofScientific hn ((Nat.le_log2 hn).2 (by omega)) hlog
    rw [ofNat_eq_ofScientific hlarge]
    change IsNormalNear n (Float.Model.pack (UnpackedFloat.ofScientific .binary64 n 0)).unpack
    rwa [hnear.unpack_pack]

/-- A finite float that no other is nearer to a number than, of even mantissa where
another is as near. -/
structure IsNearest (z : ℚ) (x : Float) : Prop where
  finite : x.isFinite = true
  closest : ∀ y : Float, y.isFinite = true → |z - exactOf x| ≤ |z - exactOf y|
  even : ∀ y : Float, y.isFinite = true → |z - exactOf x| = |z - exactOf y| →
    exactOf y = exactOf x ∨ EvenMantissa x.toModel.unpack

/-- A finite float is nearest when its form is. -/
theorem NearestForm.isNearest {z : ℚ} {x : Float} (hx : x.isFinite = true)
    (h : NearestForm z x.toModel.unpack) : IsNearest z x where
  finite := hx
  closest _ hy := h.closest _ (proper_unpack hy)
  even _ hy heq := h.even _ (proper_unpack hy) heq

/-- Rounding does not depend on the sign. -/
theorem NearestForm.neg {z : ℚ} {a : UnpackedFloat} (h : NearestForm z a) :
    NearestForm (-z) a.neg := by
  have hflip : ∀ b : UnpackedFloat, |-z - numberOf b| = |z - numberOf b.neg| := by
    intro b
    rw [numberOf_neg, ← abs_neg]
    congr 1
    ring
  have hself : |-z - numberOf a.neg| = |z - numberOf a| := by
    rw [hflip, numberOf_neg, numberOf_neg, neg_neg]
  refine ⟨fun b hb => ?_, fun b hb heq => ?_⟩
  · rw [hself, hflip]
    exact h.closest _ hb.neg
  · rw [hself, hflip] at heq
    refine (h.even _ hb.neg heq).imp (fun hb => ?_) fun heven => ?_
    · rw [numberOf_neg, ← hb, numberOf_neg, neg_neg]
    · cases a with
      | finite s m e hm => exact heven
      | _ => trivial

/-- A zero is nearest to 0. -/
theorem nearestForm_zero (s : Sign) : NearestForm 0 (.zero s) where
  closest b _ := by
    change |(0 : ℚ) - 0| ≤ _
    rw [sub_self, abs_zero]
    exact abs_nonneg _
  even _ _ _ := .inr trivial

/-- The integers up to `2 ^ 53` are floats. -/
theorem exists_proper_numberOf {n : ℤ} (hn : n.natAbs ≤ 2 ^ 53) :
    ∃ a, Proper a ∧ numberOf a = n := by
  have hnat : ∀ k : ℕ, k ≤ 2 ^ 53 → ∃ a, Proper a ∧ numberOf a = k := by
    intro k hk
    rcases eq_or_ne k 0 with rfl | hzero
    · exact ⟨.zero .positive, trivial, Nat.cast_zero.symm⟩
    rcases hk.lt_or_eq with hk | rfl
    · obtain ⟨⟨m, e, hm, ha, -, hproper, -⟩, hnumber⟩ := isNormalNear_ofNat_small hzero hk
      rw [ha] at hnumber
      exact ⟨.finite .positive m e hm, hproper, hnumber⟩
    · refine ⟨.finite .positive (2 ^ 52) 1 (by decide), ⟨by decide, by decide, by decide⟩, ?_⟩
      rw [numberOf_positive]
      norm_num
  obtain ⟨a, ha, hnumber⟩ := hnat _ hn
  rcases Int.natAbs_eq n with hsign | hsign
  · exact ⟨a, ha, by rw [hnumber, hsign]; simp⟩
  · exact ⟨a.neg, ha.neg, by rw [numberOf_neg, hnumber, hsign]; simp⟩

/-- **Rounding keeps the order**, up to the float that a number is rounded to. -/
theorem IsNearest.lt_of_lt {z : ℚ} {x y : Float} (h : IsNearest z x) (hy : y.isFinite = true)
    (hlt : exactOf x < exactOf y) : z < exactOf y := by
  by_contra hge
  have hclosest := h.closest y hy
  rw [abs_of_nonneg (by linarith), abs_of_nonneg (by linarith)] at hclosest
  linarith

/-- Rounding keeps the order from the other side too. -/
theorem IsNearest.gt_of_gt {z : ℚ} {x y : Float} (h : IsNearest z x) (hy : y.isFinite = true)
    (hgt : exactOf y < exactOf x) : exactOf y < z := by
  by_contra hle
  have hclosest := h.closest y hy
  rw [abs_of_nonpos (by linarith), abs_of_nonpos (by linarith)] at hclosest
  linarith

namespace Value

variable (n : Int64)

/-- The float of an integer is its nearest. -/
theorem nearestForm_nearestFloat :
    (nearestFloat n).isFinite = true ∧ NearestForm n.toInt (nearestFloat n).toModel.unpack := by
  have hlow := n.le_toInt
  have hhigh := n.toInt_lt
  unfold nearestFloat
  have hlog : ∀ {k : ℕ}, k ≠ 0 → k ≤ 2 ^ 63 → k.log2 ≤ 1000 := fun hk hle =>
    (((Nat.log2_lt hk).2 (by omega : _ < 2 ^ 64)).trans (by decide)).le
  rcases hn : n.toInt with k | k
  · by_cases hk : k = 0
    · subst hk
      exact ⟨rfl, nearestForm_zero .positive⟩
    · rw [hn, Int.ofNat_eq_natCast] at hhigh
      obtain ⟨m, e, hm, ha, hlarge, hproper, hnear⟩ := isNormalNear_ofNat hk (hlog hk (by omega))
      refine ⟨?_, hnear⟩
      change (Float.ofNat k).toModel.unpack.isFinite = true
      rw [ha]
      rfl
  · obtain ⟨m, e, hm, ha, hlarge, hproper, hnear⟩ :=
      isNormalNear_ofNat k.succ_ne_zero (hlog k.succ_ne_zero (by omega))
    have hneg : (Float.ofInt (Int.negSucc k)).toModel.unpack =
        (Float.ofNat (k + 1)).toModel.unpack.neg := by
      change UnpackedFloat.unpack .binary64
        (UnpackedFloat.pack .binary64 (Float.ofNat (k + 1)).toModel.unpack.neg) = _
      rw [ha]
      exact unpack_pack hlarge hproper
    constructor
    · change (Float.ofInt (Int.negSucc k)).toModel.unpack.isFinite = true
      rw [hneg, ha]
      rfl
    · rw [hneg, Int.negSucc_eq]
      push_cast
      exact_mod_cast hnear.neg

/-- **An integer is converted to the float nearest to it.** -/
theorem isNearest_nearestFloat : IsNearest n.toInt (nearestFloat n) :=
  (nearestForm_nearestFloat n).2.isNearest (nearestForm_nearestFloat n).1

/-- **An integer up to `2 ^ 53` is converted without a loss.** -/
theorem exactOf_nearestFloat (hn : n.toInt.natAbs ≤ 2 ^ 53) :
    exactOf (nearestFloat n) = n.toInt := by
  obtain ⟨a, ha, hnumber⟩ := exists_proper_numberOf hn
  exact (nearestForm_nearestFloat n).2.numberOf_eq ha hnumber

end Value

end FlatScript
