/-
# Regular values

A value is regular if a program could have written it: a string without quotes,
or a finite float; integers and booleans all are.  The scanner makes no other
literals, and no operation leads out of the regular values
(`Expr.regular_eval`):

| operation | why its result is regular |
| --- | --- |
| arithmetic | an infinite or undefined result is an overflow |
| `+` on strings | the text has the characters of both |
| comparison | booleans are regular |
| negation | the sign is not a part of what makes a float infinite |

Only negation has no check of its own.  It needs a fact about floats,
`isFinite_neg`, which is read off their bits.
-/

import FlatScript.Proofs.Grammar.Provenance
import FlatScript.Proofs.Strictness

namespace FlatScript

section Bits

open Float.Model Float.Model.UnpackedFloat

/-- What the bits of a float stand for: no finite number if all bits of the exponent
are set, and otherwise a zero or a number below the range of the infinities. -/
theorem unpack_cases (b : BitVec Format.binary64.numBits) :
    unpackExponent b = -1#_ ∧ (UnpackedFloat.unpack .binary64 b).isFinite = false ∨
      unpackExponent b ≠ -1#_ ∧ ((∃ s, UnpackedFloat.unpack .binary64 b = .zero s) ∨
        ∃ s m e hm, e < 972 ∧ UnpackedFloat.unpack .binary64 b = .finite s m e hm) := by
  have hbias : (Format.binary64.exponentBias : Int) = 1023 := rfl
  have hbits : (Format.binary64.mantissaBitsWithoutImplicit : Int) = 52 := rfl
  delta UnpackedFloat.unpack
  dsimp only
  by_cases h : unpackExponent b = -1#_
  · refine .inl ⟨h, ?_⟩
    rw [if_pos h]
    by_cases hm : unpackMantissa b = 0#_
    · rw [if_pos hm]
      rfl
    · rw [if_neg hm]
      rfl
  · have hlt : (unpackExponent b).toNat < 2047 := by
      have hle : (unpackExponent b).toNat < 2048 := (unpackExponent b).isLt
      have hne : (unpackExponent b).toNat ≠ 2047 := fun hn => h (BitVec.eq_of_toNat_eq hn)
      omega
    refine .inr ⟨h, ?_⟩
    rw [if_neg h]
    by_cases hzero : unpackExponent b = 0#_
    · rw [if_pos hzero]
      have hnat : (unpackExponent b).toNat = 0 := congrArg BitVec.toNat hzero
      by_cases hm : unpackMantissa b = 0#_
      · exact .inl ⟨_, dif_pos hm⟩
      · exact .inr ⟨_, _, _, _, by omega, dif_neg hm⟩
    · rw [if_neg hzero]
      exact .inr ⟨_, _, _, _, by omega, rfl⟩

/-- A float is finite unless all bits of its exponent are set. -/
theorem isFinite_unpack_iff {b : BitVec Format.binary64.numBits} :
    (UnpackedFloat.unpack .binary64 b).isFinite = true ↔ unpackExponent b ≠ -1#_ := by
  obtain ⟨h, hinfinite⟩ | ⟨h, ⟨s, hb⟩ | ⟨s, m, e, hm, -, hb⟩⟩ := unpack_cases b
  · exact ⟨fun hfinite => absurd (hinfinite.symm.trans hfinite) Bool.false_ne_true,
      fun hne => absurd h hne⟩
  · exact ⟨fun _ => h, fun _ => by rw [hb]; rfl⟩
  · exact ⟨fun _ => h, fun _ => by rw [hb]; rfl⟩

/-- A number below the range of the infinities is packed with an exponent that has
a bit not set. -/
theorem unpackExponent_pack_ne {s : Sign} {m : Nat} {e : Int} {hm : 0 < m} (he : e < 972) :
    unpackExponent (UnpackedFloat.pack .binary64 (.finite s m e hm)) ≠ -1#_ := by
  have hbias : (Format.binary64.exponentBias : Int) = 1023 := rfl
  have hbits : (Format.binary64.mantissaBitsWithoutImplicit : Int) = 52 := rfl
  have hpow : 2 ^ Format.binary64.exponentBits = 2048 := rfl
  have hk : (e + Format.binary64.exponentBias +
      Format.binary64.mantissaBitsWithoutImplicit).toNat < 2047 := by omega
  generalize hbiased : (e + Format.binary64.exponentBias +
    Format.binary64.mantissaBitsWithoutImplicit).toNat = k at hk
  have hexponent : BitVec.ofNat Format.binary64.exponentBits k ≠ -1#_ := by
    intro h
    have hnat : k % 2048 = 2047 := congrArg BitVec.toNat h
    omega
  delta UnpackedFloat.pack
  dsimp only
  rw [hbiased, if_neg (by omega)]
  split
  · rw [unpackExponent_packComponents]
    exact hexponent
  · rw [unpackExponent_packComponents]
    decide

/-- Changing the sign of a float sets no bit of its exponent. -/
theorem unpackExponent_pack_neg_ne {b : BitVec Format.binary64.numBits}
    (h : unpackExponent b ≠ -1#_) :
    unpackExponent (UnpackedFloat.pack .binary64 (UnpackedFloat.unpack .binary64 b).neg) ≠
      -1#_ := by
  obtain ⟨hinfinite, -⟩ | ⟨-, ⟨s, hb⟩ | ⟨s, m, e, hm, he, hb⟩⟩ := unpack_cases b
  · exact absurd hinfinite h
  · have hpack : UnpackedFloat.pack .binary64 (UnpackedFloat.unpack .binary64 b).neg =
        packComponents .binary64 (-s) 0#_ 0#_ := by
      rw [hb]
      rfl
    rw [hpack, unpackExponent_packComponents]
    decide
  · rw [hb]
    exact unpackExponent_pack_ne he

/-- **The negative of a finite float is finite.** -/
theorem isFinite_neg {x : Float} (h : x.isFinite = true) : (-x).isFinite = true :=
  isFinite_unpack_iff.2 (unpackExponent_pack_neg_ne (isFinite_unpack_iff.1 h))

end Bits

/-- A name that a program can give to a variable: an identifier that is no word of
the language. -/
structure IsName (x : String) : Prop where
  identifier : Rule.identifier.Matches x.toList
  notWord : x ∉ ["if", "else", "while", "print", "true", "false"]

namespace Value

/-- A value that a program could have written: a string without quotes, a finite
float, or any integer or boolean. -/
def Regular : Value → Prop
  | .str s => '"' ∉ s.toList
  | .real x => x.isFinite = true
  | .integer _ | .bool _ => True

variable {v w : Value}

theorem regular_exact {n : Int} (h : exact n = .ok v) : v.Regular := by
  unfold exact at h
  split at h
  · obtain rfl := Except.ok.inj h
    trivial
  · cases h

theorem regular_finite {x : Float} (h : finite x = .ok v) : v.Regular := by
  unfold finite at h
  split at h
  · rename_i hx
    obtain rfl := Except.ok.inj h
    exact hx
  · cases h

/-- The negative of a regular value is regular. -/
theorem Regular.negate (hv : v.Regular) (h : v.negate = .ok w) : w.Regular := by
  cases v with
  | integer n => exact regular_exact h
  | real x =>
    obtain rfl := Except.ok.inj h
    exact isFinite_neg hv
  | bool b => cases h
  | str s => cases h

end Value

namespace Operator

variable {op : Operator} {u v w : Value}

/-- What is computed of integers is checked, so it is regular. -/
theorem regular_onIntegers {a b : Int64} (h : op.onIntegers a b = .ok u) : u.Regular := by
  unfold onIntegers at h
  split at h
  · exact Value.regular_exact h
  · exact Value.regular_exact h
  · exact Value.regular_exact h
  · split at h
    · cases h
    · exact Value.regular_finite h
  all_goals cases h

theorem regular_onFloats {x y : Float} (h : op.onFloats x y = .ok u) : u.Regular := by
  unfold onFloats at h
  split at h
  · exact Value.regular_finite h
  · exact Value.regular_finite h
  · exact Value.regular_finite h
  · split at h
    · cases h
    · exact Value.regular_finite h
  all_goals cases h

/-- What is computed of regular values is regular. -/
theorem regular_compute (hv : v.Regular) (hw : w.Regular) (h : op.compute v w = .ok u) :
    u.Regular := by
  unfold compute at h
  split at h
  · cases h
  split at h
  · exact regular_onIntegers h
  · rename_i s t _
    split at h
    · obtain rfl := Except.ok.inj h
      have hs : '"' ∉ s.toList := hv
      have ht : '"' ∉ t.toList := hw
      simp [Value.Regular, hs, ht]
    · cases h
  · split at h
    · rename_i hnumbers
      obtain ⟨hv', hw'⟩ := Bool.and_eq_true_iff.1 hnumbers
      obtain ⟨x, hx⟩ := Value.exists_toFloat?_eq_some_iff.2 hv'
      obtain ⟨y, hy⟩ := Value.exists_toFloat?_eq_some_iff.2 hw'
      rw [Value.onNumbers_eq hx hy] at h
      exact regular_onFloats h
    · cases h

/-- The answer to a comparison is regular. -/
theorem regular_compare (h : op.compare v w = .ok u) : u.Regular := by
  unfold compare at h
  split at h
  · split at h
    · obtain rfl := Except.ok.inj h
      trivial
    · cases h
  · cases h

/-- **Operators keep values regular.** -/
theorem regular_apply (hv : v.Regular) (hw : w.Regular) (h : op.apply v w = .ok u) :
    u.Regular := by
  unfold apply at h
  split at h
  · exact regular_compare h
  · exact regular_compute hv hw h

end Operator

/-- The variables of a run of programs: distinct, with names that programs can give
them and values that programs could have written. -/
structure Context.Regular (c : Context) : Prop where
  distinct : c.names.Nodup
  named : ∀ x ∈ c.names, IsName x
  values : ∀ e ∈ c.entries, e.2.Regular

namespace Context

theorem regular_empty : Context.empty.Regular where
  distinct := List.nodup_nil
  named := by simp [names, empty]
  values := by simp [empty]

/-- An assignment keeps a context regular. -/
theorem Regular.set {c : Context} {x : String} {v : Value} (hc : c.Regular) (hx : IsName x)
    (hv : v.Regular) : (c.set x v).Regular where
  distinct := (c.set x v).nodup
  named y hy := by
    rw [names_set] at hy
    split at hy
    · exact hc.named y hy
    · rcases List.mem_append.1 hy with hy | hy
      · exact hc.named y hy
      · obtain rfl := List.mem_singleton.1 hy
        exact hx
  values e he := by
    rcases mem_assign he with rfl | he
    · exact hv
    · exact hc.values e he

end Context

/-- **An expression with regular literals has a regular value**, in a regular
context. -/
theorem Expr.regular_eval {c : Context} (hc : c.Regular) {e : Expr} {v : Value}
    (he : ∀ u n, .literal u n ∈ e.nodes → u.Regular) (h : e.eval c = .ok v) : v.Regular := by
  induction e generalizing v with
  | literal u n =>
    obtain rfl := Except.ok.inj h
    exact he u n (List.mem_singleton_self _)
  | var x n => exact hc.values _ (Context.mem_entries_of_get? (eval_var_eq_ok_iff.1 h))
  | negate e n ih =>
    obtain ⟨w, hw, hv⟩ := eval_negate_eq_ok_iff.1 h
    exact (ih (fun u k hm => he u k (List.mem_append_left _ hm)) hw).negate hv
  | binary op l r n ihl ihr =>
    obtain ⟨w, w', hl, hr, hv⟩ := eval_binary_eq_ok_iff.1 h
    have hw := ihl (fun u k hm => he u k (List.mem_append_left _ hm)) hl
    have hw' := ihr
      (fun u k hm => he u k (List.mem_append_right _ (List.mem_append_left _ hm))) hr
    exact Operator.regular_apply hw hw' hv

namespace Reads

variable {w : List Char} {t : Token}

/-- **The scanner reads only regular literals.** -/
theorem regular (h : Reads w (.ok t)) {v : Value} (hv : t.literal? = some v) : v.Regular := by
  cases h with
  | literal hm =>
    have hbool : ∀ e ∈ literals, e.2.literal? ∈ [none, some (.bool true), some (.bool false)] := by
      decide
    have hmem := hbool _ hm
    rw [hv] at hmem
    obtain rfl | rfl : v = .bool true ∨ v = .bool false := by simpa using hmem
    · trivial
    · trivial
  | identifier => cases hv
  | string hb =>
    obtain rfl := Option.some.inj hv
    simpa [Value.Regular] using hb
  | integer =>
    obtain rfl := Option.some.inj hv
    trivial
  | real _ _ hx =>
    obtain rfl := Option.some.inj hv
    exact hx

/-- **The scanner reads only names as identifiers.** -/
theorem isName {x : String} (h : Reads w (.ok (.identifier x))) : IsName x := by
  have hwords : ∀ word ∈ ["if", "else", "while", "print", "true", "false"],
      ∃ t, (word, t) ∈ literals := by simp [literals]
  cases h with
  | literal hm => simp [literals] at hm
  | identifier hw hno =>
    refine ⟨by simpa using hw, fun hword => ?_⟩
    obtain ⟨t, ht⟩ := hwords _ hword
    exact hno t ht

end Reads
end FlatScript
