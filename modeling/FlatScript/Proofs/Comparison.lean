/-
# Comparison is an order

Every comparison of two values is answered from their order, and they have one
exactly when their kinds go together:

| operands | ordered by |
| --- | --- |
| two integers | their values |
| two numbers, not both integers | the exact values of their floats |
| two booleans | false before true |
| two strings | the first code point in which they differ |
| any others | nothing: each comparison is the same mismatch |

As long as no float is infinite or a NaN, each row is a linear order.  So one of
`<`, `==` and `>` holds and no other does, and for swapped operands the same one
holds with `<` and `>` swapped (`Value.exists_order_swap`).  The values of one kind
stay in one row, which makes the comparisons between them transitive
(`Value.order_trans`).  Numbers of both kinds do not: two integers leave the row of
the float between them.
-/

import FlatScript.Proofs.Numbers.Mixed

namespace FlatScript

/-- **Texts are ordered as lists of characters are**, lexicographically. -/
theorem Text.compares_order (s t : List Char) : (Text.order s t).Compares s t := by
  induction s generalizing t with
  | nil =>
    cases t with
    | nil => exact rfl
    | cons d ds => exact List.nil_lt_cons d ds
  | cons c cs ih =>
    cases t with
    | nil => exact List.nil_lt_cons c cs
    | cons d ds =>
      rw [order]
      by_cases hlt : c.toNat < d.toNat
      · rw [if_pos hlt]
        exact List.cons_lt_cons_iff.2 (.inl hlt)
      · by_cases hgt : d.toNat < c.toNat
        · rw [if_neg hlt, if_pos hgt]
          exact List.cons_lt_cons_iff.2 (.inl hgt)
        · obtain rfl : c = d := Char.toNat_inj.1 (by omega)
          rw [if_neg hlt, if_neg hlt]
          have hrest := ih ds
          generalize Text.order cs ds = o at hrest
          cases o with
          | lt => exact List.cons_lt_cons_iff.2 (.inr ⟨rfl, hrest⟩)
          | eq => exact congrArg (c :: ·) hrest
          | gt => exact List.cons_lt_cons_iff.2 (.inr ⟨rfl, hrest⟩)

namespace Value

variable {u v w : Value} {line : Nat}

/-- The value is neither an infinity nor a NaN. -/
def IsFinite : Value → Prop
  | .real x => x.isFinite = true
  | _ => True

/-- The order of two values is that of `a` and `b`. -/
def OrderedAs {α : Type} [LT α] (v w : Value) (a b : α) : Prop :=
  ∃ o : Ordering, v.order w = .ok (some o) ∧ o.Compares a b

/-- Integers are ordered as the numbers that they are. -/
theorem orderedAs_integers (a b : Int64) :
    OrderedAs (.integer a) (.integer b) a.toInt b.toInt := by
  refine ⟨compare a.toInt b.toInt, ?_, (compare_iff _ _).1 rfl⟩
  rw [LinearOrder.compare_eq_compareOfLessAndEq]
  rfl

/-- False is less than true. -/
theorem orderedAs_bools (a b : Bool) : OrderedAs (.bool a) (.bool b) a b := by
  cases a <;> cases b <;> exact ⟨_, rfl, by simp [Ordering.Compares]⟩

/-- Strings are ordered as the lists of their characters. -/
theorem orderedAs_strings (s t : String) : OrderedAs (.str s) (.str t) s.toList t.toList :=
  ⟨_, rfl, Text.compares_order _ _⟩

/-- Numbers that are not both integers are ordered as their floats are, exactly. -/
theorem orderedAs_floats {x y : Float} (hv : v.toFloat? = some x) (hw : w.toFloat? = some y)
    (hkinds : v.kind = .integer → w.kind ≠ .integer) (hx : x.isFinite = true)
    (hy : y.isFinite = true) : OrderedAs v w (exactOf x) (exactOf y) := by
  obtain ⟨o, ho, hcompares⟩ := floatOrder_exact hx hy
  exact ⟨o, ho ▸ order_eq_floatOrder hv hw hkinds, hcompares⟩

section LinearOrder

variable {α : Type} [LinearOrder α] {a b : α} {o : Ordering}

/-- The order of two values tells how `a` and `b` compare. -/
theorem OrderedAs.order_eq_iff (h : OrderedAs v w a b) :
    v.order w = .ok (some o) ↔ o.Compares a b := by
  obtain ⟨o', ho', hab⟩ := h
  rw [ho', Except.ok.injEq, Option.some_inj]
  exact ⟨fun heq => heq ▸ hab, hab.inj⟩

/-- Swapping two values swaps their order. -/
theorem OrderedAs.exists_swap (h : OrderedAs v w a b) (h' : OrderedAs w v b a) :
    ∃ o, v.order w = .ok (some o) ∧ w.order v = .ok (some o.swap) := by
  obtain ⟨o, ho, hab⟩ := h
  exact ⟨o, ho, h'.order_eq_iff.2 (Ordering.compares_swap.2 hab)⟩

/-- Each of the three ways to compare is transitive. -/
theorem compares_trans {c : α} (h : o.Compares a b) (h' : o.Compares b c) : o.Compares a c := by
  cases o with
  | lt => exact lt_trans h h'
  | eq => exact Eq.trans h h'
  | gt => exact lt_trans h' h

end LinearOrder

/-- The exact number of a float; other values have none. -/
def exactNumber : Value → ℚ
  | .real x => exactOf x
  | _ => 0

/-- The characters of a string; other values have none. -/
def chars : Value → List Char
  | .str s => s.toList
  | _ => []

/-- **The finite values of one kind are ordered as a linear order is.** -/
theorem exists_rank (k : Kind) :
    ∃ (α : Type) (_ : LinearOrder α) (rank : Value → α), ∀ v w : Value, v.kind = k →
      w.kind = k → v.IsFinite → w.IsFinite → OrderedAs v w (rank v) (rank w) := by
  cases k with
  | integer =>
    refine ⟨ℤ, inferInstance, number, fun v w hv hw _ _ => ?_⟩
    obtain ⟨a, rfl⟩ := exists_integer_of_kind hv
    obtain ⟨b, rfl⟩ := exists_integer_of_kind hw
    exact orderedAs_integers a b
  | float =>
    refine ⟨ℚ, inferInstance, exactNumber, fun v w hv hw hfv hfw => ?_⟩
    cases v <;> cases hv
    cases w <;> cases hw
    exact orderedAs_floats rfl rfl (by simp [kind]) hfv hfw
  | boolean =>
    refine ⟨Bool, inferInstance, fun v => v.toBool?.getD false, fun v w hv hw _ _ => ?_⟩
    cases v <;> cases hv
    cases w <;> cases hw
    exact orderedAs_bools _ _
  | string =>
    refine ⟨List Char, inferInstance, chars, fun v w hv hw _ _ => ?_⟩
    cases v <;> cases hv
    cases w <;> cases hw
    exact orderedAs_strings _ _

/-- A finite value is in its own place. -/
theorem order_self (hv : v.IsFinite) : v.order v = .ok (some .eq) := by
  obtain ⟨α, _, rank, hrank⟩ := exists_rank v.kind
  exact (hrank v v rfl rfl hv hv).order_eq_iff.2 rfl

/-- **The order is transitive between values of one kind.** -/
theorem order_trans {o : Ordering} (hu : u.IsFinite) (hv : v.IsFinite) (hw : w.IsFinite)
    (huv : u.kind = v.kind) (hvw : v.kind = w.kind) (h : u.order v = .ok (some o))
    (h' : v.order w = .ok (some o)) : u.order w = .ok (some o) := by
  obtain ⟨α, _, rank, hrank⟩ := exists_rank v.kind
  have hab := (hrank u v huv rfl hu hv).order_eq_iff.1 h
  have hbc := (hrank v w rfl hvw.symm hv hw).order_eq_iff.1 h'
  exact (hrank u w huv hvw.symm hu hw).order_eq_iff.2 (compares_trans hab hbc)

/-- **Values of kinds that go together have an order**, and the opposite one when
they are swapped. -/
theorem exists_order_swap (hv : v.IsFinite) (hw : w.IsFinite)
    (hkinds : v.kind = w.kind ∨ v.kind.isNumber = true ∧ w.kind.isNumber = true) :
    ∃ o, v.order w = .ok (some o) ∧ w.order v = .ok (some o.swap) := by
  by_cases hsame : v.kind = w.kind
  · obtain ⟨α, _, rank, hrank⟩ := exists_rank v.kind
    exact (hrank v w rfl hsame.symm hv hw).exists_swap (hrank w v hsame.symm rfl hw hv)
  · obtain ⟨hvn, hwn⟩ := hkinds.resolve_left hsame
    have hfloat : ∀ {u : Value}, u.IsFinite → u.kind.isNumber = true →
        ∃ x, u.toFloat? = some x ∧ x.isFinite = true := by
      intro u hu hun
      cases u with
      | integer n => exact ⟨_, rfl, (isNearest_nearestFloat n).finite⟩
      | real x => exact ⟨x, rfl, hu⟩
      | bool b => cases hun
      | str s => cases hun
    obtain ⟨x, hvx, hx⟩ := hfloat hv hvn
    obtain ⟨y, hwy, hy⟩ := hfloat hw hwn
    exact (orderedAs_floats hvx hwy (fun h h' => hsame (h.trans h'.symm)) hx hy).exists_swap
      (orderedAs_floats hwy hvx (fun h h' => hsame (h'.trans h.symm)) hy hx)

/-- `<` holds between two values. -/
def Less (line : Nat) (v w : Value) : Prop :=
  onLine line (Operator.less.compare v w) = .ok (.bool true)

instance (line : Nat) (v w : Value) : Decidable (Less line v w) :=
  inferInstanceAs (Decidable (_ = _))

/-- The answers to the comparisons of two values: those of `<`, `==` and `>`, and
for `!=` the opposite of `==`. -/
structure Answers (line : Nat) (v w : Value) (lt eq gt : Bool) : Prop where
  less : onLine line (Operator.less.compare v w) = .ok (.bool lt)
  equal : onLine line (Operator.equal.compare v w) = .ok (.bool eq)
  greater : onLine line (Operator.greater.compare v w) = .ok (.bool gt)
  notEqual : onLine line (Operator.notEqual.compare v w) = .ok (.bool !eq)

/-- All comparisons of two values are the same mismatch. -/
def Mismatched (line : Nat) (v w : Value) : Prop :=
  ∃ cause, ∀ op : Operator, op.isComparison = true →
    onLine line (op.compare v w) = .error ⟨.typeMismatch cause, line⟩

/-- The order of two values answers all comparisons. -/
theorem answers_of_order {o : Ordering} (h : v.order w = .ok (some o)) (line : Nat) :
    Answers line v w (o == .lt) (o == .eq) (o == .gt) := by
  have hcompare : ∀ op : Operator, op.isComparison = true →
      onLine line (op.compare v w) = .ok (.bool (op.holds (some o))) := by
    intro op hop
    rw [onLine_eq_ok_iff, Operator.compare, if_pos hop, h]
  constructor
  · exact hcompare .less rfl
  · exact hcompare .equal rfl
  · exact hcompare .greater rfl
  · exact hcompare .notEqual rfl

theorem less_iff_order : Less line v w ↔ v.order w = .ok (some .lt) := by
  have hop : Operator.less.isComparison = true := rfl
  unfold Less Operator.compare
  rw [onLine_eq_ok_iff, if_pos hop]
  cases v.order w with
  | ok o => simp [Operator.holds]
  | error fault => simp

/-- Values of two kinds, not both of them numbers, are mismatched. -/
theorem mismatched_of_kinds (hsame : v.kind ≠ w.kind)
    (hnumbers : ¬ (v.kind.isNumber = true ∧ w.kind.isNumber = true)) (line : Nat) :
    Mismatched line v w := by
  have hkinds : v.kind.goesWith w.kind = false := by
    simp only [Kind.goesWith, decide_eq_false hsame, Bool.false_or]
    rwa [← Bool.not_eq_true, Bool.and_eq_true]
  refine ⟨.incomparable v.kind w.kind, fun op hop => ?_⟩
  rw [Operator.compare, if_pos hop, order_eq_error hkinds]
  rfl

/-- **Comparison is a well-behaved order on finite values.**  Two values of one kind,
or two numbers, have an answer to each comparison; exactly one of `<`, `==` and `>`
is true, and swapping the values swaps `<` and `>`.  Any other two values are a
mismatch, either way round.  A value is equal to itself, and among values of one
kind `<` and `==` are transitive; strings are in lexicographic order, and false
comes before true. -/
theorem comparison_is_order (line : Nat) :
    (∀ v w : Value, v.IsFinite → w.IsFinite →
      if v.kind = w.kind ∨ v.kind.isNumber = true ∧ w.kind.isNumber = true then
        ∃ lt eq gt, Answers line v w lt eq gt ∧ Answers line w v gt eq lt ∧
          [lt, eq, gt].count true = 1
      else Mismatched line v w ∧ Mismatched line w v) ∧
    (∀ v : Value, v.IsFinite → Equal line v v) ∧
    (∀ u v w : Value, u.IsFinite → v.IsFinite → w.IsFinite → u.kind = v.kind →
      v.kind = w.kind → (Less line u v → Less line v w → Less line u w) ∧
        (Equal line u v → Equal line v w → Equal line u w)) ∧
    (∀ s t : String, Less line (.str s) (.str t) ↔ s < t) ∧
    Less line (.bool false) (.bool true) := by
  refine ⟨fun v w hv hw => ?_, fun v hv => equal_iff_order.2 (order_self hv),
    fun u v w hu hv hw huv hvw => ?_, fun s t => ?_, rfl⟩
  · split
    · rename_i hkinds
      obtain ⟨o, hvw, hwv⟩ := exists_order_swap hv hw hkinds
      have hanswers := answers_of_order hwv line
      refine ⟨_, _, _, answers_of_order hvw line, ?_, by cases o <;> rfl⟩
      cases o <;> exact hanswers
    · rename_i hkinds
      obtain ⟨hsame, hnumbers⟩ := not_or.1 hkinds
      exact ⟨mismatched_of_kinds hsame hnumbers line,
        mismatched_of_kinds (Ne.symm hsame) (fun h => hnumbers h.symm) line⟩
  · rw [less_iff_order, less_iff_order, less_iff_order, equal_iff_order, equal_iff_order,
      equal_iff_order]
    exact ⟨order_trans hu hv hw huv hvw, order_trans hu hv hw huv hvw⟩
  · rw [less_iff_order, (orderedAs_strings s t).order_eq_iff]
    exact String.lt_iff.symm

/-- An integer against the float that it is rounded to, a string against an integer,
the two zeros, and three strings of which each continues the one before. -/
theorem comparison_is_order_samples :
    let n : Value := .integer 0x20000000000001
    let x : Value := .real (.ofBits 0x4340000000000000)
    let zero : Value := .real (.ofBits 0)
    let negativeZero : Value := .real (.ofBits 0x8000000000000000)
    (∃ lt eq gt, Answers 3 n x lt eq gt ∧ Answers 3 x n gt eq lt ∧ [lt, eq, gt].count true = 1) ∧
      (Mismatched 3 (.str "1") n ∧ Mismatched 3 n (.str "1")) ∧ Equal 3 x x ∧
        (Equal 3 zero negativeZero ∧ Equal 3 zero zero) ∧ Less 3 (.str "") (.str "ab") := by
  intro n x zero negativeZero
  obtain ⟨hpairs, hself, htrans, -, -⟩ := comparison_is_order 3
  have hx : x.IsFinite := rfl
  have hzeros : Equal 3 zero negativeZero := by decide +kernel
  have hback : Equal 3 negativeZero zero := by decide +kernel
  refine ⟨?_, ?_, hself x hx, ⟨hzeros, ?_⟩, ?_⟩
  · have h := hpairs n x trivial hx
    rwa [if_pos (.inr ⟨rfl, rfl⟩)] at h
  · have h := hpairs (.str "1") n trivial trivial
    rwa [if_neg (by decide)] at h
  · exact (htrans zero negativeZero zero rfl rfl rfl rfl rfl).2 hzeros hback
  · exact (htrans (.str "") (.str "a") (.str "ab") trivial trivial trivial rfl rfl).1
      (by decide +kernel) (by decide +kernel)

end Value
end FlatScript
