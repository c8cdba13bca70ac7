/-
# Applying operators

| operands | arithmetic | comparison |
| --- | --- | --- |
| two integers | exact or `overflow`; `/` gives a float | exact |
| two numbers | float, `overflow` unless finite | as floats |
| two strings | `+` joins them | by code points |
| two booleans | mismatch | false before true |
| anything else | mismatch | mismatch |

Division by an integer or float zero is `divisionByZero`.  A boolean operand of
`+` has a mismatch of its own, found before any other.  Where a NaN is compared,
only `!=` holds.
-/

import FlatScript.Text.Order
import FlatScript.Value.Demand

namespace FlatScript
namespace Value

/-- The 64-bit integer with the given exact value, if there is one. -/
def ofInt? (n : Int) : Option Int64 :=
  if -integerBound ≤ n ∧ n < integerBound then some (Int64.ofInt n) else none

/-- A 64-bit integer stands for a number exactly when it has that value. -/
theorem ofInt?_eq_some_iff {n : Int} {k : Int64} : ofInt? n = some k ↔ k.toInt = n := by
  have hlo := k.le_toInt
  have hhi := k.toInt_lt
  unfold ofInt? integerBound
  constructor
  · intro h
    split at h
    · obtain rfl := Option.some.inj h
      exact Int64.toInt_ofInt_of_le (by omega) (by omega)
    · simp at h
  · rintro rfl
    rw [if_pos ⟨by omega, by omega⟩, Int64.ofInt_toInt]

/-- An exact integer result, or an overflow. -/
def exact (n : Int) : Except RuntimeFault Value :=
  match ofInt? n with
  | some k => .ok (.integer k)
  | none => .error .overflow

/-- A float result, or an overflow when it is infinite or no number. -/
def finite (x : Float) : Except RuntimeFault Value :=
  if x.isFinite then .ok (.real x) else .error .overflow

/-- The negated number. -/
def negate (v : Value) : Except RuntimeFault Value :=
  match v with
  | .integer n => exact (-n.toInt)
  | .real x => .ok (.real (-x))
  | _ => .error (.typeMismatch (.notNegatable v.kind))

/-- The order of two floats; none when one of them is no number. -/
def floatOrder (x y : Float) : Option Ordering :=
  if x < y then some .lt else if x == y then some .eq else if y < x then some .gt else none

/-- The order of two values of kinds that go together; none when a NaN is among
them. -/
def order (v w : Value) : Except RuntimeFault (Option Ordering) :=
  match v, w with
  | .integer a, .integer b =>
    .ok (some (if a.toInt < b.toInt then .lt else if a.toInt = b.toInt then .eq else .gt))
  | .bool a, .bool b => .ok (some (if a = b then .eq else if b then .lt else .gt))
  | .str s, .str t => .ok (some (Text.order s.toList t.toList))
  | _, _ =>
    if v.kind.isNumber && w.kind.isNumber then
      onNumbers (fun x y => .ok (floatOrder x y)) v w
    else .error (.typeMismatch (.incomparable v.kind w.kind))

end Value

namespace Operator

/-- Arithmetic on two integers. -/
def onIntegers (op : Operator) (a b : Int64) : Except RuntimeFault Value :=
  match op with
  | .add => Value.exact (a.toInt + b.toInt)
  | .sub => Value.exact (a.toInt - b.toInt)
  | .mul => Value.exact (a.toInt * b.toInt)
  | .div =>
    if b = 0 then .error .divisionByZero
    else Value.onNumbers (fun x y => Value.finite (x / y)) (.integer a) (.integer b)
  | .less | .greater | .equal | .notEqual => .error (.typeMismatch (.notArithmetic op))

/-- Arithmetic on two floats. -/
def onFloats (op : Operator) (x y : Float) : Except RuntimeFault Value :=
  match op with
  | .add => Value.finite (x + y)
  | .sub => Value.finite (x - y)
  | .mul => Value.finite (x * y)
  | .div => if y == 0 then .error .divisionByZero else Value.finite (x / y)
  | .less | .greater | .equal | .notEqual => .error (.typeMismatch (.notArithmetic op))

/-- Arithmetic on two values. -/
def compute (op : Operator) (v w : Value) : Except RuntimeFault Value :=
  if op = .add ∧ (v.kind = .boolean ∨ w.kind = .boolean) then
    .error (.typeMismatch .booleanAddition)
  else
    match v, w with
    | .integer a, .integer b => op.onIntegers a b
    | .str s, .str t =>
      if op = .add then .ok (.str (s ++ t))
      else .error (.typeMismatch (.operands op .string .string))
    | _, _ =>
      if v.kind.isNumber && w.kind.isNumber then Value.onNumbers op.onFloats v w
      else .error (.typeMismatch (.operands op v.kind w.kind))

/-- Whether the comparison holds for operands in the given order. -/
def holds (op : Operator) (o : Option Ordering) : Bool :=
  match op with
  | .less => o == some .lt
  | .greater => o == some .gt
  | .equal => o == some .eq
  | _ => o != some .eq

/-- The truth of a comparison of two values. -/
def compare (op : Operator) (v w : Value) : Except RuntimeFault Value :=
  if op.isComparison then
    match v.order w with
    | .ok o => .ok (.bool (op.holds o))
    | .error fault => .error fault
  else .error (.typeMismatch (.notComparison op))

/-- The value of the operator on two values. -/
def apply (op : Operator) (v w : Value) : Except RuntimeFault Value :=
  if op.isComparison then op.compare v w else op.compute v w

end Operator
end FlatScript
