/-
# What an operation demands of a value

Some places need a number, and a condition needs a boolean.  A value of another
kind is a type mismatch there, never converted.
-/

import FlatScript.Fault

namespace FlatScript
namespace Value

/-- The value as a float, where a number is needed. -/
def asNumber (v : Value) : Except RuntimeFault Float :=
  match v.toFloat? with
  | some x => .ok x
  | none => .error (.typeMismatch (.notNumber v.kind))

/-- What `f` makes of two values as floats, the left one demanded first. -/
def onNumbers {α : Type} (f : Float → Float → Except RuntimeFault α) (v w : Value) :
    Except RuntimeFault α :=
  match v.asNumber with
  | .error fault => .error fault
  | .ok x =>
    match w.asNumber with
    | .error fault => .error fault
    | .ok y => f x y

/-- A number is what it is as a float, and the demand for it does not fail. -/
theorem asNumber_of_toFloat? {v : Value} {x : Float} (h : v.toFloat? = some x) :
    v.asNumber = .ok x := by
  rw [asNumber, h]

/-- The values that are floats where a number is needed are those of the numbers' kinds. -/
theorem exists_toFloat?_eq_some_iff {v : Value} :
    (∃ x, v.toFloat? = some x) ↔ v.kind.isNumber = true := by
  cases v <;> simp [toFloat?, kind, Kind.isNumber]

/-- Two numbers meet as floats, and neither demand fails. -/
theorem onNumbers_eq {α : Type} {f : Float → Float → Except RuntimeFault α} {v w : Value}
    {x y : Float} (hv : v.toFloat? = some x) (hw : w.toFloat? = some y) :
    onNumbers f v w = f x y := by
  simp only [onNumbers, asNumber_of_toFloat? hv, asNumber_of_toFloat? hw]

/-- The value as a truth value, where a condition is decided. -/
def asCondition (v : Value) : Except RuntimeFault Bool :=
  match v.toBool? with
  | some b => .ok b
  | none => .error (.typeMismatch (.notCondition v.kind))

end Value
end FlatScript
