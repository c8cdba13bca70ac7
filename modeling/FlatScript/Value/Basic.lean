/-
# Values

A value is a 64-bit integer, a float, a boolean or a string.  `Value.kind`
names which.  Two equalities live side by side: `=` tells any two values apart,
and `Value.alike` is equality as the language's numbers have it, where `0.0`
and `-0.0` agree and a NaN agrees with nothing; both keep the kinds apart.
-/

namespace FlatScript

/-- The four kinds of values. -/
inductive Kind where
  | integer
  | float
  | boolean
  | string
deriving DecidableEq

/-- The word for a kind in messages and tables. -/
def Kind.text : Kind → String
  | .integer => "integer"
  | .float => "float"
  | .boolean => "boolean"
  | .string => "string"

/-- Whether values of the kind are numbers. -/
def Kind.isNumber : Kind → Bool
  | .integer | .float => true
  | .boolean | .string => false

/-- A value that a variable can hold and an expression can have. -/
inductive Value where
  | integer (n : Int64)
  | real (x : Float)
  | bool (b : Bool)
  | str (s : String)
deriving DecidableEq

namespace Value

/-- Two to the 63rd: the integers go from its negative to just below it. -/
def integerBound : Nat := 0x8000000000000000

/-- The kind of a value. -/
def kind : Value → Kind
  | .integer _ => .integer
  | .real _ => .float
  | .bool _ => .boolean
  | .str _ => .string

/-- The float nearest to an integer. -/
def nearestFloat (n : Int64) : Float :=
  Float.ofInt n.toInt

/-- The number as a float, for an integer or a float. -/
def toFloat? : Value → Option Float
  | .integer n => some (nearestFloat n)
  | .real x => some x
  | _ => none

/-- The truth value of a boolean. -/
def toBool? : Value → Option Bool
  | .bool b => some b
  | _ => none

/-- Equality of kind and content, floats compared as numbers. -/
def alike : Value → Value → Bool
  | .integer a, .integer b => a == b
  | .real x, .real y => x == y
  | .bool a, .bool b => a == b
  | .str s, .str t => s == t
  | _, _ => false

end Value
end FlatScript
