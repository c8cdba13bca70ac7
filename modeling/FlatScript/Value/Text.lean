/-
# The text of a value

What `print` writes.  Floats use the fewest digits that read back and are never
written with an exponent; a whole float below `10 ^ 16` shows `.0`.
-/

import FlatScript.Decimal.Layout
import FlatScript.Value.Basic

namespace FlatScript
namespace Value

/-- Printed floats are always positional, and whole ones below `10 ^ 16` show a
fraction. -/
def printed : Decimal.Layout where
  positional _ := true
  pointed e := e < 16

/-- The text that `print` writes for a value. -/
def text : Value → String
  | .integer n => toString n.toInt
  | .real x => printed.float x
  | .bool b => if b then "true" else "false"
  | .str s => s

end Value
end FlatScript
