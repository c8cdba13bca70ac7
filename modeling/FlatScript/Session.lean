/-
# Sessions

A session runs one script after the other on the same variables.
-/

import FlatScript.Script

namespace FlatScript

/-- The variables shared by the scripts of a session. -/
structure Session where
  context : Context

namespace Session

/-- A session without variables. -/
def fresh : Session :=
  ⟨.empty⟩

/-- Forgets all variables. -/
def reset (_ : Session) : Session :=
  fresh

/-- Runs a script on the variables of the session; what it did to them before
an error stays done. -/
def run (limit : Nat) (s : Session) (source : String) : Option (Execution × Session) :=
  (Script.execute limit source s.context).map fun x => (x, ⟨x.state.context⟩)

end Session
end FlatScript
