/-
# What a console writes

A console run is a list of emissions, in order.  Prompts, printed lines and
listings go to the standard output; remarks go to the standard error output.
-/

namespace FlatScript
namespace Console

/-- One thing that a console writes. -/
inductive Emission where
  /-- The prompt for a new statement, or for more of the current one. -/
  | prompt (fresh : Bool)
  /-- A line printed by a script. -/
  | printed (line : String)
  /-- A text of its own, such as the table of variables. -/
  | listing (text : String)
  /-- A remark to the user. -/
  | remark (text : String)
deriving DecidableEq

namespace Emission

/-- What the emission adds to the standard output. -/
def out : Emission → String
  | .prompt fresh => if fresh then "> " else ". "
  | .printed line => line ++ "\n"
  | .listing text => text
  | .remark _ => ""

/-- What the emission adds to the standard error output. -/
def err : Emission → String
  | .remark text => text ++ "\n"
  | _ => ""

end Emission

/-- How a console run ends. -/
inductive Status where
  | success
  | failure
  | misused
deriving DecidableEq

/-- The exit code of a status. -/
def Status.code : Status → Nat
  | .success => 0
  | .failure => 1
  | .misused => 2

/-- A console run: what it writes and how it ends. -/
structure Report where
  emissions : List Emission
  status : Status
deriving DecidableEq

namespace Report

/-- All that goes to the standard output. -/
def out (r : Report) : String :=
  String.join (r.emissions.map Emission.out)

/-- All that goes to the standard error output. -/
def err (r : Report) : String :=
  String.join (r.emissions.map Emission.err)

end Report
end Console
end FlatScript
