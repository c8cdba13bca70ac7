/-
# Options of a console run

Where the script comes from and what is shown besides its own output.
-/

namespace FlatScript
namespace Console

/-- Where the script comes from. -/
inductive Source where
  /-- The text is given as it is. -/
  | inline (text : String)
  /-- The text stands in a file. -/
  | file (path : String)
  /-- Statements are read line by line. -/
  | interactive
deriving DecidableEq

/-- The settings of one run. -/
structure Options where
  source : Source
  /-- Show the tokens before parsing. -/
  showTokens : Bool := false
  /-- Show the outline of the statements before running them. -/
  showOutline : Bool := false
  /-- Show the variables after running. -/
  showVariables : Bool := false
  /-- How many times more detail was asked for. -/
  verbosity : Nat := 0
deriving DecidableEq

namespace Options

/-- The least severity of the log messages that are kept. -/
def logLevel (o : Options) : String :=
  match o.verbosity with
  | 0 => "warn"
  | 1 => "debug"
  | _ => "trace"

end Options
end Console
end FlatScript
