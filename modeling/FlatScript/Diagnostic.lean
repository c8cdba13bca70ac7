/-
# Diagnostics

What the language tells its user beside the printed lines: warnings for text
that was skipped, errors that stopped a script, and notes.
-/

import FlatScript.Fault

namespace FlatScript

/-- How serious a diagnostic is. -/
inductive Severity where
  | error
  | warning
  | note
deriving DecidableEq

/-- A remark to the user, with the line that it is about, if any. -/
structure Diagnostic where
  severity : Severity
  line : Option Nat
  message : String
deriving DecidableEq

namespace Diagnostic

/-- Skipped text is worth a warning. -/
def ofLexError (e : LexError) : Diagnostic :=
  ⟨.warning, some e.line, LexError.message e⟩

/-- Tokens that are no program are an error. -/
def ofParseError (e : ParseError) : Diagnostic :=
  ⟨.error, some e.line, ParseError.message e⟩

/-- A failure of a running program is an error. -/
def ofRuntimeError (e : RuntimeError) : Diagnostic :=
  ⟨.error, some e.line, RuntimeError.message e⟩

/-- Whatever stops a script is an error. -/
def ofScriptError : ScriptError → Diagnostic
  | .parse e => ofParseError e
  | .runtime e => ofRuntimeError e

/-- What is said of a program without statements. -/
def nothingToRun : Diagnostic :=
  ⟨.note, none, "No valid commands to execute."⟩

end Diagnostic
end FlatScript
