/-
# What can go wrong

Each stage of the language has its own causes of failure: `LexFault` for text
that is no token, `ParseFault` for tokens that are no program, `RuntimeFault`
for a program that cannot go on.  A cause on a line is an error, and `message`
is its wording.

| stage | after an error |
| --- | --- |
| scanning | the offending text is skipped and scanning goes on |
| parsing | nothing runs |
| running | what ran before keeps its effect |
-/

import FlatScript.Located
import FlatScript.Operator.Basic
import FlatScript.Value.Basic

namespace FlatScript

/-- Text that is no token. -/
inductive LexFault where
  /-- A character that starts no token. -/
  | illegalCharacter (c : Char)
  /-- A run of digits above the largest integer. -/
  | integerTooLarge (literal : String)
  /-- A literal with a point that rounds to no finite float. -/
  | realTooLarge (literal : String)
deriving DecidableEq

/-- Tokens that are no program. -/
inductive ParseFault where
  /-- Another token stands where `expected` should start. -/
  | unexpectedToken (found expected : String)
  /-- The tokens end where `expected` should start. -/
  | endOfInput (expected : String)
  /-- A sum with a boolean literal as an operand. -/
  | booleanAddition
  /-- Too many levels of nesting, or too tall an expression. -/
  | tooDeep
deriving DecidableEq

/-- Why operands, or the value of a condition, do not fit. -/
inductive Mismatch where
  /-- A sum with a boolean operand. -/
  | booleanAddition
  /-- Operands of kinds that the operator does not combine. -/
  | operands (op : Operator) (left right : Kind)
  /-- Operands of kinds that are not ordered together. -/
  | incomparable (left right : Kind)
  /-- A comparison operator used to compute. -/
  | notArithmetic (op : Operator)
  /-- An arithmetic operator used to compare. -/
  | notComparison (op : Operator)
  /-- A negated value that is no number. -/
  | notNegatable (kind : Kind)
  /-- A value that is no number where one is needed. -/
  | notNumber (kind : Kind)
  /-- A condition that is no boolean. -/
  | notCondition (kind : Kind)
  /-- Any other mismatch, in the words of whoever found it. -/
  | described (details : String)
deriving DecidableEq

/-- A program that cannot go on. -/
inductive RuntimeFault where
  | undefinedVariable (name : String)
  | typeMismatch (cause : Mismatch)
  | divisionByZero
  | overflow
deriving DecidableEq

/-- Text that is no token, on its line. -/
abbrev LexError := Located LexFault

/-- Tokens that are no program, on the line where that shows. -/
abbrev ParseError := Located ParseFault

/-- A failure of a running program, on the line of the failing node. -/
abbrev RuntimeError := Located RuntimeFault

/-- What stops a script: it does not parse, or it fails while running. -/
inductive ScriptError where
  | parse (error : ParseError)
  | runtime (error : RuntimeError)
deriving DecidableEq

namespace LexFault

/-- The wording of the fault on a line. -/
def message (line : Nat) : LexFault → String
  | .illegalCharacter c => s!"ERROR: Illegal character '{c}' at line {line}"
  | .integerTooLarge literal => s!"ERROR: Integer literal '{literal}' is too large at line {line}"
  | .realTooLarge literal => s!"ERROR: Real literal '{literal}' is too large at line {line}"

end LexFault

namespace ParseFault

/-- The wording of the fault on a line. -/
def message (line : Nat) : ParseFault → String
  | .unexpectedToken found expected =>
    s!"Error on line {line}: Unexpected token {found}, expected {expected}."
  | .endOfInput expected =>
    s!"Error on line {line}: Unexpected end of input, expected {expected}."
  | .booleanAddition =>
    s!"Error on line {line}: Addition operation between boolean and numeric values is not allowed."
  | .tooDeep => s!"Error on line {line}: Expression or block is nested too deeply."

end ParseFault

namespace Mismatch

/-- The wording of the cause. -/
def details : Mismatch → String
  | .booleanAddition => "addition operation between boolean and numeric values is not allowed"
  | .operands op left right =>
    "unsupported operand kinds for '" ++ op.sign ++ "': " ++ left.text ++ " and " ++ right.text
  | .incomparable left right => "cannot compare " ++ left.text ++ " with " ++ right.text
  | .notArithmetic op => "'" ++ op.sign ++ "' is not an arithmetic operator"
  | .notComparison op => "'" ++ op.sign ++ "' is not a comparison operator"
  | .notNegatable kind => "cannot negate a " ++ kind.text
  | .notNumber kind => "expected a number, found " ++ kind.text
  | .notCondition kind => "condition must be a boolean, found " ++ kind.text
  | .described details => details

end Mismatch

namespace RuntimeFault

/-- The wording of the fault on a line. -/
def message (line : Nat) : RuntimeFault → String
  | .undefinedVariable name => s!"Error on line {line}: Variable '{name}' not defined."
  | .typeMismatch cause => s!"Error on line {line}: Type error: " ++ cause.details ++ "."
  | .divisionByZero => s!"Error on line {line}: Division by zero."
  | .overflow => s!"Error on line {line}: Integer overflow while trying to compute result."

end RuntimeFault

namespace LexError

/-- The wording of the error. -/
def message (e : LexError) : String :=
  e.val.message e.line

end LexError

namespace ParseError

/-- The wording of the error. -/
def message (e : ParseError) : String :=
  e.val.message e.line

/-- Places an error at the end of the input on the line `line`; any other error
keeps its own. -/
def atEndOfInput (e : ParseError) (line : Nat) : ParseError :=
  match e.val with
  | .endOfInput _ => ⟨e.val, line⟩
  | _ => e

@[simp] theorem val_atEndOfInput (e : ParseError) (line : Nat) :
    (atEndOfInput e line).val = e.val := by
  unfold atEndOfInput; split <;> rfl

end ParseError

namespace RuntimeError

/-- The wording of the error. -/
def message (e : RuntimeError) : String :=
  e.val.message e.line

end RuntimeError

namespace ScriptError

/-- The line of the error. -/
def line : ScriptError → Nat
  | .parse e => e.line
  | .runtime e => e.line

/-- The wording of the error. -/
def message : ScriptError → String
  | .parse e => ParseError.message e
  | .runtime e => RuntimeError.message e

end ScriptError
end FlatScript
