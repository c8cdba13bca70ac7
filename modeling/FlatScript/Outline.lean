/-
# Outlines of statements

The shape of a parsed statement, written out over many lines: one field to a
line, each level indented by four blanks, a comma after every part.
-/

import FlatScript.Stmt.Basic
import FlatScript.Text.Quoted
import FlatScript.Token.Basic

namespace FlatScript

/-- A line of an outline: its level and its text. -/
structure OutlineLine where
  level : Nat
  text : String

/-- An outline is a list of lines. -/
abbrev Outline := List OutlineLine

namespace Outline

/-- An outline of one line. -/
def leaf (text : String) : Outline :=
  [⟨0, text⟩]

/-- The outline one level further in. -/
def deeper (o : Outline) : Outline :=
  o.map fun l => { l with level := l.level + 1 }

/-- The outline with a label before its first line. -/
def labelled (label : String) : Outline → Outline
  | [] => []
  | l :: rest => { l with text := label ++ ": " ++ l.text } :: rest

/-- The outline with a comma after its last line. -/
def part : Outline → Outline
  | [] => []
  | [l] => [{ l with text := l.text ++ "," }]
  | l :: rest => l :: part rest

/-- A named part of a record. -/
def field (label : String) (o : Outline) : Outline :=
  part (labelled label o)

/-- Parts between an opening and a closing text. -/
def enclose (opening closing : String) (parts : List Outline) : Outline :=
  leaf opening ++ deeper parts.flatten ++ leaf closing

/-- A record with its fields. -/
def record (name : String) (fields : List Outline) : Outline :=
  enclose (name ++ " \x7b") "\x7d" fields

/-- A wrapped outline. -/
def wrap (name : String) (o : Outline) : Outline :=
  enclose (name ++ "(") ")" [part o]

/-- A list of outlines. -/
def list (os : List Outline) : Outline :=
  if os.isEmpty then leaf "[]" else enclose "[" "]" (os.map part)

/-- The field of a line number. -/
def line (n : Nat) : Outline :=
  field "line" (leaf (toString n))

/-- The text of an outline. -/
def render (o : Outline) : String :=
  String.join (o.map fun l => String.ofList (List.replicate (4 * l.level) ' ') ++ l.text ++ "\n")

end Outline

/-- The outline of a literal's value. -/
def Value.outline : Value → Outline
  | .integer n => .wrap "Integer" (.leaf (toString n.toInt))
  | .real x => .wrap "Real" (.leaf (Token.listed.float x))
  | .bool b => .wrap "Bool" (.leaf (if b then "true" else "false"))
  | .str s => .wrap "Str" (.leaf (Text.quoted s))

/-- The name of an operator in outlines. -/
def Operator.name : Operator → String
  | .add => "Add"
  | .sub => "Sub"
  | .mul => "Mul"
  | .div => "Div"
  | .less => "Less"
  | .greater => "Greater"
  | .equal => "Equal"
  | .notEqual => "NotEqual"

/-- The outline of an expression. -/
def Expr.outline : Expr → Outline
  | .literal v n => .record "Literal" [.field "value" v.outline, .line n]
  | .var name n => .record "Variable" [.field "name" (.leaf (Text.quoted name)), .line n]
  | .negate e n =>
    .record "UnaryOp" [.field "op" (.leaf "Negate"), .field "expr" e.outline, .line n]
  | .binary op l r n =>
    .record "BinaryOp" [.field "left" l.outline, .field "op" (.leaf op.name),
      .field "right" r.outline, .line n]

namespace Stmt

mutual

/-- The outline of a statement. -/
def outline : Stmt → Outline
  | .print e n => .record "Print" [.field "expr" e.outline, .line n]
  | .assign name e n =>
    .record "Assignment" [.field "name" (.leaf (Text.quoted name)), .field "value" e.outline,
      .line n]
  | .ifThen c s n =>
    .record "If" [.field "condition" c.outline, .field "then_branch" s.outline,
      .field "else_branch" (.leaf "None"), .line n]
  | .ifElse c s t n =>
    .record "If" [.field "condition" c.outline, .field "then_branch" s.outline,
      .field "else_branch" (.wrap "Some" t.outline), .line n]
  | .loop c s n => .record "While" [.field "condition" c.outline, .field "body" s.outline, .line n]
  | .block ss n => .record "Compound" [.field "statements" (.list (outlines ss)), .line n]

/-- The outlines of a list of statements. -/
def outlines : List Stmt → List Outline
  | [] => []
  | s :: ss => s.outline :: outlines ss

end

end Stmt
end FlatScript
