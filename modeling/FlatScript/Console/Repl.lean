/-
# The interactive console

Lines are gathered in a buffer until they are complete: every brace is closed,
no string is open, and the last character that is not blank is a semicolon.
Then the buffer runs as one script of the session, and the next line starts a
new one.  While the buffer is empty, a line may also be a command.

| command | effect |
| --- | --- |
| `:quit`, `:q` | ends the session |
| `:vars` | shows the variables |
| `:reset` | forgets the variables |
| a blank line | nothing |

A line that cannot be read ends the session with a failure.
-/

import FlatScript.Console.Emission
import FlatScript.Console.Input
import FlatScript.Session
import FlatScript.Text.Blank

namespace FlatScript
namespace Console

/-- How far a text has come: its open braces, and whether it is in a string. -/
structure Balance where
  depth : Int
  inString : Bool
deriving DecidableEq

namespace Balance

/-- The balance after one more character; braces in a string do not count. -/
def step (b : Balance) (c : Char) : Balance :=
  if c = '"' then { b with inString := !b.inString }
  else if b.inString then b
  else if c = '{' then { b with depth := b.depth + 1 }
  else if c = '}' then { b with depth := b.depth - 1 }
  else b

/-- The balance of a whole text. -/
def of (cs : List Char) : Balance :=
  cs.foldl step ⟨0, false⟩

end Balance

/-- Whether a text can run: no brace and no string is open, and a semicolon
ends it. -/
def isComplete (text : String) : Bool :=
  let b := Balance.of text.toList
  b.depth ≤ 0 && !b.inString && (Text.trimEnd text.toList).getLast? == some ';'

/-- What the interactive console remembers between two lines. -/
structure Repl where
  session : Session
  buffer : String

namespace Repl

/-- The console at its start. -/
def fresh : Repl :=
  ⟨.fresh, ""⟩

/-- The prompt that asks for the next line. -/
def prompt (r : Repl) : Emission :=
  .prompt r.buffer.isEmpty

/-- What a script run in the console shows: its remarks, its lines, and the
error that stopped it while running.  A parse error is among its remarks. -/
def shown (x : Execution) : List Emission :=
  x.diagnostics.map (.remark ·.message) ++ x.state.output.toList.map .printed ++
    match x.error? with
    | some (.runtime e) => [.remark (RuntimeError.message e)]
    | _ => []

/-- Adds a line to the buffer, and runs the buffer once it is complete. -/
def enter (limit : Nat) (r : Repl) (line : String) : Option (List Emission × Repl) :=
  let buffer := r.buffer ++ line ++ "\n"
  if isComplete buffer then
    (r.session.run limit buffer).map fun (x, session) => (shown x, ⟨session, ""⟩)
  else some ([], { r with buffer })

/-- Takes one line; no console is left after the command to quit. -/
def feed (limit : Nat) (r : Repl) (line : String) : Option (List Emission × Option Repl) :=
  let entered := (r.enter limit line).map fun (es, r') => (es ++ [r'.prompt], some r')
  if r.buffer.isEmpty then
    match String.ofList (Text.trim line.toList) with
    | ":quit" | ":q" => some ([], none)
    | ":vars" => some ([.listing r.session.context.table, r.prompt], some r)
    | ":reset" => some ([r.prompt], some { r with session := r.session.reset })
    | "" => some ([r.prompt], some r)
    | _ => entered
  else entered

/-- What is said of a line that cannot be read. -/
def broken (failure : ReadFailure) : Emission :=
  .remark ("Failed to read input: " ++ failure.message)

/-- Takes lines up to the end of the input, the command to quit, or a line that
cannot be read.  The result has the console as it is left, if the input did
not break. -/
def drive (limit : Nat) (r : Repl) :
    List (Except ReadFailure String) → Option (List Emission × Option Repl)
  | [] => some ([], some r)
  | .error failure :: _ => some ([broken failure], none)
  | .ok line :: rest =>
    match r.feed limit line with
    | none => none
    | some (es, none) => some (es, some r)
    | some (es, some r') => (drive limit r' rest).map fun (later, left) => (es ++ later, left)

end Repl
end Console
end FlatScript
