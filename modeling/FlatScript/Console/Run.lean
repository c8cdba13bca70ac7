/-
# Console runs

A run of the console from its command line: the text that `--help` and
`--version` ask for, a script from the command line or from a file, or an
interactive session on the standard input.  A script shows, in this order:
remarks on skipped text, its tokens, its statements, what it prints, the error
that stopped it, and its variables, the listings only when asked for.  A script
that does not parse stops at that.
-/

import FlatScript.Console.CommandLine
import FlatScript.Console.Repl
import FlatScript.Outline

namespace FlatScript
namespace Console

/-- A line of the token listing: the line number, four wide, and the token. -/
def tokenLine (t : Located Token) : String :=
  let number := toString t.line
  String.ofList (List.replicate (4 - number.length) ' ') ++ number ++ "  " ++ t.val.text ++ "\n"

/-- An emission when it is wanted. -/
def listed (wanted : Bool) (text : Unit → String) : List Emission :=
  if wanted then [.listing (text ())] else []

/-- Runs a script. -/
def runScript (limit : Nat) (o : Options) (source : String) : Option Report :=
  let tokens := tokensOf source
  let before := (lexErrorsOf source).map (.remark <| LexError.message ·) ++
    listed o.showTokens fun _ => String.join (tokens.map tokenLine)
  match Program.parse tokens with
  | .error e => some ⟨before ++ [.remark (ParseError.message e)], .failure⟩
  | .ok p =>
    (p.run limit ⟨.empty, #[]⟩).map fun ending =>
      let st := ending.state
      let outline := listed o.showOutline fun _ =>
        String.join ((Stmt.outlines p).map Outline.render)
      let table := listed o.showVariables fun _ => st.context.table
      let shown := before ++ outline ++ p.remarks.map (.remark ·.message) ++
        st.output.toList.map .printed
      match ending.error? with
      | none => ⟨shown ++ table, .success⟩
      | some e => ⟨shown ++ .remark (RuntimeError.message e) :: table, .failure⟩

/-- Runs an interactive session on the lines of the input. -/
def runSession (limit : Nat) (o : Options) (input : ByteArray) : Option Report :=
  (Repl.fresh.drive limit (textLines input)).map fun (es, left) =>
    let shown := Repl.fresh.prompt :: es
    match left with
    | some r => ⟨shown ++ listed o.showVariables fun _ => r.session.context.table, .success⟩
    | none => ⟨shown, .failure⟩

/-- Runs the console on its arguments, its standard input and the files that it
can read, each loop of a script testing at most `limit` times. -/
def run (limit : Nat) (arguments : List String) (input : ByteArray)
    (readFile : String → Except ReadFailure ByteArray) : Option Report :=
  match CommandLine.parse arguments with
  | .error .help => some ⟨[.listing CommandLine.helpText], .success⟩
  | .error .version => some ⟨[.listing CommandLine.versionText], .success⟩
  | .error (.misuse cause) => some ⟨[.remark cause.message], .misused⟩
  | .ok o =>
    match o.source with
    | .interactive => runSession limit o input
    | .inline text => runScript limit o text
    | .file path =>
      match (readFile path).bind decode with
      | .ok text => runScript limit o text
      | .error e =>
        some ⟨[.remark s!"Failed to read the input file '{path}': {e.message}"], .failure⟩

end Console
end FlatScript
