/-
# Scripts

A script is a source text.  It is scanned, parsed as a whole and only then run.
Skipped text and a parse error are reported as diagnostics; a script without
statements runs nothing and is worth a note.
-/

import FlatScript.Diagnostic
import FlatScript.Program
import FlatScript.Stmt.Run

namespace FlatScript

/-- A parsed program or the error that stopped the parser, and what there is to
say. -/
structure Parsed where
  result : Except ParseError Program
  diagnostics : List Diagnostic

namespace Parsed

/-- Parses a list of tokens, reporting an error. -/
def ofTokens (ts : Tokens) : Parsed :=
  match Program.parse ts with
  | .ok p => ⟨.ok p, []⟩
  | .error e => ⟨.error e, [.ofParseError e]⟩

/-- Parses a source, reporting skipped text and an error. -/
def ofSource (source : String) : Parsed :=
  let parsed := ofTokens (tokensOf source)
  { parsed with diagnostics := (lexErrorsOf source).map .ofLexError ++ parsed.diagnostics }

/-- What a source parses to is what its tokens parse to. -/
theorem result_ofSource (source : String) :
    (ofSource source).result = Program.parse (tokensOf source) := by
  simp only [ofSource, ofTokens]
  split <;> simp_all

end Parsed

/-- What there is to say of a program before it runs. -/
def Program.remarks (p : Program) : List Diagnostic :=
  if p.isEmpty then [.nothingToRun] else []

/-- What a script did: the error that stopped it, if any, the variables and
printed lines that it left, and what there is to say. -/
structure Execution where
  error? : Option ScriptError
  state : State
  diagnostics : List Diagnostic

namespace Execution

/-- The execution of a program that ran to `ending`. -/
def ofEnding (ending : Ending) (diagnostics : List Diagnostic) : Execution :=
  ⟨ending.error?.map .runtime, ending.state, diagnostics⟩

end Execution

namespace Script

/-- Parses a source and runs it in a context, each loop testing at most `limit`
times.  Nothing runs if it does not parse. -/
def execute (limit : Nat) (source : String) (c : Context) : Option Execution :=
  let parsed := Parsed.ofSource source
  let start : State := ⟨c, #[]⟩
  match parsed.result with
  | .error e => some ⟨some (.parse e), start, parsed.diagnostics⟩
  | .ok p => (p.run limit start).map (.ofEnding · (parsed.diagnostics ++ p.remarks))

/-- A source whose tokens are no program changes nothing. -/
theorem execute_of_parse_error (limit : Nat) {source : String} (c : Context) {e : ParseError}
    (h : Program.parse (tokensOf source) = .error e) :
    execute limit source c = some ⟨some (.parse e), ⟨c, #[]⟩,
      (lexErrorsOf source).map .ofLexError ++ [.ofParseError e]⟩ := by
  simp only [execute, Parsed.ofSource, Parsed.ofTokens, h]

/-- A source whose tokens are a program does what the program does. -/
theorem execute_of_parse_ok (limit : Nat) {source : String} (c : Context) {p : Program}
    (h : Program.parse (tokensOf source) = .ok p) :
    execute limit source c = (p.run limit ⟨c, #[]⟩).map
      (.ofEnding · ((lexErrorsOf source).map .ofLexError ++ p.remarks)) := by
  simp only [execute, Parsed.ofSource, Parsed.ofTokens, h, List.append_nil]

/-- A script that ends under a limit ends in the same way under a larger one. -/
theorem execute_mono {limit limit' : Nat} (hle : limit ≤ limit') {source : String} {c : Context}
    {x : Execution} (h : execute limit source c = some x) :
    execute limit' source c = some x := by
  cases hp : Program.parse (tokensOf source) with
  | error e =>
    rw [execute_of_parse_error limit c hp] at h
    rw [execute_of_parse_error limit' c hp, h]
  | ok p =>
    rw [execute_of_parse_ok limit c hp] at h
    obtain ⟨ending, hrun, rfl⟩ := Option.map_eq_some_iff.1 h
    rw [execute_of_parse_ok limit' c hp, Program.run, Stmt.runAll_mono hle p _ ending hrun]
    rfl

/-- An execution without an error is a run of a program to its end. -/
theorem exists_run_of_execute {limit : Nat} {source : String} {c : Context} {x : Execution}
    (h : execute limit source c = some x) (hok : x.error? = none) :
    ∃ p, Program.parse (tokensOf source) = .ok p ∧ p.run limit ⟨c, #[]⟩ = some (.done x.state) := by
  cases hp : Program.parse (tokensOf source) with
  | error e =>
    rw [execute_of_parse_error limit c hp] at h
    obtain rfl := Option.some.inj h
    cases hok
  | ok p =>
    rw [execute_of_parse_ok limit c hp] at h
    obtain ⟨ending, hrun, rfl⟩ := Option.map_eq_some_iff.1 h
    cases ending with
    | done st => exact ⟨p, rfl, hrun⟩
    | failed e st => cases hok

/-- The lines that a source prints when it runs on its own. -/
def output (limit : Nat) (source : String) : Option (Except ScriptError (Array String)) :=
  (execute limit source .empty).map fun x =>
    match x.error? with
    | some e => .error e
    | none => .ok x.state.output

end Script
end FlatScript
