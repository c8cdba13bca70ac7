/-
# Two scripts in a row

Running one source and then another on the variables that it leaves is the same
as running both as one source, with a newline between them
(`Script.execute_joined`).  Each stage of the language keeps the two apart:

| stage | of the joined source |
| --- | --- |
| tokens | those of the first, then those of the second further down |
| program | the statements of the first, then those of the second further down |
| run | to the end of the first, and from there as the second |

The first source may not leave a string open, or the newline would belong to it.
Text that is skipped in either source does no harm.
-/

import FlatScript.Proofs.Grammar.Boundaries
import FlatScript.Proofs.Lexing.Lines
import FlatScript.Proofs.Relining.Parsing
import FlatScript.Script

namespace FlatScript

/-- The same error `k` lines further down. -/
def ScriptError.shift (k : Nat) : ScriptError → ScriptError
  | .parse e => .parse (e.shift k)
  | .runtime e => .runtime (e.shift k)

/-- What an execution did: the error that stopped it, if any, and the variables
and printed lines that it left. -/
def Execution.outcome (x : Execution) : Option ScriptError × State :=
  (x.error?, x.state)

/-- What comes of an execution that starts `k` lines further down and prints
behind the lines `o`. -/
def Execution.outcomeAfter (k : Nat) (o : Array String) (x : Execution) :
    Option ScriptError × State :=
  (x.error?.map (ScriptError.shift k), ⟨x.state.context, o ++ x.state.output⟩)

/-- The outcome of an ending further down, behind lines that were printed before. -/
theorem Execution.outcome_ofEnding_reline (k : Nat) (o : Array String) (ending : Ending)
    (ds ds' : List Diagnostic) :
    (ofEnding (ending.reline (· + k) o) ds).outcome = (ofEnding ending ds').outcomeAfter k o := by
  cases ending <;> rfl

/-- **The program of two sources with a newline between them** is the program of
the first and then that of the second, further down. -/
theorem Program.parse_joined {a b : String} {p q : Program} (h : a.toList.count '"' % 2 = 0)
    (hp : parse (tokensOf a) = .ok p) (hq : parse (tokensOf b) = .ok q) :
    parse (tokensOf (a ++ "\n" ++ b)) = .ok (p ++ q.reline (· + (a.toList.count '\n' + 1))) := by
  have hfirst : tokensOf (a ++ "\n") = tokensOf a := by
    rw [tokensOf, tokenize_newline h, tokensOf]
  rw [tokensOf_append h, hfirst]
  exact parse_join hp (parse_shift_iff.2 ⟨q, hq, rfl⟩)

namespace Script

/-- **Two scripts in a row are one script.**  If the first source leaves no string
open and runs to its end, and the second parses, then both with a newline between
them do what the second does on the variables that the first leaves, behind the
lines that the first printed; a runtime error stands as many lines further down
as the first source and the newline take. -/
theorem execute_joined {limit : Nat} {a b : String} {c : Context} {x : Execution} {q : Program}
    (heven : a.toList.count '"' % 2 = 0) (hx : execute limit a c = some x)
    (hok : x.error? = none) (hb : (Parsed.ofSource b).result = .ok q) :
    (execute limit (a ++ "\n" ++ b) c).map Execution.outcome =
      (execute limit b x.state.context).map
        (Execution.outcomeAfter (a.toList.count '\n' + 1) x.state.output) := by
  obtain ⟨p, hp, hrun⟩ := exists_run_of_execute hx hok
  have hq : Program.parse (tokensOf b) = .ok q := (Parsed.result_ofSource b).symm.trans hb
  generalize hk : a.toList.count '\n' + 1 = k
  have hjoined : Program.parse (tokensOf (a ++ "\n" ++ b)) = .ok (p ++ q.reline (· + k)) :=
    hk ▸ Program.parse_joined heven hp hq
  have hboth : Program.run limit (p ++ q.reline (· + k)) ⟨c, #[]⟩ =
      (q.run limit ⟨x.state.context, #[]⟩).map (Ending.reline (· + k) x.state.output) := by
    have hfirst : Stmt.runAll limit p ⟨c, #[]⟩ = some (.done x.state) := hrun
    rw [Program.run, Stmt.runAll_append, hfirst]
    exact Program.run_reline (· + k) limit q x.state
  rw [execute_of_parse_ok limit c hjoined, execute_of_parse_ok limit x.state.context hq, hboth]
  simp only [Option.map_map, Function.comp_def]
  exact Option.map_congr fun ending _ =>
    Execution.outcome_ofEnding_reline k x.state.output ending _ _

/-- The hypotheses of `execute_joined` hold of two sources with text that is
skipped, the first with a string over two lines.  The error on line 2 of the
second stands on line 5 of both. -/
theorem execute_joined_skipping :
    let a := "x = 2; @\ny = \"p\nq\"; print(y);"
    let b := "print(x); ?\nprint(z); print(1);"
    ∃ x q, a.toList.count '"' % 2 = 0 ∧ execute 1 a .empty = some x ∧ x.error? = none ∧
      (Parsed.ofSource b).result = .ok q ∧
        (execute 1 (a ++ "\n" ++ b) .empty).map Execution.outcome =
          (execute 1 b x.state.context).map (Execution.outcomeAfter 3 x.state.output) ∧
        (execute 1 (a ++ "\n" ++ b) .empty).map (fun y => (y.error?, y.state.output)) =
          some (some (.runtime ⟨.undefinedVariable "z", 5⟩), #["p\nq", "2"]) := by
  intro a b
  have hrun : ((execute 1 a .empty).map fun x => x.error?) = some none := by decide +kernel
  have hparse : (Parsed.ofSource b).result.isOk = true := by decide +kernel
  obtain ⟨x, hx, hok⟩ := Option.map_eq_some_iff.1 hrun
  obtain ⟨q, hq⟩ : ∃ q, (Parsed.ofSource b).result = .ok q := by
    cases h : (Parsed.ofSource b).result with
    | ok q => exact ⟨q, rfl⟩
    | error e => simp [h, Except.isOk, Except.toBool] at hparse
  have heven : a.toList.count '"' % 2 = 0 := by decide +kernel
  have hlines : a.toList.count '\n' + 1 = 3 := by decide +kernel
  refine ⟨x, q, heven, hx, hok, hq, ?_, by decide +kernel⟩
  rw [← hlines]
  exact execute_joined heven hx hok hq

end Script
end FlatScript
