/-
# Running statements

A run starts from a state, the context and the lines printed so far, and ends in
one, either done or failed.  A failed run keeps what it did before it failed.

A loop may go on for ever, so every run has a limit on the number of times that
each loop may test its condition.  A run that needs more has no ending (`none`);
a run that has one has the same one under every larger limit.
-/

import FlatScript.Expr.Eval
import FlatScript.Stmt.Basic

namespace FlatScript

/-- The variables and the lines printed so far. -/
structure State where
  context : Context
  output : Array String

namespace State

/-- The state after one more line is printed. -/
def print (st : State) (text : String) : State :=
  { st with output := st.output.push text }

/-- The state after an assignment. -/
def assign (st : State) (name : String) (v : Value) : State :=
  { st with context := st.context.set name v }

end State

/-- How a run ends. -/
inductive Ending where
  | done (st : State)
  | failed (error : RuntimeError) (st : State)

namespace Ending

/-- The state that is left behind. -/
def state : Ending → State
  | .done st | .failed _ st => st

/-- The error that ended the run, if one did. -/
def error? : Ending → Option RuntimeError
  | .done _ => none
  | .failed e _ => some e

end Ending

namespace Stmt

/-- The truth of a condition; a value of another kind is a mismatch on the line
of the statement. -/
def test (condition : Expr) (line : Nat) (c : Context) : Except RuntimeError Bool :=
  match condition.eval c with
  | .ok v => onLine line v.asCondition
  | .error e => .error e

/-- A condition holds or not exactly when its expression is that boolean. -/
theorem test_eq_ok_iff {condition : Expr} {line : Nat} {c : Context} {b : Bool} :
    test condition line c = .ok b ↔ condition.eval c = .ok (.bool b) := by
  unfold test
  cases condition.eval c with
  | error e => simp
  | ok v => cases v <;> simp [Value.asCondition, Value.toBool?, onLine]

/-- Repeats `body` while `test` holds, testing at most `limit` times. -/
def repeatWhile (test : Context → Except RuntimeError Bool) (body : State → Option Ending) :
    Nat → State → Option Ending
  | 0, _ => none
  | limit + 1, st =>
    match test st.context with
    | .error e => some (.failed e st)
    | .ok false => some (.done st)
    | .ok true =>
      match body st with
      | some (.done st') => repeatWhile test body limit st'
      | ending => ending

mutual

/-- Runs a statement, each of its loops testing at most `limit` times. -/
def run (limit : Nat) : Stmt → State → Option Ending
  | .print e _, st =>
    match e.eval st.context with
    | .ok v => some (.done (st.print v.text))
    | .error err => some (.failed err st)
  | .assign name e _, st =>
    match e.eval st.context with
    | .ok v => some (.done (st.assign name v))
    | .error err => some (.failed err st)
  | .ifThen c s n, st =>
    match test c n st.context with
    | .ok true => s.run limit st
    | .ok false => some (.done st)
    | .error err => some (.failed err st)
  | .ifElse c s t n, st =>
    match test c n st.context with
    | .ok true => s.run limit st
    | .ok false => t.run limit st
    | .error err => some (.failed err st)
  | .loop c s n, st => repeatWhile (test c n) (s.run limit) limit st
  | .block ss _, st => runAll limit ss st

/-- Runs statements in order, up to the first that fails. -/
def runAll (limit : Nat) : List Stmt → State → Option Ending
  | [], st => some (.done st)
  | s :: ss, st =>
    match s.run limit st with
    | some (.done st') => runAll limit ss st'
    | ending => ending

end

/-- A loop that ends under a limit ends in the same way under a larger one, also
when its body does. -/
theorem repeatWhile_mono {test : Context → Except RuntimeError Bool}
    {body body' : State → Option Ending}
    (hb : ∀ st e, body st = some e → body' st = some e) {n m : Nat} (hnm : n ≤ m)
    {st : State} {e : Ending} (h : repeatWhile test body n st = some e) :
    repeatWhile test body' m st = some e := by
  induction n generalizing m st with
  | zero => simp [repeatWhile] at h
  | succ n ih =>
    obtain ⟨m, rfl⟩ : ∃ k, m = k + 1 := ⟨m - 1, by omega⟩
    rw [repeatWhile] at h ⊢
    split at h
    · exact h
    · exact h
    · cases hst : body st with
      | none => simp [hst] at h
      | some ending =>
        rw [hb st ending hst]
        rw [hst] at h
        cases ending with
        | done st' => exact ih (by omega) h
        | failed err st' => exact h

mutual

/-- A run that ends under a limit ends in the same way under a larger one. -/
theorem run_mono {n m : Nat} (hnm : n ≤ m) :
    ∀ (s : Stmt) (st : State) (e : Ending), s.run n st = some e → s.run m st = some e
  | .print _ _, st, e, h => by rw [run] at h ⊢; exact h
  | .assign _ _ _, st, e, h => by rw [run] at h ⊢; exact h
  | .ifThen c s k, st, e, h => by
    rw [run] at h ⊢
    split at h
    · exact run_mono hnm s st e h
    · exact h
    · exact h
  | .ifElse c s t k, st, e, h => by
    rw [run] at h ⊢
    split at h
    · exact run_mono hnm s st e h
    · exact run_mono hnm t st e h
    · exact h
  | .loop c s k, st, e, h => by
    rw [run] at h ⊢
    exact repeatWhile_mono (run_mono hnm s) hnm h
  | .block ss k, st, e, h => by
    rw [run] at h ⊢
    exact runAll_mono hnm ss st e h

/-- A run of a list that ends under a limit ends in the same way under a larger
one. -/
theorem runAll_mono {n m : Nat} (hnm : n ≤ m) :
    ∀ (ss : List Stmt) (st : State) (e : Ending),
      runAll n ss st = some e → runAll m ss st = some e
  | [], st, e, h => by rw [runAll] at h ⊢; exact h
  | s :: ss, st, e, h => by
    rw [runAll] at h ⊢
    cases hs : s.run n st with
    | none => simp [hs] at h
    | some ending =>
      rw [run_mono hnm s st ending hs]
      rw [hs] at h
      cases ending with
      | done st' => exact runAll_mono hnm ss st' e h
      | failed err st' => exact h

end

/-- A run of two lists in a row is a run of the first, then of the second if the
first was done. -/
theorem runAll_append (n : Nat) (ss ts : List Stmt) (st : State) :
    runAll n (ss ++ ts) st =
      match runAll n ss st with
      | some (.done st') => runAll n ts st'
      | ending => ending := by
  induction ss generalizing st with
  | nil => simp [runAll]
  | cons s ss ih =>
    rw [List.cons_append, runAll, runAll]
    cases s.run n st with
    | none => rfl
    | some ending =>
      cases ending with
      | done st' => exact ih st'
      | failed err st' => rfl

end Stmt

/-- Runs a program, each of its loops testing at most `limit` times. -/
def Program.run (limit : Nat) (p : Program) (st : State) : Option Ending :=
  Stmt.runAll limit p st

end FlatScript
