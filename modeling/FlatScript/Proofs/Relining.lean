/-
# Lines and earlier output decide nothing

Renumber the lines of a tree by any function `f`, and everything follows: an
expression has the value that it had (`Expr.eval_reline`), and a program runs as
before, a runtime error on the renumbered line (`Program.run_reline`).

A run never looks at the lines that were printed before it either.  The same
statement about runs covers both: `Ending.reline f o` is an ending with its
error renumbered by `f` and the lines `o` printed in front of its output.
-/

import FlatScript.Stmt.Run

namespace FlatScript

/-- The same value on the line that `f` gives to its line. -/
def Located.reline {α : Type} (f : Nat → Nat) (x : Located α) : Located α :=
  ⟨x.val, f x.line⟩

@[simp] theorem Located.val_reline {α : Type} (f : Nat → Nat) (x : Located α) :
    (x.reline f).val = x.val := rfl

@[simp] theorem Located.line_reline {α : Type} (f : Nat → Nat) (x : Located α) :
    (x.reline f).line = f x.line := rfl

theorem Located.reline_id {α : Type} : (Located.reline id : Located α → Located α) = id := rfl

namespace Expr

/-- The expression with its lines renumbered. -/
def reline (f : Nat → Nat) : Expr → Expr
  | .literal v n => .literal v (f n)
  | .var x n => .var x (f n)
  | .negate e n => .negate (e.reline f) (f n)
  | .binary op l r n => .binary op (l.reline f) (r.reline f) (f n)

theorem reline_id (e : Expr) : e.reline id = e := by
  induction e with
  | literal v n => rfl
  | var x n => rfl
  | negate e n ih => rw [reline, ih, id]
  | binary op l r n ihl ihr => rw [reline, ihl, ihr, id]

/-- Lines do not make an expression taller. -/
theorem height_reline (f : Nat → Nat) (e : Expr) : (e.reline f).height = e.height := by
  induction e with
  | literal v n => rfl
  | var x n => rfl
  | negate e n ih => rw [reline, height, height, ih]
  | binary op l r n ihl ihr => rw [reline, height, height, ihl, ihr]

theorem isBoolLiteral_reline (f : Nat → Nat) (e : Expr) :
    (e.reline f).isBoolLiteral = e.isBoolLiteral := by
  cases e with
  | literal v n => cases v <;> rfl
  | _ => rfl

/-- **A renumbered expression has the value that it had**, and its error stands
on the renumbered line. -/
theorem eval_reline (f : Nat → Nat) (c : Context) (e : Expr) :
    (e.reline f).eval c = (e.eval c).mapError (Located.reline f) := by
  have honLine : ∀ (n : Nat) (x : Except RuntimeFault Value),
      onLine (f n) x = (onLine n x).mapError (Located.reline f) := by
    intro n x
    cases x <;> rfl
  induction e with
  | literal v n => rfl
  | var x n => exact honLine n _
  | negate e n ih =>
    rw [reline, eval, eval, ih]
    cases e.eval c with
    | ok v => exact honLine n _
    | error err => rfl
  | binary op l r n ihl ihr =>
    rw [reline, eval, eval, ihl, ihr]
    cases l.eval c with
    | ok v =>
      cases r.eval c with
      | ok w => exact honLine n _
      | error err => rfl
    | error err => rfl

end Expr

/-- The state with the lines `o` printed before its own. -/
def State.behind (o : Array String) (st : State) : State :=
  { st with output := o ++ st.output }

/-- The ending with its error renumbered, and the lines `o` printed before its
own. -/
def Ending.reline (f : Nat → Nat) (o : Array String) : Ending → Ending
  | .done st => .done (st.behind o)
  | .failed e st => .failed (e.reline f) (st.behind o)

namespace Stmt

mutual

/-- The statement with its lines renumbered. -/
def reline (f : Nat → Nat) : Stmt → Stmt
  | .print e n => .print (e.reline f) (f n)
  | .assign x e n => .assign x (e.reline f) (f n)
  | .ifThen c s n => .ifThen (c.reline f) (s.reline f) (f n)
  | .ifElse c s t n => .ifElse (c.reline f) (s.reline f) (t.reline f) (f n)
  | .loop c s n => .loop (c.reline f) (s.reline f) (f n)
  | .block ss n => .block (relineAll f ss) (f n)

/-- The statements with their lines renumbered. -/
def relineAll (f : Nat → Nat) : List Stmt → List Stmt
  | [] => []
  | s :: ss => s.reline f :: relineAll f ss

end

mutual

theorem reline_id : ∀ s : Stmt, s.reline id = s
  | .print e n => by rw [reline, e.reline_id, id]
  | .assign x e n => by rw [reline, e.reline_id, id]
  | .ifThen c s n => by rw [reline, c.reline_id, reline_id s, id]
  | .ifElse c s t n => by rw [reline, c.reline_id, reline_id s, reline_id t, id]
  | .loop c s n => by rw [reline, c.reline_id, reline_id s, id]
  | .block ss n => by rw [reline, relineAll_id ss, id]

theorem relineAll_id : ∀ ss : List Stmt, relineAll id ss = ss
  | [] => rfl
  | s :: ss => by rw [relineAll, reline_id s, relineAll_id ss]

end

/-- A condition is tested alike on other lines. -/
theorem test_reline (f : Nat → Nat) (e : Expr) (n : Nat) (c : Context) :
    test (e.reline f) (f n) c = (test e n c).mapError (Located.reline f) := by
  rw [test, test, Expr.eval_reline]
  cases e.eval c with
  | ok v => cases v <;> rfl
  | error err => rfl

/-- A loop whose test and body are renumbered goes round as often as before. -/
theorem repeatWhile_reline (f : Nat → Nat) (o : Array String)
    {test test' : Context → Except RuntimeError Bool} {body body' : State → Option Ending}
    (ht : ∀ c, test' c = (test c).mapError (Located.reline f))
    (hb : ∀ st, body' (st.behind o) = (body st).map (Ending.reline f o)) (limit : Nat)
    (st : State) :
    repeatWhile test' body' limit (st.behind o) =
      (repeatWhile test body limit st).map (Ending.reline f o) := by
  induction limit generalizing st with
  | zero => rfl
  | succ limit ih =>
    have htest : test' (st.behind o).context = (test st.context).mapError (Located.reline f) :=
      ht st.context
    rw [repeatWhile, repeatWhile]
    cases h : test st.context with
    | error e =>
      have h' : test' (st.behind o).context = .error (e.reline f) := by rw [htest, h]; rfl
      rw [h']
      rfl
    | ok b =>
      have h' : test' (st.behind o).context = .ok b := by rw [htest, h]; rfl
      rw [h']
      cases b with
      | false => rfl
      | true =>
        simp only [hb]
        cases body st with
        | none => rfl
        | some ending =>
          cases ending with
          | done st' => exact ih st'
          | failed e st' => rfl

mutual

/-- **A renumbered statement runs as before**, whatever was printed before it. -/
theorem run_reline (f : Nat → Nat) (o : Array String) (limit : Nat) :
    ∀ (s : Stmt) (st : State),
      (s.reline f).run limit (st.behind o) = (s.run limit st).map (Ending.reline f o)
  | .print e n, st => by
    have he : (e.reline f).eval (st.behind o).context = _ := Expr.eval_reline f st.context e
    rw [reline, run, run, he]
    cases e.eval st.context with
    | ok v =>
      have hprint : (st.behind o).print v.text = (st.print v.text).behind o := by
        simp [State.behind, State.print]
      exact congrArg (fun st' => some (Ending.done st')) hprint
    | error err => rfl
  | .assign x e n, st => by
    have he : (e.reline f).eval (st.behind o).context = _ := Expr.eval_reline f st.context e
    rw [reline, run, run, he]
    cases e.eval st.context with
    | ok v => rfl
    | error err => rfl
  | .ifThen c s n, st => by
    have hc : test (c.reline f) (f n) (st.behind o).context = _ := test_reline f c n st.context
    rw [reline, run, run, hc]
    cases test c n st.context with
    | error err => rfl
    | ok b =>
      cases b with
      | false => rfl
      | true => exact run_reline f o limit s st
  | .ifElse c s t n, st => by
    have hc : test (c.reline f) (f n) (st.behind o).context = _ := test_reline f c n st.context
    rw [reline, run, run, hc]
    cases test c n st.context with
    | error err => rfl
    | ok b =>
      cases b with
      | false => exact run_reline f o limit t st
      | true => exact run_reline f o limit s st
  | .loop c s n, st => by
    rw [reline, run, run]
    exact repeatWhile_reline f o (test_reline f c n) (run_reline f o limit s) limit st
  | .block ss n, st => by
    rw [reline, run, run]
    exact runAll_reline f o limit ss st

/-- Renumbered statements run as before, whatever was printed before them. -/
theorem runAll_reline (f : Nat → Nat) (o : Array String) (limit : Nat) :
    ∀ (ss : List Stmt) (st : State),
      runAll limit (relineAll f ss) (st.behind o) =
        (runAll limit ss st).map (Ending.reline f o)
  | [], st => rfl
  | s :: ss, st => by
    rw [relineAll, runAll, runAll, run_reline f o limit s st]
    cases s.run limit st with
    | none => rfl
    | some ending =>
      cases ending with
      | done st' => exact runAll_reline f o limit ss st'
      | failed e st' => rfl

end

end Stmt

namespace Program

/-- The program with its lines renumbered. -/
def reline (f : Nat → Nat) (p : Program) : Program :=
  Stmt.relineAll f p

/-- **A renumbered program runs as before**: it starts from the same variables, and
what was printed before it only stands in front of what it prints. -/
theorem run_reline (f : Nat → Nat) (limit : Nat) (p : Program) (st : State) :
    (p.reline f).run limit st =
      (p.run limit ⟨st.context, #[]⟩).map (Ending.reline f st.output) := by
  have hstart : State.behind st.output ⟨st.context, #[]⟩ = st := by simp [State.behind]
  have hrun := Stmt.runAll_reline f st.output limit p ⟨st.context, #[]⟩
  rwa [hstart] at hrun

end Program
end FlatScript
