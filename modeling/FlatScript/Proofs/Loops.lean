/-
# Loops that are done

A loop ends in one of two ways.  Its condition or its body fails, or its condition
is false, and then the loop is done.  So the condition of a loop that is done is
false in the variables that it leaves (`repeatWhile_exit`), however often it went
round and whatever its body did to the variables of the condition.

Nothing happens between the end of a loop and a second run of it, so the second
run tests the condition once and is done (`Stmt.loop_stable`).  Two copies of a
loop in a row are therefore one, in front of any statements and also when the
loop fails or never ends (`runAll_loop_twice`).
-/

import FlatScript.Stmt.Run

namespace FlatScript
namespace Stmt

variable {c : Expr} {s : Stmt} {n limit : Nat} {st st' : State}

variable {again : Context → Except RuntimeError Bool} {body : State → Option Ending}

/-- **A repetition is done only where its test is false.** -/
theorem repeatWhile_exit (h : repeatWhile again body limit st = some (.done st')) :
    again st'.context = .ok false := by
  induction limit generalizing st with
  | zero => cases h
  | succ limit ih =>
    rw [repeatWhile] at h
    split at h
    · cases h
    · rename_i htest
      cases h
      exact htest
    · cases hbody : body st with
      | none => simp [hbody] at h
      | some first =>
        rw [hbody] at h
        cases first with
        | done st₁ => exact ih h
        | failed err st₁ => cases h

/-- A repetition whose test is false is done at once. -/
theorem repeatWhile_of_exit (h : again st.context = .ok false) (hlimit : 0 < limit) :
    repeatWhile again body limit st = some (.done st) := by
  obtain ⟨k, rfl⟩ : ∃ k, limit = k + 1 := ⟨limit - 1, by omega⟩
  rw [repeatWhile, h]

/-- A repetition that ends has tested at least once. -/
theorem limit_pos_of_repeatWhile {ending : Ending}
    (h : repeatWhile again body limit st = some ending) : 0 < limit := by
  cases limit with
  | zero => cases h
  | succ limit => exact Nat.succ_pos limit

/-- The condition of a loop that is done is false. -/
theorem eval_of_loop_done (h : run limit (.loop c s n) st = some (.done st')) :
    c.eval st'.context = .ok (.bool false) := by
  rw [run] at h
  exact test_eq_ok_iff.1 (repeatWhile_exit h)

/-- A loop whose condition is false does nothing. -/
theorem run_loop_of_eval (h : c.eval st.context = .ok (.bool false)) (hlimit : 0 < limit) :
    run limit (.loop c s n) st = some (.done st) := by
  rw [run]
  exact repeatWhile_of_exit (test_eq_ok_iff.2 h) hlimit

/-- **A loop and the same loop again are the loop**, whether it is done, fails or
does not end, and whatever statements come next. -/
theorem runAll_loop_twice (limit : Nat) (c : Expr) (s : Stmt) (n : Nat) (k : List Stmt)
    (st : State) :
    runAll limit (.loop c s n :: .loop c s n :: k) st = runAll limit (.loop c s n :: k) st := by
  rw [runAll, runAll]
  cases hloop : run limit (.loop c s n) st with
  | none => rfl
  | some ending =>
    cases ending with
    | failed err st' => rfl
    | done st' =>
      have hpos : 0 < limit := by
        rw [run] at hloop
        exact limit_pos_of_repeatWhile hloop
      have hagain := run_loop_of_eval (s := s) (n := n) (eval_of_loop_done hloop) hpos
      simp only [runAll, hagain]

/-- **A loop that is done is stable.**  Its condition is false; run again on the
variables that it leaves, it is done at once, prints nothing and changes no
variable; and to run it twice is to run it once. -/
theorem loop_stable (h : run limit (.loop c s n) st = some (.done st')) :
    c.eval st'.context = .ok (.bool false) ∧
      (∀ more, 0 < more → ∀ output, run more (.loop c s n) ⟨st'.context, output⟩ =
        some (.done ⟨st'.context, output⟩)) ∧
      Program.run limit [.loop c s n, .loop c s n] st = some (.done st') ∧
      ∀ more, Program.run more [.loop c s n, .loop c s n] st =
        Program.run more [.loop c s n] st := by
  have hexit := eval_of_loop_done h
  have htwice : ∀ more, Program.run more [.loop c s n, .loop c s n] st =
      Program.run more [.loop c s n] st :=
    fun more => runAll_loop_twice more c s n [] st
  have honce : Program.run limit [.loop c s n] st = some (.done st') := by
    simp only [Program.run, runAll, h]
  refine ⟨hexit, fun more hmore output => ?_, (htwice limit).trans honce, htwice⟩
  exact run_loop_of_eval hexit hmore

/-- A loop with a loop in it, which assigns to the variables of both conditions and
prints. -/
theorem loop_stable_nested :
    let inner : Stmt := .loop (.binary .greater (.var "m" 2) (.literal (.integer 0) 2) 2)
      (.block [.print (.var "m" 3) 3,
        .assign "m" (.binary .sub (.var "m" 4) (.literal (.integer 1) 4) 4) 4] 2) 2
    let outer : Stmt := .loop (.binary .greater (.var "n" 1) (.literal (.integer 0) 1) 1)
      (.block [.assign "m" (.var "n" 1) 1, inner,
        .assign "n" (.binary .sub (.var "n" 5) (.literal (.integer 1) 5) 5) 5] 1) 1
    let st : State := ⟨Context.empty.set "n" (.integer 2), #["before"]⟩
    ∃ st', outer.run 3 st = some (.done st') ∧ st'.context.names = ["n", "m"] ∧
      st'.output = #["before", "2", "1", "1"] ∧
        Expr.eval st'.context (.binary .greater (.var "n" 1) (.literal (.integer 0) 1) 1) =
          .ok (.bool false) ∧
        Program.run 3 [outer, outer] st = some (.done st') := by
  intro inner outer st
  have hrun : ∃ st', outer.run 3 st = some (.done st') ∧ st'.context.names = ["n", "m"] ∧
      st'.output = #["before", "2", "1", "1"] := ⟨_, rfl, rfl, rfl⟩
  obtain ⟨st', hst', hnames, houtput⟩ := hrun
  obtain ⟨hexit, -, htwice, -⟩ := loop_stable hst'
  exact ⟨st', hst', hnames, houtput, hexit, htwice⟩

end Stmt
end FlatScript
