/-
# Running one step at a time

A machine that runs a program in single steps, with the statements that are left
in one flat list.

| first statement | step | effect |
| --- | --- | --- |
| print | its expression has a value | the text of the value is one more line |
| assign | its expression has a value | the name is bound to the value |
| if | its condition is true or false | none; goes on with the branch |
| loop | its condition is true or false | none; goes on with body and loop, or behind it |
| block | always | none; goes on with its statements |

The steps share nothing with the recursive run but the value of an expression: the
effects and what a condition may be are written out in `Step` and `Stops`.

The machine stops when nothing is left, or when an expression or a condition
fails.  It stops in the same way as the recursive run, done or failed
(`run_eq_some_iff_halts`): whatever a failing run leaves behind was done by
steps that were complete before.
-/

import FlatScript.Proofs.Nodes
import FlatScript.Stmt.Run
import Mathlib.Logic.Relation

namespace FlatScript
namespace Machine

open Stmt

/-- What is left to run, and the variables and the lines printed so far. -/
structure Config where
  rest : List Stmt
  state : State

/-- One step of the machine.  Only `print` and `assign` have an effect, written out
here: one more line, or one variable bound. -/
inductive Step : Config → Config → Prop where
  | print {e : Expr} {n : Nat} {k : List Stmt} {st : State} {v : Value}
      (h : e.eval st.context = .ok v) :
      Step ⟨.print e n :: k, st⟩ ⟨k, ⟨st.context, st.output.push v.text⟩⟩
  | assign {x : String} {e : Expr} {n : Nat} {k : List Stmt} {st : State} {v : Value}
      (h : e.eval st.context = .ok v) :
      Step ⟨.assign x e n :: k, st⟩ ⟨k, ⟨st.context.set x v, st.output⟩⟩
  | ifThen {c : Expr} {s : Stmt} {n : Nat} {k : List Stmt} {st : State}
      (h : c.eval st.context = .ok (.bool true)) : Step ⟨.ifThen c s n :: k, st⟩ ⟨s :: k, st⟩
  | ifSkip {c : Expr} {s : Stmt} {n : Nat} {k : List Stmt} {st : State}
      (h : c.eval st.context = .ok (.bool false)) : Step ⟨.ifThen c s n :: k, st⟩ ⟨k, st⟩
  | ifElse {c : Expr} {s t : Stmt} {n : Nat} {k : List Stmt} {st : State}
      (h : c.eval st.context = .ok (.bool true)) : Step ⟨.ifElse c s t n :: k, st⟩ ⟨s :: k, st⟩
  | orElse {c : Expr} {s t : Stmt} {n : Nat} {k : List Stmt} {st : State}
      (h : c.eval st.context = .ok (.bool false)) : Step ⟨.ifElse c s t n :: k, st⟩ ⟨t :: k, st⟩
  | loop {c : Expr} {s : Stmt} {n : Nat} {k : List Stmt} {st : State}
      (h : c.eval st.context = .ok (.bool true)) :
      Step ⟨.loop c s n :: k, st⟩ ⟨s :: .loop c s n :: k, st⟩
  | exit {c : Expr} {s : Stmt} {n : Nat} {k : List Stmt} {st : State}
      (h : c.eval st.context = .ok (.bool false)) : Step ⟨.loop c s n :: k, st⟩ ⟨k, st⟩
  | block {ss : List Stmt} {n : Nat} {k : List Stmt} {st : State} :
      Step ⟨.block ss n :: k, st⟩ ⟨ss ++ k, st⟩

/-- `ConditionFails c n context err`: the condition has no truth value, because
its expression fails, or because its value is no boolean. -/
inductive ConditionFails (c : Expr) (n : Nat) (context : Context) : RuntimeError → Prop where
  | expression {err : RuntimeError} (h : c.eval context = .error err) :
      ConditionFails c n context err
  | kind {v : Value} (h : c.eval context = .ok v) (hkind : v.kind ≠ .boolean) :
      ConditionFails c n context ⟨.typeMismatch (.notCondition v.kind), n⟩

/-- `Stops cfg ending`: the machine takes no step from `cfg`, because nothing is
left, or because the first expression or condition fails. -/
inductive Stops : Config → Ending → Prop where
  | done {st : State} : Stops ⟨[], st⟩ (.done st)
  | print {e : Expr} {n : Nat} {k : List Stmt} {st : State} {err : RuntimeError}
      (h : e.eval st.context = .error err) : Stops ⟨.print e n :: k, st⟩ (.failed err st)
  | assign {x : String} {e : Expr} {n : Nat} {k : List Stmt} {st : State} {err : RuntimeError}
      (h : e.eval st.context = .error err) : Stops ⟨.assign x e n :: k, st⟩ (.failed err st)
  | ifThen {c : Expr} {s : Stmt} {n : Nat} {k : List Stmt} {st : State} {err : RuntimeError}
      (h : ConditionFails c n st.context err) : Stops ⟨.ifThen c s n :: k, st⟩ (.failed err st)
  | ifElse {c : Expr} {s t : Stmt} {n : Nat} {k : List Stmt} {st : State} {err : RuntimeError}
      (h : ConditionFails c n st.context err) : Stops ⟨.ifElse c s t n :: k, st⟩ (.failed err st)
  | loop {c : Expr} {s : Stmt} {n : Nat} {k : List Stmt} {st : State} {err : RuntimeError}
      (h : ConditionFails c n st.context err) : Stops ⟨.loop c s n :: k, st⟩ (.failed err st)

/-- The run's test of a condition fails exactly when the condition does. -/
theorem test_eq_error_iff {c : Expr} {n : Nat} {context : Context} {err : RuntimeError} :
    test c n context = .error err ↔ ConditionFails c n context err := by
  unfold test
  constructor
  · intro h
    split at h
    · rename_i v hv
      cases v with
      | bool b => cases h
      | integer k | real x | str s =>
        obtain rfl := Except.error.inj h
        exact .kind hv (by simp [Value.kind])
    · cases h
      exact .expression ‹_›
  · intro h
    cases h with
    | expression h => rw [h]
    | @kind v h hkind =>
      rw [h]
      cases v with
      | bool b => exact absurd rfl hkind
      | integer k | real x | str s => rfl

/-- Any number of steps. -/
abbrev Steps : Config → Config → Prop :=
  Relation.ReflTransGen Step

/-- `Halts cfg ending`: some number of steps after `cfg` the machine stops. -/
def Halts (cfg : Config) (ending : Ending) : Prop :=
  ∃ cfg', Steps cfg cfg' ∧ Stops cfg' ending

/-- Whether the machine is done with all but the statements `k`, or fails before. -/
def Reaches (cfg : Config) (k : List Stmt) : Ending → Prop
  | .done st => Steps cfg ⟨k, st⟩
  | .failed err st => Halts cfg (.failed err st)

variable {a b : Config} {k : List Stmt} {st : State} {ending : Ending}

/-- Steps before it do not change where a machine halts. -/
theorem Halts.of_steps (h : Steps a b) (hb : Halts b ending) : Halts a ending := by
  obtain ⟨cfg, hsteps, hstops⟩ := hb
  exact ⟨cfg, h.trans hsteps, hstops⟩

/-- Steps before it do not change what a machine reaches. -/
theorem Reaches.of_steps (h : Steps a b) (hb : Reaches b k ending) : Reaches a k ending := by
  cases ending with
  | done st => exact h.trans hb
  | failed err st => exact Halts.of_steps h hb

/-- A machine that reaches the end of all statements halts there. -/
theorem Reaches.halts (h : Reaches a [] ending) : Halts a ending := by
  cases ending with
  | done st => exact ⟨_, h, .done⟩
  | failed err st => exact h

theorem Reaches.of_step (h : Step a b) (hb : Reaches b k ending) : Reaches a k ending :=
  Reaches.of_steps (.single h) hb

/-- A configuration that stops by a failure has reached it. -/
theorem Reaches.of_stops {err : RuntimeError} (h : Stops a (.failed err st)) :
    Reaches a k (.failed err st) :=
  ⟨a, .refl, h⟩

/-- **Each round of a loop is a run of its body by the machine.** -/
theorem reaches_of_repeatWhile {c : Expr} {s : Stmt} {n limit : Nat}
    {body : State → Option Ending}
    (hbody : ∀ st ending k, body st = some ending → Reaches ⟨s :: k, st⟩ k ending)
    (h : repeatWhile (test c n) body limit st = some ending) :
    Reaches ⟨.loop c s n :: k, st⟩ k ending := by
  induction limit generalizing st with
  | zero => cases h
  | succ limit ih =>
    rw [repeatWhile] at h
    split at h
    · rename_i err htest
      cases h
      exact .of_stops (.loop (test_eq_error_iff.1 htest))
    · rename_i htest
      cases h
      exact .of_step (.exit (test_eq_ok_iff.1 htest)) .refl
    · rename_i htest
      refine .of_step (.loop (test_eq_ok_iff.1 htest)) ?_
      cases hst : body st with
      | none => simp [hst] at h
      | some first =>
        rw [hst] at h
        have hfirst := hbody st first (.loop c s n :: k) hst
        cases first with
        | done st' => exact Reaches.of_steps hfirst (ih h)
        | failed err st' =>
          cases h
          exact hfirst

mutual

/-- **The machine takes a statement to where its run ends.** -/
theorem reaches_of_run (limit : Nat) :
    ∀ (s : Stmt) (st : State) (ending : Ending) (k : List Stmt),
      s.run limit st = some ending → Reaches ⟨s :: k, st⟩ k ending
  | .print e n, st, ending, k, h => by
    rw [run] at h
    split at h
    · cases h
      exact .of_step (.print ‹_›) .refl
    · cases h
      exact .of_stops (.print ‹_›)
  | .assign x e n, st, ending, k, h => by
    rw [run] at h
    split at h
    · cases h
      exact .of_step (.assign ‹_›) .refl
    · cases h
      exact .of_stops (.assign ‹_›)
  | .ifThen c s n, st, ending, k, h => by
    rw [run] at h
    split at h
    · exact .of_step (.ifThen (test_eq_ok_iff.1 ‹_›)) (reaches_of_run limit s st ending k h)
    · cases h
      exact .of_step (.ifSkip (test_eq_ok_iff.1 ‹_›)) .refl
    · cases h
      exact .of_stops (.ifThen (test_eq_error_iff.1 ‹_›))
  | .ifElse c s t n, st, ending, k, h => by
    rw [run] at h
    split at h
    · exact .of_step (.ifElse (test_eq_ok_iff.1 ‹_›)) (reaches_of_run limit s st ending k h)
    · exact .of_step (.orElse (test_eq_ok_iff.1 ‹_›)) (reaches_of_run limit t st ending k h)
    · cases h
      exact .of_stops (.ifElse (test_eq_error_iff.1 ‹_›))
  | .loop c s n, st, ending, k, h => by
    rw [run] at h
    exact reaches_of_repeatWhile (reaches_of_run limit s) h
  | .block ss n, st, ending, k, h => by
    rw [run] at h
    exact .of_step .block (reaches_of_runAll limit ss st ending k h)

/-- The machine takes statements to where their run ends. -/
theorem reaches_of_runAll (limit : Nat) :
    ∀ (ss : List Stmt) (st : State) (ending : Ending) (k : List Stmt),
      runAll limit ss st = some ending → Reaches ⟨ss ++ k, st⟩ k ending
  | [], st, ending, k, h => by
    rw [runAll] at h
    cases h
    exact .refl
  | s :: ss, st, ending, k, h => by
    rw [runAll] at h
    cases hs : s.run limit st with
    | none => simp [hs] at h
    | some first =>
      rw [hs] at h
      have hfirst := reaches_of_run limit s st first (ss ++ k) hs
      cases first with
      | done st' => exact Reaches.of_steps hfirst (reaches_of_runAll limit ss st' ending k h)
      | failed err st' =>
        cases h
        exact hfirst

end

/-- A run of statements is a run of the first, and then of the others if that was
done. -/
theorem runAll_cons_eq_some_iff {limit : Nat} {s : Stmt} {ss : List Stmt} :
    runAll limit (s :: ss) st = some ending ↔
      (∃ st', s.run limit st = some (.done st') ∧ runAll limit ss st' = some ending) ∨
        ∃ err st', s.run limit st = some (.failed err st') ∧ ending = .failed err st' := by
  rw [runAll]
  cases s.run limit st with
  | none => simp
  | some first =>
    cases first with
    | done st' => simp
    | failed err st' =>
      constructor
      · exact fun h => .inr ⟨err, st', rfl, (Option.some.inj h).symm⟩
      · rintro (⟨st₁, h, -⟩ | ⟨err₁, st₁, h, rfl⟩)
        · cases h
        · exact h

/-- Going round a loop once and then running it is running it, with one more test
allowed. -/
theorem run_loop_of_round {c : Expr} {s : Stmt} {n limit : Nat}
    (htest : test c n st.context = .ok true)
    (h : runAll limit (s :: .loop c s n :: k) st = some ending) :
    runAll (limit + 1) (.loop c s n :: k) st = some ending := by
  have hmono : ∀ st ending, s.run limit st = some ending → s.run (limit + 1) st = some ending :=
    run_mono (Nat.le_succ limit) s
  have hround : ∀ {st' : State} {e : Ending}, s.run limit st = some (.done st') →
      Stmt.run limit (.loop c s n) st' = some e →
        Stmt.run (limit + 1) (.loop c s n) st = some e := by
    intro st' e hs hloop
    rw [run] at hloop ⊢
    rw [repeatWhile, htest, hmono _ _ hs]
    exact repeatWhile_mono hmono (Nat.le_refl limit) hloop
  rcases runAll_cons_eq_some_iff.1 h with ⟨st₁, hs, hrest⟩ | ⟨err, st₁, hs, rfl⟩
  · rcases runAll_cons_eq_some_iff.1 hrest with ⟨st₂, hloop, hk⟩ | ⟨err, st₂, hloop, rfl⟩
    · have hk' := runAll_mono (Nat.le_succ limit) k st₂ ending hk
      exact runAll_cons_eq_some_iff.2 (.inl ⟨st₂, hround hs hloop, hk'⟩)
    · exact runAll_cons_eq_some_iff.2 (.inr ⟨err, st₂, hround hs hloop, rfl⟩)
  · refine runAll_cons_eq_some_iff.2 (.inr ⟨err, st₁, ?_, rfl⟩)
    rw [run, repeatWhile, htest, hmono _ _ hs]

/-- Where the machine stops, the run ends. -/
theorem Stops.runAll_eq (h : Stops a ending) : runAll 1 a.rest a.state = some ending := by
  cases h with
  | done => rw [runAll]
  | print h => simp [runAll, run, h]
  | assign h => simp [runAll, run, h]
  | ifThen h => simp [runAll, run, test_eq_error_iff.2 h]
  | ifElse h => simp [runAll, run, test_eq_error_iff.2 h]
  | loop h => simp [runAll, run, repeatWhile, test_eq_error_iff.2 h]

/-- **A step does not change how the run ends**, but a loop may need one more
test. -/
theorem Step.runAll_eq {limit : Nat} (h : Step a b)
    (hb : runAll limit b.rest b.state = some ending) :
    runAll (limit + 1) a.rest a.state = some ending := by
  have hb' := runAll_mono (Nat.le_succ limit) _ _ _ hb
  cases h with
  | print h => simpa [runAll, run, State.print, h] using hb'
  | assign h => simpa [runAll, run, State.assign, h] using hb'
  | ifThen h => simpa [runAll, run, test_eq_ok_iff.2 h] using hb'
  | ifSkip h => simpa [runAll, run, test_eq_ok_iff.2 h] using hb'
  | ifElse h => simpa [runAll, run, test_eq_ok_iff.2 h] using hb'
  | orElse h => simpa [runAll, run, test_eq_ok_iff.2 h] using hb'
  | loop h => exact run_loop_of_round (test_eq_ok_iff.2 h) hb
  | exit h => simpa [runAll, run, repeatWhile, test_eq_ok_iff.2 h] using hb'
  | block =>
    rw [runAll_append] at hb'
    rw [runAll, run]
    exact hb'

/-- The run ends as the machine halts. -/
theorem Halts.exists_runAll (h : Halts a ending) :
    ∃ limit, runAll limit a.rest a.state = some ending := by
  obtain ⟨cfg, hsteps, hstops⟩ := h
  induction hsteps using Relation.ReflTransGen.head_induction_on with
  | refl => exact ⟨1, hstops.runAll_eq⟩
  | head hstep _ ih =>
    obtain ⟨limit, hlimit⟩ := ih
    exact ⟨limit + 1, hstep.runAll_eq hlimit⟩

/-- A run that ends is one that the machine halts with. -/
theorem halts_of_run {limit : Nat} {p : Program} (h : p.run limit st = some ending) :
    Halts ⟨p, st⟩ ending := by
  have hreaches := reaches_of_runAll limit p st ending [] h
  rw [List.append_nil] at hreaches
  exact hreaches.halts

/-- The machine stops in the state that it is in. -/
theorem Stops.state_eq (h : Stops a ending) : ending.state = a.state := by
  cases h <;> rfl

/-- **What every step keeps, a run keeps**, whether it is done or fails: it holds
of the configuration that the machine stops in. -/
theorem exists_stops_of_run {inv : Config → Prop} (hstep : ∀ a b, Step a b → inv a → inv b)
    {limit : Nat} {p : Program} (h : p.run limit st = some ending) (hinv : inv ⟨p, st⟩) :
    ∃ cfg, inv cfg ∧ Stops cfg ending := by
  obtain ⟨cfg, hsteps, hstops⟩ := halts_of_run h
  refine ⟨cfg, ?_, hstops⟩
  clear hstops
  induction hsteps with
  | refl => exact hinv
  | tail _ hlast ih => exact hstep _ _ hlast ih

/-- A step brings in no new expressions. -/
theorem Step.nodes_subset (h : Step a b) : nodesOf b.rest ⊆ nodesOf a.rest := by
  intro e he
  cases h <;> simp only [nodesOf, nodes, nodesOf_append, List.mem_append] at he ⊢ <;> grind

/-- A step brings in no new statements. -/
theorem Step.parts_subset (h : Step a b) : partsOf b.rest ⊆ partsOf a.rest := by
  intro s hs
  cases h <;>
    simp only [partsOf, parts, partsOf_append, List.mem_append, List.mem_cons] at hs ⊢ <;> grind

/-- A step brings in no new names to assign to. -/
theorem Step.targets_subset (h : Step a b) : targetsOf b.rest ⊆ targetsOf a.rest := by
  intro x hx
  cases h <;> simp only [targetsOf, targets, targetsOf_append, List.mem_append] at hx ⊢ <;> grind

/-- **A program runs to an ending exactly when the machine halts with it**: done
or failed, with the same error, variables and printed lines. -/
theorem run_eq_some_iff_halts (p : Program) (st : State) (ending : Ending) :
    (∃ limit, p.run limit st = some ending) ↔ Halts ⟨p, st⟩ ending := by
  constructor
  · rintro ⟨limit, h⟩
    have hreaches := reaches_of_runAll limit p st ending [] h
    rw [List.append_nil] at hreaches
    exact hreaches.halts
  · exact fun h => h.exists_runAll

/-- Two loops, one inside the other, that print `10 * i + j`.  In the second round of
the outer loop the inner one reads an unbound name, after it has printed once more. -/
def nestedLoops : Program :=
  [.assign "i" (.literal (.integer 0) 1) 1,
    .loop (.binary .less (.var "i" 2) (.literal (.integer 3) 2) 2)
      (.block [.assign "j" (.literal (.integer 0) 3) 3,
        .loop (.binary .less (.var "j" 4) (.literal (.integer 2) 4) 4)
          (.block [
            .print (.binary .add (.binary .mul (.literal (.integer 10) 5) (.var "i" 5) 5)
              (.var "j" 5) 5) 5,
            .ifThen (.binary .equal (.var "i" 6) (.literal (.integer 1) 6) 6)
              (.assign "x" (.var "y" 6) 6) 6,
            .assign "j" (.binary .add (.var "j" 7) (.literal (.integer 1) 7) 7) 7] 4) 4,
        .assign "i" (.binary .add (.var "i" 8) (.literal (.integer 1) 8) 8) 8] 2) 2,
    .print (.literal (.str "after") 9) 9]

/-- The machine fails inside both loops of `nestedLoops`, with the lines and the
variables of the steps before: `x` is not bound, and nothing after is printed. -/
theorem run_eq_some_iff_halts_nestedLoops :
    let c := Context.empty.set "k" (.bool true)
    let last := (c.set "i" (.integer 1)).set "j" (.integer 0)
    nestedLoops.run 3 ⟨c, #["before"]⟩ =
        some (.failed ⟨.undefinedVariable "y", 6⟩ ⟨last, #["before", "0", "1", "10"]⟩) ∧
      Halts ⟨nestedLoops, ⟨c, #["before"]⟩⟩
        (.failed ⟨.undefinedVariable "y", 6⟩ ⟨last, #["before", "0", "1", "10"]⟩) ∧
      last.entries = [("k", .bool true), ("i", .integer 1), ("j", .integer 0)] := by
  intro c last
  have hrun : nestedLoops.run 3 ⟨c, #["before"]⟩ =
      some (.failed ⟨.undefinedVariable "y", 6⟩ ⟨last, #["before", "0", "1", "10"]⟩) := rfl
  exact ⟨hrun, (run_eq_some_iff_halts _ _ _).1 ⟨3, hrun⟩, rfl⟩

end Machine
end FlatScript
