/-
# Layout decides nothing

Two sources that are the same but for their line breaks and blanks do the same.
More exactly: if their items agree, tokens and faults in order, whatever lines
they stand on, then one ends exactly when the other does, and then they leave the
same variables, print the same lines, and report and fail with the same causes
(`Script.execute_layout`).  Only the lines in their messages differ.

All lines are renumbered to one: then the items, and hence the tokens, are equal,
and everything that follows from them is what follows from either source,
renumbered.
-/

import FlatScript.Proofs.Relining.Parsing
import FlatScript.Script
import Mathlib.Data.List.Forall2

namespace FlatScript

/-- What there is to say of a script, wherever it stands. -/
inductive Remark where
  /-- Text that is no token. -/
  | skipped (fault : LexFault)
  /-- Tokens that are no program. -/
  | refused (fault : ParseFault)
  /-- A program without statements. -/
  | nothingToRun

/-- A remark about a line, as a diagnostic. -/
def Remark.diagnostic (line : Nat) : Remark → Diagnostic
  | .skipped fault => .ofLexError ⟨fault, line⟩
  | .refused fault => .ofParseError ⟨fault, line⟩
  | .nothingToRun => .nothingToRun

/-- Two diagnostics make the same remark, perhaps about different lines. -/
def Diagnostic.SameButLine (d d' : Diagnostic) : Prop :=
  ∃ (r : Remark) (n n' : Nat), d = r.diagnostic n ∧ d' = r.diagnostic n'

/-- What stopped a script, wherever it stands. -/
def ScriptError.cause : ScriptError → ParseFault ⊕ RuntimeFault
  | .parse e => .inl e.val
  | .runtime e => .inr e.val

/-- Two executions that differ at most in lines of errors and remarks. -/
structure Execution.SameButLines (x y : Execution) : Prop where
  state : x.state = y.state
  error : x.error?.map ScriptError.cause = y.error?.map ScriptError.cause
  diagnostics : List.Forall₂ Diagnostic.SameButLine x.diagnostics y.diagnostics

/-- The cause of the error of an ending, whatever its line. -/
theorem Execution.map_cause_ofEnding (ending : Ending) (ds : List Diagnostic) :
    (Execution.ofEnding ending ds).error?.map ScriptError.cause =
      (ending.error?.map Located.val).map Sum.inr := by
  cases ending <;> rfl

/-- All lines are one. -/
def oneLine : Nat → Nat :=
  fun _ => 0

/-- Values on one line are told apart by nothing but themselves. -/
theorem map_reline_oneLine {α : Type} {xs ys : List (Located α)}
    (h : xs.map Located.val = ys.map Located.val) :
    xs.map (Located.reline oneLine) = ys.map (Located.reline oneLine) := by
  have hval : (Located.reline oneLine : Located α → Located α) = (⟨·, 0⟩) ∘ Located.val := rfl
  rw [hval, ← List.map_map, h, List.map_map]

/-- A selection that looks at the values alone selects the same from the same. -/
theorem map_val_filterMap {α β : Type} {select : Located α → Option (Located β)}
    (g : α → Option β) (hselect : ∀ x, (select x).map Located.val = g x.val)
    {xs ys : List (Located α)} (h : xs.map Located.val = ys.map Located.val) :
    (xs.filterMap select).map Located.val = (ys.filterMap select).map Located.val := by
  have hmap : ∀ zs : List (Located α), (zs.filterMap select).map Located.val =
      (zs.map Located.val).filterMap g := by
    intro zs
    rw [List.map_filterMap, List.filterMap_map]
    exact congrArg (List.filterMap · zs) (funext hselect)
  rw [hmap, hmap, h]

namespace Ending

@[simp] theorem error?_reline (f : Nat → Nat) (o : Array String) (ending : Ending) :
    (ending.reline f o).error? = ending.error?.map (Located.reline f) := by
  cases ending <;> rfl

@[simp] theorem state_reline (f : Nat → Nat) (o : Array String) (ending : Ending) :
    (ending.reline f o).state = ending.state.behind o := by
  cases ending <;> rfl

/-- Endings that are equal on one line leave the same state and fail for the same
reason. -/
theorem same_of_reline_oneLine {x y : Ending} (h : x.reline oneLine #[] = y.reline oneLine #[]) :
    x.state = y.state ∧ x.error?.map Located.val = y.error?.map Located.val := by
  constructor
  · have hbehind : ∀ st : State, st.behind #[] = st := fun st => by simp [State.behind]
    have hstate := congrArg Ending.state h
    rwa [state_reline, state_reline, hbehind, hbehind] at hstate
  · have herror := congrArg (fun z => (Ending.error? z).map Located.val) h
    simpa [Function.comp_def] using herror

end Ending

namespace Program

/-- What is remarked of a program is not about its lines. -/
theorem remarks_same_of_reline_oneLine {p q : Program}
    (h : p.reline oneLine = q.reline oneLine) :
    List.Forall₂ Diagnostic.SameButLine p.remarks q.remarks := by
  have hempty : ∀ r : Program, (r.reline oneLine).isEmpty = r.isEmpty := by
    intro r
    cases r <;> rfl
  rw [remarks, remarks, ← hempty p, h, hempty q]
  split
  · exact .cons ⟨.nothingToRun, 0, 0, rfl, rfl⟩ .nil
  · exact .nil

/-- Programs that are equal on one line end alike. -/
theorem run_same_of_reline_oneLine {p q : Program} (h : p.reline oneLine = q.reline oneLine)
    {limit : Nat} {c : Context} {x : Ending} (hx : p.run limit ⟨c, #[]⟩ = some x) :
    ∃ y, q.run limit ⟨c, #[]⟩ = some y ∧
      x.state = y.state ∧ x.error?.map Located.val = y.error?.map Located.val := by
  have hrun : (q.run limit ⟨c, #[]⟩).map (Ending.reline oneLine #[]) =
      (p.run limit ⟨c, #[]⟩).map (Ending.reline oneLine #[]) :=
    calc (q.run limit ⟨c, #[]⟩).map (Ending.reline oneLine #[])
      _ = (q.reline oneLine).run limit ⟨c, #[]⟩ := (run_reline oneLine limit q ⟨c, #[]⟩).symm
      _ = (p.reline oneLine).run limit ⟨c, #[]⟩ := by rw [h]
      _ = (p.run limit ⟨c, #[]⟩).map (Ending.reline oneLine #[]) :=
        run_reline oneLine limit p ⟨c, #[]⟩
  rw [hx] at hrun
  obtain ⟨y, hy, hxy⟩ := Option.map_eq_some_iff.1 hrun
  exact ⟨y, hy, Ending.same_of_reline_oneLine hxy.symm⟩

end Program

section Items

variable {a b : String} (h : (tokenize a).map Located.val = (tokenize b).map Located.val)
include h

/-- The two sources have the same tokens, but for their lines. -/
theorem map_val_tokensOf : (tokensOf a).map Located.val = (tokensOf b).map Located.val := by
  refine map_val_filterMap Except.toOption ?_ h
  rintro ⟨_ | _, n⟩ <;> rfl

/-- The two sources have the same faults, but for their lines. -/
theorem map_val_lexErrorsOf :
    (lexErrorsOf a).map Located.val = (lexErrorsOf b).map Located.val := by
  refine map_val_filterMap (fun r => (Item.error? ⟨r, 0⟩).map Located.val) ?_ h
  rintro ⟨_ | _, n⟩ <;> rfl

/-- The same text is skipped, in the same order. -/
theorem forall₂_ofLexError :
    List.Forall₂ Diagnostic.SameButLine ((lexErrorsOf a).map .ofLexError)
      ((lexErrorsOf b).map .ofLexError) := by
  have hvals := map_val_lexErrorsOf h
  rw [← List.forall₂_eq_eq_eq] at hvals
  rw [List.forall₂_map_left_iff, List.forall₂_map_right_iff] at hvals ⊢
  refine hvals.imp ?_
  rintro ⟨fault, n⟩ ⟨_, n'⟩ rfl
  exact ⟨.skipped fault, n, n', rfl, rfl⟩

/-- **Both are programs, equal on one line, or neither is**, for the same reason. -/
theorem parse_tokensOf_cases :
    (∃ e e', Program.parse (tokensOf a) = .error e ∧ Program.parse (tokensOf b) = .error e' ∧
      e.val = e'.val) ∨
    (∃ p q, Program.parse (tokensOf a) = .ok p ∧ Program.parse (tokensOf b) = .ok q ∧
      p.reline oneLine = q.reline oneLine) := by
  have hparse := congrArg Program.parse (map_reline_oneLine (map_val_tokensOf h))
  rw [Program.parse_map_reline, Program.parse_map_reline] at hparse
  cases hp : Program.parse (tokensOf a) with
  | error e =>
    cases hq : Program.parse (tokensOf b) with
    | error e' =>
      simp only [hp, hq, Except.error.injEq] at hparse
      exact .inl ⟨e, e', rfl, rfl, by simpa using congrArg Located.val hparse⟩
    | ok q => simp [hp, hq] at hparse
  | ok p =>
    cases hq : Program.parse (tokensOf b) with
    | error e' => simp [hp, hq] at hparse
    | ok q =>
      simp only [hp, hq, Except.ok.injEq] at hparse
      exact .inr ⟨p, q, rfl, rfl, hparse⟩

end Items

namespace Script

/-- A script that ends within a limit ends within it on other lines too, and does
the same there. -/
theorem exists_execute_sameButLines {a b : String}
    (h : (tokenize a).map Located.val = (tokenize b).map Located.val) {limit : Nat} {c : Context}
    {x : Execution} (hx : execute limit a c = some x) :
    ∃ y, execute limit b c = some y ∧ x.SameButLines y := by
  have hskipped := forall₂_ofLexError h
  obtain ⟨e, e', hp, hq, hval⟩ | ⟨p, q, hp, hq, hpq⟩ := parse_tokensOf_cases h
  · rw [execute_of_parse_error limit c hp] at hx
    obtain rfl := Option.some.inj hx
    obtain ⟨fault, n⟩ := e
    obtain ⟨_, n'⟩ := e'
    obtain rfl := hval
    refine ⟨_, execute_of_parse_error limit c hq, rfl, rfl, ?_⟩
    exact List.rel_append hskipped (.cons ⟨.refused fault, n, n', rfl, rfl⟩ .nil)
  · rw [execute_of_parse_ok limit c hp] at hx
    obtain ⟨ending, hrun, rfl⟩ := Option.map_eq_some_iff.1 hx
    obtain ⟨ending', hrun', hstate, herror⟩ := Program.run_same_of_reline_oneLine hpq hrun
    refine ⟨.ofEnding ending' ((lexErrorsOf b).map .ofLexError ++ q.remarks), ?_, hstate, ?_, ?_⟩
    · rw [execute_of_parse_ok limit c hq, hrun']
      rfl
    · rw [Execution.map_cause_ofEnding, Execution.map_cause_ofEnding, herror]
    · exact List.rel_append hskipped (Program.remarks_same_of_reline_oneLine hpq)

/-- **Layout decides nothing.**  Take two sources with the same tokens and faults,
on whatever lines.  In every context one ends exactly when the other does, and
then they leave the same variables in the same order and print the same lines, and
what is remarked and what stopped them differs in lines at most. -/
theorem execute_layout {a b : String}
    (h : (tokenize a).map Located.val = (tokenize b).map Located.val) (c : Context) :
    ((∃ limit x, execute limit a c = some x) ↔ ∃ limit y, execute limit b c = some y) ∧
      ∀ limit limit' x y, execute limit a c = some x → execute limit' b c = some y →
        x.SameButLines y := by
  refine ⟨⟨?_, ?_⟩, ?_⟩
  · rintro ⟨limit, x, hx⟩
    obtain ⟨y, hy, -⟩ := exists_execute_sameButLines h hx
    exact ⟨limit, y, hy⟩
  · rintro ⟨limit, y, hy⟩
    obtain ⟨x, hx, -⟩ := exists_execute_sameButLines h.symm hy
    exact ⟨limit, x, hx⟩
  · intro limit limit' x y hx hy
    obtain ⟨y', hy', hsame⟩ := exists_execute_sameButLines h hx
    -- Both limits are below their maximum, where `b` has one execution only.
    have hmax := execute_mono (Nat.le_max_left limit limit') hy'
    have hmax' := execute_mono (Nat.le_max_right limit limit') hy
    obtain rfl := Option.some.inj (hmax.symm.trans hmax')
    exact hsame

/-- The hypothesis of `execute_layout` holds of a source on one line and the same
over seven lines, with text that is skipped.  Both fail after a loop. -/
theorem execute_layout_spread :
    let a := "n = 2; @ while (n > 0) \x7b n = n - 1; print(n); \x7d; print(n / 0);"
    let b := "n = 2;\n\n@ while (n > 0)\n\x7b n = n - 1;\nprint(n); \x7d;\nprint(n\n/ 0);"
    (tokenize a).map Located.val = (tokenize b).map Located.val ∧
      ∃ x y, execute 3 a .empty = some x ∧ execute 4 b .empty = some y ∧
        x.error? = some (.runtime ⟨.divisionByZero, 1⟩) ∧
        y.error? = some (.runtime ⟨.divisionByZero, 7⟩) ∧ x.state.output = #["1", "0"] ∧
        x.SameButLines y := by
  intro a b
  have hitems : (tokenize a).map Located.val = (tokenize b).map Located.val := by decide +kernel
  have hx : (execute 3 a .empty).map (fun x => (x.error?, x.state.output)) =
      some (some (.runtime ⟨.divisionByZero, 1⟩), #["1", "0"]) := by decide +kernel
  have hy : (execute 4 b .empty).map (fun y => y.error?) =
      some (some (.runtime ⟨.divisionByZero, 7⟩)) := by decide +kernel
  obtain ⟨x, hx, hfields⟩ := Option.map_eq_some_iff.1 hx
  obtain ⟨y, hy, herror⟩ := Option.map_eq_some_iff.1 hy
  obtain ⟨hfailed, houtput⟩ := Prod.mk.inj hfields
  exact ⟨hitems, x, y, hx, hy, hfailed, herror, houtput,
    (execute_layout hitems .empty).2 3 4 x y hx hy⟩

end Script
end FlatScript
