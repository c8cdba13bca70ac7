/-
# Programs are what the grammar derives

The parser of programs against the grammar: `parse_eq_ok_iff_derives` says that
a list of tokens parses as a program exactly when all of it derives the program
and three side conditions hold.

| side condition | limit |
| --- | --- |
| nesting of the derivation | 64 |
| height of each binary node | 1024 |
| sums with a boolean literal as an operand | none |

The height is a condition on binary nodes only: a negation may stand on top of
an expression that is as tall as any may be.
-/

import FlatScript.Proofs.Grammar.Completeness

namespace FlatScript
namespace Program

/-- Statements up to the end of the tokens are derived. -/
theorem derives_of_statements {ts : Tokens} {p : Program} (h : statements ts = .ok p) :
    ∃ d, d ≤ Expr.maxNesting ∧ Derives d ts (.statements p) ∧ Expr.Low p.nodes := by
  fun_induction statements ts generalizing p with
  | case1 =>
    obtain rfl : [] = p := by simpa using h
    exact ⟨0, Nat.zero_le _, .none, by simp [Expr.Low, nodes, Stmt.nodesOf]⟩
  | case2 => simp at h
  | case3 t ts s rest hs ss hss ih =>
    obtain rfl : s :: ss = p := by simpa using h
    obtain ⟨n, hrun⟩ := Parser.run_terminated_eq_ok_iff.1 hs
    obtain ⟨d, us, hd, hus, hder, hlow⟩ := Stmt.parser_sound _ hrun
    obtain ⟨d', hd', hders, hlows⟩ := ih hss
    rw [hus]
    exact ⟨max d d', by omega, .next n hder hders, Expr.low_append_iff.2 ⟨hlow, hlows⟩⟩
  | case4 => simp at h

/-- Derived statements are parsed up to the end of the tokens. -/
theorem statements_of_derives {d : Nat} {ts : Tokens} {p : Program} (hd : d ≤ Expr.maxNesting)
    (h : Derives d ts (.statements p)) (hlow : Expr.Low p.nodes) : statements ts = .ok p := by
  induction p generalizing d ts with
  | nil =>
    cases h
    rw [statements]
  | cons s ss ih =>
    cases h with
    | @next d d' us vs _ _ n hs hss =>
      obtain ⟨hslow, hsslow⟩ := Expr.low_append_iff.1 hlow
      have hrest : statements vs = .ok ss := ih (by omega) hss hsslow
      have hfirst : (Parser.terminated (Stmt.parser Expr.maxNesting)).run
          (us ++ ⟨.semicolon, n⟩ :: vs) = (.ok s, vs) :=
        Parser.run_terminated_eq_ok_iff.2 ⟨n, hs.parsed _ (by omega) hslow n vs⟩
      obtain ⟨t, ws, rfl, -⟩ := hs.exists_cons
      rw [List.cons_append] at hfirst ⊢
      simp only [statements_cons, hfirst, hrest]

/-- Statements take up all of the tokens exactly when these derive them, within
both limits. -/
theorem statements_eq_ok_iff {ts : Tokens} {p : Program} :
    statements ts = .ok p ↔
      ∃ d, d ≤ Expr.maxNesting ∧ Derives d ts (.statements p) ∧ Expr.Low p.nodes :=
  ⟨derives_of_statements, fun ⟨_, hd, h, hlow⟩ => statements_of_derives hd h hlow⟩

/-- A program is what its statements are, unless it has a boolean sum. -/
theorem parse_eq_ok_iff {ts : Tokens} {p : Program} :
    parse ts = .ok p ↔ statements ts = .ok p ∧ ∀ e ∈ p.nodes, e.isBooleanSum = false := by
  rw [← booleanSum?_eq_none_iff, parse]
  cases statements ts with
  | error e => simp
  | ok q =>
    cases hsum : q.booleanSum? with
    | none =>
      simp only [validate, hsum, Except.ok.injEq]
      exact ⟨fun h => ⟨h, h ▸ hsum⟩, fun h => h.1⟩
    | some n =>
      simp only [validate, hsum, Except.ok.injEq, reduceCtorEq, false_iff, not_and]
      rintro rfl
      simp [hsum]

/-- **The parser accepts exactly the grammar and builds exactly the derived
tree.**  The three side conditions are the only ones: what the parser refuses
has no derivation, or breaks one of them. -/
theorem parse_eq_ok_iff_derives (ts : Tokens) (p : Program) :
    parse ts = .ok p ↔
      (∃ d ≤ 64, Derives d ts (.statements p)) ∧
        (∀ e ∈ p.nodes, e.isBinary = true → e.height ≤ 1024) ∧
          ∀ e ∈ p.nodes, e.isBooleanSum = false := by
  rw [parse_eq_ok_iff, statements_eq_ok_iff]
  constructor
  · rintro ⟨⟨d, hd, hder, hlow⟩, hsum⟩
    exact ⟨⟨d, hd, hder⟩, hlow, hsum⟩
  · rintro ⟨⟨d, hd, hder⟩, hlow, hsum⟩
    exact ⟨⟨d, hd, hder, hlow⟩, hsum⟩

end Program
end FlatScript
