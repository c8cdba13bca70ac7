/-
# What the starting depth decides

A parser may start some levels in.  Inside `d` parentheses, signs and blocks it has
the room that these leave (`Expr.roomAt`), and from `maxNesting` levels on it has none.

That decides how far the parser gets, and nothing else.  Whatever it answers, it would
answer further out: with the same tree or the same error, and with the same tokens left,
unless the answer was that something is too deep (`Parser.Narrows`).  So tokens mean the
same at the top of a program and inside its blocks.

How far it gets is exact.  Of what the grammar derives, with no binary node too tall, it
accepts all that nests no further than there is room, and refuses the rest as too deep.
-/

import FlatScript.Proofs.Grammar.Limits
import FlatScript.Proofs.Relining.Parsing

namespace FlatScript

namespace Parser

variable {α : Type} {p q : Parser α}

/-- `p.Narrows q`: the parser `p` answers as `q` does, wherever it does not answer that
something is too deep. -/
structure Narrows (p q : Parser α) : Prop where
  ok : ∀ {ts rest : Tokens} {a : α}, p.run ts = (.ok a, rest) → q.run ts = (.ok a, rest)
  error : ∀ {ts rest : Tokens} {e : ParseError}, p.run ts = (.error e, rest) →
    e.val ≠ .tooDeep → q.run ts = (.error e, rest)

/-- A parser narrows one that follows it without renumbering. -/
theorem Follows.narrows {g : α → α} (h : Follows True id g p q) (hg : ∀ a, g a = a) :
    p.Narrows q where
  ok hrun := by
    have hq := h.run_of_ok hrun
    rwa [Located.reline_id, List.map_id, List.map_id, hg] at hq
  error hrun hval := by
    rcases h.run_of_error hrun with hq | ⟨-, n, rfl⟩
    · rwa [Located.reline_id, List.map_id, List.map_id, ParseError.renumber_id] at hq
    · exact absurd rfl hval

end Parser

namespace Expr

/-- The room that is left inside `d` levels. -/
def roomAt (d : Nat) : Nat :=
  maxNesting - d

theorem roomAt_le_roomAt {d d' : Nat} (h : d' ≤ d) : roomAt d ≤ roomAt d' :=
  Nat.sub_le_sub_left h maxNesting

/-- **How far a parser of expressions gets**: to what nests no further than it has
room. -/
theorem Derives.accepted_or_refused {tier : Tier} {n : Nat} {ts rest : Tokens} {e : Expr}
    (h : Derives tier n ts e) (hlow : Low e.nodes) (hends : tier.Ends rest) (room : Nat) :
    (n ≤ room → (tier.parser room).run (ts ++ rest) = (.ok e, rest)) ∧
      (room < n → (tier.parser room).Refuses (ts ++ rest)) := by
  have htighter : ∀ tighter, tier.operand? = some tighter → tighter.Ends rest :=
    fun _ ht => hends.operand ht
  constructor
  · intro hle
    rw [h.run_eq_resume room rest hle hlow htighter, Tier.resume_eq_ok hends]
  · intro hlt
    exact h.refuses room rest (fun hfits => absurd hfits.1 (Nat.not_le.2 hlt)) htighter

end Expr

/-- **How far the parsers of statements and blocks get.** -/
theorem Derives.accepted_or_refused {n : Nat} {ts : Tokens} {f : Phrase} (h : Derives n ts f)
    (hlow : Expr.Low f.nodes) (room : Nat) :
    (n ≤ room → f.Parsed room ts) ∧ (room < n → f.Refused room ts) := by
  constructor
  · intro hle
    exact h.parsed room hle hlow
  · intro hlt
    exact h.refused room fun hfits => absurd hfits.1 (Nat.not_le.2 hlt)

open FlatScript.Expr (roomAt)

/-- **The starting depth only limits what is parsed.**  The parsers of expressions, sums,
products, statements and blocks answer `d` levels in as they do further out, with the
same tree or error and the same tokens left, or else that something is too deep.  The
limit is exact: of what is derived without too tall a node, they accept `d` levels in
what nests no further than there is room, and refuse the rest. -/
theorem depth_only_limits (d : Nat) :
    (∀ d' ≤ d,
      (Expr.parser (roomAt d)).Narrows (Expr.parser (roomAt d')) ∧
      (Expr.additive (roomAt d)).Narrows (Expr.additive (roomAt d')) ∧
      (Expr.multiplicative (roomAt d)).Narrows (Expr.multiplicative (roomAt d')) ∧
      (Stmt.parser (roomAt d)).Narrows (Stmt.parser (roomAt d')) ∧
      (Stmt.blockParser (roomAt d)).Narrows (Stmt.blockParser (roomAt d'))) ∧
    (∀ tier n ts e rest, Expr.Derives tier n ts e → Expr.Low e.nodes → tier.Ends rest →
      (n ≤ roomAt d → (tier.parser (roomAt d)).run (ts ++ rest) = (.ok e, rest)) ∧
        (roomAt d < n → (tier.parser (roomAt d)).Refuses (ts ++ rest))) ∧
    ∀ n ts f, Derives n ts f → Expr.Low f.nodes →
      (n ≤ roomAt d → f.Parsed (roomAt d) ts) ∧ (roomAt d < n → f.Refused (roomAt d) ts) := by
  refine ⟨fun d' hd => ?_, fun tier n ts e rest h hlow hends => ?_, fun n ts f h hlow => ?_⟩
  · have hroom := Expr.roomAt_le_roomAt hd
    -- Further out there may be more room, and no line is renumbered.
    have hunary : Parser.Follows True id (Expr.reline id) (Expr.unary (roomAt d))
        (Expr.unary (roomAt d')) := Expr.unary_follows hroom fun _ => trivial
    exact ⟨(Expr.comparisonsOf_follows hunary).narrows Expr.reline_id,
      (Expr.sumsOf_follows hunary).narrows Expr.reline_id,
      (Expr.productsOf_follows hunary).narrows Expr.reline_id,
      (Stmt.parser_follows hroom fun _ => trivial).narrows Stmt.reline_id,
      (Stmt.blockParser_follows hroom fun _ => trivial).narrows Stmt.reline_id⟩
  · exact h.accepted_or_refused hlow hends (roomAt d)
  · exact h.accepted_or_refused hlow (roomAt d)

/-- A loop of two levels, with the semicolon inside it and without.  It is parsed 62
levels in as at the top, to the same tree or the same error, and one level further in it
is refused.  A sign is parsed 63 levels in and refused 64 levels in. -/
theorem depth_only_limits_lastLevels :
    let loop := tokensOf "while (x)\n\x7b x = -x; \x7d;"
    let cut := tokensOf "while (x)\n\x7b x = -x \x7d;"
    let sign := tokensOf "-x"
    (∃ s, (Stmt.parser (roomAt 62)).run loop = (.ok s, [⟨.semicolon, 2⟩]) ∧
        (Stmt.parser (roomAt 0)).run loop = (.ok s, [⟨.semicolon, 2⟩])) ∧
      ((Stmt.parser (roomAt 62)).run cut =
          (.error ⟨.unexpectedToken "'\x7d'" "';'", 2⟩, [⟨.semicolon, 2⟩]) ∧
        (Stmt.parser (roomAt 0)).run cut =
          (.error ⟨.unexpectedToken "'\x7d'" "';'", 2⟩, [⟨.semicolon, 2⟩])) ∧
      (Stmt.parser (roomAt 63)).Refuses loop ∧
        (Expr.multiplicative (roomAt 63)).run sign = (.ok (.negate (.var "x" 1) 1), []) ∧
          (Expr.multiplicative (roomAt 64)).Refuses sign := by
  intro loop cut sign
  have hsign : ∀ n, Expr.Derives .multiplicative 1 [⟨.minus, n⟩, ⟨.identifier "x", n⟩]
      (.negate (.var "x" n) n) :=
    fun n => .operand rfl (.negation n (.operand rfl (.name "x" n)))
  have hlow : ∀ n, Expr.Low (Expr.negate (.var "x" n) n).nodes :=
    fun n => Expr.low_nodes_negate_iff.2 (Expr.low_nodes_var "x" n)
  have hends : Tier.multiplicative.Ends [] := fun t ht => by cases ht
  have hloop := Derives.loop 1 1 1
    (.operand rfl (.operand rfl (.operand rfl (.operand rfl (.name "x" 1)))))
    (.block 2 2 (by simp)
      (.next 2 (.assign "x" 2 2 (.operand rfl (.operand rfl (hsign 2)))) .none))
  have hloopLow := Expr.low_append_iff.2 ⟨Expr.low_nodes_var "x" 1,
    Expr.low_append_iff.2 ⟨hlow 2, List.forall_mem_nil _⟩⟩
  obtain ⟨hnarrows, -, -⟩ := depth_only_limits 62
  obtain ⟨-, -, -, hstatement, -⟩ := hnarrows 0 (by decide)
  obtain ⟨s, hs⟩ : ∃ s, (Stmt.parser (roomAt 62)).run loop = (.ok s, [⟨.semicolon, 2⟩]) :=
    ⟨_, by with_unfolding_all rfl⟩
  have hcut : (Stmt.parser (roomAt 62)).run cut =
      (.error ⟨.unexpectedToken "'\x7d'" "';'", 2⟩, [⟨.semicolon, 2⟩]) := by with_unfolding_all rfl
  obtain ⟨-, hexpressions, hphrases⟩ := depth_only_limits 63
  obtain ⟨-, hinnermost, -⟩ := depth_only_limits 64
  refine ⟨⟨s, hs, hstatement.ok hs⟩, ⟨hcut, hstatement.error hcut (by simp)⟩, ?_, ?_, ?_⟩
  · with_unfolding_all exact (hphrases _ _ _ hloop hloopLow).2 (by decide) 2 []
  · with_unfolding_all exact (hexpressions _ _ _ _ _ (hsign 1) (hlow 1) hends).1 (by decide)
  · with_unfolding_all exact (hinnermost _ _ _ _ _ (hsign 1) (hlow 1) hends).2 (by decide)

end FlatScript
