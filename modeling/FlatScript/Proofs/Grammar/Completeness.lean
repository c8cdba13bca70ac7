/-
# What is derived, the parsers accept

Tokens that derive an expression are parsed as that expression, whatever follows
them, as long as the next token does not go on with it: an operator that binds
at least as tightly as the tier.  A parser reads a chain from left to right
while its derivation is built from the right end, so the statement proved by
induction is about an unfinished chain (`Expr.Derives.run_eq_resume`): after the
tokens of a left part, the parser is where it would be if it had just been
handed that part.

Statements end at their semicolon, blocks at their brace, so what follows them
does not matter.
-/

import FlatScript.Proofs.Grammar.Soundness
import FlatScript.Program

namespace FlatScript

namespace Tier

/-- The parser of the expressions of a tier. -/
def parser (room : Nat) : Tier → Parser Expr
  | .comparison => Expr.parser room
  | .additive => Expr.additive room
  | .multiplicative => Expr.multiplicative room
  | .unary | .primary => Expr.unary room

/-- How tightly the operators of a tier bind. -/
def rank : Tier → Nat
  | .comparison => 0
  | .additive => 1
  | .multiplicative => 2
  | .unary => 3
  | .primary => 4

/-- The operands of a tier are one rank tighter. -/
theorem rank_operand {tier tighter : Tier} (h : tier.operand? = some tighter) :
    tighter.rank = tier.rank + 1 := by
  cases tier <;> simp [operand?] at h <;> subst h <;> rfl

/-- An operator belongs to one tier. -/
theorem operator?_unique {tier tier' : Tier} {t : Token} {op op' : Operator}
    (h : tier.operator? t = some op) (h' : tier'.operator? t = some op') : tier = tier' := by
  obtain ⟨ht, ha⟩ := operator?_eq_some_iff.1 h
  obtain ⟨ht', ha'⟩ := operator?_eq_some_iff.1 h'
  obtain rfl := Option.some.inj (ht.symm.trans ht')
  cases tier <;> cases tier' <;> cases op <;> first
    | rfl
    | exact absurd ha Bool.false_ne_true
    | exact absurd ha' Bool.false_ne_true

/-- An expression of the tier ends before these tokens: the first of them is no
operator of the tier or a tighter one. -/
def Ends (tier : Tier) (rest : Tokens) : Prop :=
  ∀ t ∈ rest.head?, ∀ tier' : Tier, tier.rank ≤ tier'.rank → tier'.operator? t.val = none

/-- What ends a tier ends its operands. -/
theorem Ends.operand {tier tighter : Tier} {rest : Tokens} (h : tier.Ends rest)
    (ht : tier.operand? = some tighter) : tighter.Ends rest := by
  intro t hm tier' hle
  have := rank_operand ht
  exact h t hm tier' (by omega)

/-- The operands of a tier end before its operators. -/
theorem ends_operator {tier tighter : Tier} {t : Located Token} {op : Operator} {us : Tokens}
    (ht : tier.operand? = some tighter) (hop : tier.operator? t.val = some op) :
    tighter.Ends (t :: us) := by
  intro u hu tier' hle
  obtain rfl : t = u := by simpa using hu
  rw [Option.eq_none_iff_forall_ne_some]
  intro op' hop'
  obtain rfl := operator?_unique hop hop'
  have := rank_operand ht
  omega

/-- Every expression ends before a token that stands for no operator. -/
theorem ends_cons (tier : Tier) {t : Located Token} {us : Tokens} (h : t.val.operator? = none) :
    tier.Ends (t :: us) := by
  intro u hu tier' hle
  obtain rfl : t = u := by simpa using hu
  rw [Option.eq_none_iff_forall_ne_some]
  intro op hop
  have := (operator?_eq_some_iff.1 hop).1
  simp [h] at this

/-- Where the parser of a tier goes from a left part that it has parsed. -/
def resume (room : Nat) (tier : Tier) (left : Expr) (rest : Tokens) :
    Except ParseError Expr × Tokens :=
  match tier.operand? with
  | some tighter => Expr.chainFrom tier.accepts (tighter.parser room) left left.height rest
  | none => (.ok left, rest)

end Tier

namespace Expr

/-- A chain stops before a token that is no operator of its tier. -/
theorem chainFrom_eq_ok {tier : Tier} {p : Parser Expr} {left : Expr} {height : Nat}
    {rest : Tokens} (h : ∀ t ∈ rest.head?, tier.operator? t.val = none) :
    chainFrom tier.accepts p left height rest = (.ok left, rest) := by
  rw [chainFrom_eq]
  cases rest with
  | nil => rfl
  | cons t us =>
    have ht := h t rfl
    dsimp only
    split
    · rfl
    · rename_i op hop
      split
      · rename_i ha
        rw [Tier.operator?_eq_some_iff.2 ⟨hop, ha⟩] at ht
        simp at ht
      · rfl

/-- A chain takes an operator of its tier with the operand after it, and looks at the
height of the node that they make. -/
theorem chainFrom_cons {tier : Tier} {p : Parser Expr} {op : Operator} {t : Located Token}
    (hop : tier.operator? t.val = some op) (left : Expr) (us : Tokens) :
    chainFrom tier.accepts p left left.height (t :: us) =
      match p.run us with
      | (.error e, after) => (.error e, after)
      | (.ok right, after) =>
        let tree := Expr.binary op left right t.line
        if maxHeight < tree.height then (.error ⟨.tooDeep, t.line⟩, after)
        else chainFrom tier.accepts p tree tree.height after := by
  obtain ⟨ht, ha⟩ := Tier.operator?_eq_some_iff.1 hop
  exact chainFrom_height ht ha left us

/-- A chain goes on after an operator of its tier and an operand, if the node
they make is low enough. -/
theorem chainFrom_operator {tier : Tier} {p : Parser Expr} {left right : Expr} {op : Operator}
    {t : Located Token} {us rest : Tokens} (hop : tier.operator? t.val = some op)
    (hr : p.run us = (.ok right, rest))
    (hlow : (Expr.binary op left right t.line).height ≤ maxHeight) :
    chainFrom tier.accepts p left left.height (t :: us) =
      chainFrom tier.accepts p (.binary op left right t.line)
        (Expr.binary op left right t.line).height rest := by
  rw [chainFrom_cons hop, hr]
  exact if_neg (Nat.not_lt.2 hlow)

end Expr

namespace Tier

/-- At the end of an expression there is nothing to go on with. -/
theorem resume_eq_ok {tier : Tier} {room : Nat} {e : Expr} {rest : Tokens}
    (h : tier.Ends rest) : tier.resume room e rest = (.ok e, rest) := by
  rw [resume]
  split
  · exact Expr.chainFrom_eq_ok fun t hm => h t hm tier (Nat.le_refl _)
  · rfl

/-- The parser of a tier parses an operand and goes on from it. -/
theorem run_parser_of_operand {tier tighter : Tier} {room : Nat} {e : Expr} {ts rest : Tokens}
    (ht : tier.operand? = some tighter) (he : (tighter.parser room).run ts = (.ok e, rest)) :
    (tier.parser room).run ts = tier.resume room e rest := by
  have hchain : (Expr.chain tier.accepts (tighter.parser room)).run ts =
      Expr.chainFrom tier.accepts (tighter.parser room) e e.height rest := by
    simp only [Expr.chain, Parser.andThen, he]
  cases tier <;> simp [operand?] at ht <;> subst ht
  · exact hchain
  · exact hchain
  · exact hchain
  · have hstop : ∀ t ∈ rest.head?, Tier.unary.operator? t.val = none := fun t _ => rfl
    exact he.trans (Expr.chainFrom_eq_ok hstop).symm

end Tier

namespace Expr

/-- The parser of operands at any level is one level of signs and parentheses. -/
theorem exists_unary_eq (room : Nat) : ∃ deeper, unary room = unaryOf deeper := by
  cases room <;> exact ⟨_, rfl⟩

/-- A literal is parsed in any room. -/
theorem run_unary_literal {room : Nat} {t : Located Token} {v : Value} {rest : Tokens}
    (hv : t.val.literal? = some v) :
    (unary room).run (t :: rest) = (.ok (.literal v t.line), rest) := by
  obtain ⟨deeper, h⟩ := exists_unary_eq room
  obtain ⟨val, n⟩ := t
  rw [h]
  cases val <;> simp [Token.literal?] at hv <;> subst hv <;> rfl

/-- A name is parsed in any room. -/
theorem run_unary_name {room : Nat} {x : String} {n : Nat} {rest : Tokens} :
    (unary room).run (⟨.identifier x, n⟩ :: rest) = (.ok (.var x n), rest) := by
  obtain ⟨deeper, h⟩ := exists_unary_eq room
  rw [h]
  rfl

/-- A negation is parsed in one room more than what it negates. -/
theorem run_unary_negation {room n : Nat} {e : Expr} {ts rest : Tokens}
    (h : (unary room).run ts = (.ok e, rest)) :
    (unary (room + 1)).run (⟨.minus, n⟩ :: ts) = (.ok (.negate e n), rest) :=
  Parser.run_bind_eq_ok_iff.2 ⟨some ⟨.minus, n⟩, ts, rfl,
    Parser.run_bind_eq_ok_iff.2 ⟨e, rest, Parser.run_nested_eq_ok_iff.2 ⟨_, rfl, h⟩, rfl⟩⟩

/-- Parentheses are parsed in one room more than the expression in them. -/
theorem run_unary_group {room k m : Nat} {e : Expr} {ts rest : Tokens}
    (h : (parser room).run (ts ++ ⟨.rightParen, m⟩ :: rest) = (.ok e, ⟨.rightParen, m⟩ :: rest)) :
    (unary (room + 1)).run (parenthesized k m ts ++ rest) = (.ok e, rest) := by
  rw [parenthesized, List.cons_append, List.append_assoc, List.singleton_append]
  refine Parser.run_bind_eq_ok_iff.2 ⟨some ⟨.leftParen, k⟩, _, rfl, ?_⟩
  refine Parser.run_bind_eq_ok_iff.2 ⟨e, _, Parser.run_nested_eq_ok_iff.2 ⟨_, rfl, h⟩, ?_⟩
  exact Parser.run_bind_eq_ok_iff.2 ⟨m, rest, Parser.run_expect_eq_ok_iff.2 rfl, rfl⟩

/-- **After the tokens of a left part the parser goes on from that part.** -/
theorem Derives.run_eq_resume {tier : Tier} {d : Nat} {ts : Tokens} {e : Expr}
    (h : Derives tier d ts e) :
    ∀ (room : Nat) (rest : Tokens), d ≤ room → Low e.nodes →
      (∀ tighter, tier.operand? = some tighter → tighter.Ends rest) →
        (tier.parser room).run (ts ++ rest) = tier.resume room e rest := by
  induction h with
  | literal hv => exact fun _ _ _ _ _ => run_unary_literal hv
  | name x n => exact fun _ _ _ _ _ => run_unary_name
  | @group d ts e k m _ ih =>
    intro room rest hd hlow _
    obtain ⟨room, rfl⟩ : ∃ r, room = r + 1 := ⟨room - 1, by omega⟩
    have hends : Tier.comparison.Ends (⟨.rightParen, m⟩ :: rest) := Tier.ends_cons _ rfl
    have hrun := ih room _ (by omega) hlow fun _ ht => hends.operand ht
    rw [Tier.resume_eq_ok hends] at hrun
    exact run_unary_group hrun
  | @negation d ts e n _ ih =>
    intro room rest hd hlow hends
    obtain ⟨room, rfl⟩ : ∃ r, room = r + 1 := ⟨room - 1, by omega⟩
    have hunary : Tier.unary.Ends rest := by
      intro t ht tier' hle
      cases tier' <;> first
        | rfl
        | exact absurd hle (by decide)
    have hrun := ih room rest (by omega) (low_nodes_negate_iff.1 hlow) hends
    rw [Tier.resume_eq_ok hunary] at hrun
    rw [Tier.resume_eq_ok hunary]
    exact run_unary_negation hrun
  | @operand tier tighter d ts e ht _ ih =>
    intro room rest hd hlow hends
    have htighter := hends tighter ht
    have hrun := ih room rest hd hlow fun _ h => htighter.operand h
    rw [Tier.resume_eq_ok htighter] at hrun
    exact Tier.run_parser_of_operand ht hrun
  | @operator tier tighter d d' ts us l r op t ht hop _ _ ihl ihr =>
    intro room rest hd hlow hends
    obtain ⟨hllow, hrlow, hheight⟩ := low_nodes_binary_iff.1 hlow
    have htighter := hends tighter ht
    have hright := ihr room rest (by omega) hrlow fun _ h => htighter.operand h
    rw [Tier.resume_eq_ok htighter] at hright
    have hleft := ihl room (t :: (us ++ rest)) (by omega) hllow fun tighter' ht' => by
      obtain rfl := Option.some.inj (ht.symm.trans ht')
      exact Tier.ends_operator ht hop
    rw [List.append_assoc, List.cons_append, hleft, Tier.resume, Tier.resume, ht]
    exact chainFrom_operator hop hright hheight

/-- **What is derived, the parser of expressions accepts**, up to a token that
stands for no operator. -/
theorem Derives.run_parser {d room : Nat} {ts rest : Tokens} {t : Located Token} {e : Expr}
    (h : Derives .comparison d ts e) (hd : d ≤ room) (hlow : Low e.nodes)
    (ht : t.val.operator? = none) :
    (parser room).run (ts ++ t :: rest) = (.ok e, t :: rest) := by
  have hends : Tier.comparison.Ends (t :: rest) := Tier.ends_cons _ ht
  have hrun := h.run_eq_resume room _ hd hlow fun _ h' => hends.operand h'
  rwa [Tier.resume_eq_ok hends] at hrun

end Expr

namespace Stmt

/-- The parser of statements is built from expressions and blocks with the same
room. -/
theorem parser_eq (room : Nat) :
    parser room = statementOf (Expr.parser room) (blockParser room) := by
  cases room <;> rfl

/-- A condition is parsed in the room that its expression needs. -/
theorem run_conditionOf {d room k m : Nat} {ts rest : Tokens} {e : Expr}
    (h : Expr.Derives .comparison d ts e) (hd : d ≤ room) (hlow : Expr.Low e.nodes) :
    (conditionOf (Expr.parser room)).run (parenthesized k m ts ++ rest) = (.ok e, rest) := by
  have hrun : (Expr.parser room).run (ts ++ ⟨.rightParen, m⟩ :: rest) = _ :=
    h.run_parser hd hlow rfl
  rw [parenthesized, List.cons_append, List.append_assoc, List.singleton_append]
  refine Parser.run_bind_eq_ok_iff.2 ⟨k, _, Parser.run_expect_eq_ok_iff.2 rfl, ?_⟩
  refine Parser.run_bind_eq_ok_iff.2 ⟨e, _, hrun, ?_⟩
  exact Parser.run_bind_eq_ok_iff.2 ⟨m, rest, Parser.run_expect_eq_ok_iff.2 rfl, rfl⟩

/-- A body that ends after its first statement. -/
theorem bodyFrom_last {p : Parser Stmt} {ts rest : Tokens} {s : Stmt} {n : Nat}
    (h : (Parser.terminated p).run ts = (.ok s, ⟨.rightBrace, n⟩ :: rest)) :
    bodyFrom p ts = (.ok [s], rest) := by
  rw [bodyFrom_eq, h]
  exact if_pos rfl

/-- A body that goes on after its first statement. -/
theorem bodyFrom_next {p : Parser Stmt} {ts after rest : Tokens} {t : Located Token} {s : Stmt}
    {ss : List Stmt} (h : (Parser.terminated p).run ts = (.ok s, t :: after))
    (ht : t.val ≠ .rightBrace) (hss : bodyFrom p (t :: after) = (.ok ss, rest)) :
    bodyFrom p ts = (.ok (s :: ss), rest) := by
  simp only [bodyFrom_eq p ts, h, if_neg ht, hss]

end Stmt

namespace Phrase

/-- The expressions that occur in a phrase. -/
def nodes : Phrase → List Expr
  | .statement s | .block s => s.nodes
  | .statements ss => Stmt.nodesOf ss

/-- The parser of a phrase accepts these tokens as the phrase, whatever follows
what ends it. -/
def Parsed (room : Nat) (ts : Tokens) : Phrase → Prop
  | .statement s => ∀ n rest, (Stmt.parser room).run (ts ++ ⟨.semicolon, n⟩ :: rest) =
      (.ok s, ⟨.semicolon, n⟩ :: rest)
  | .block b => ∀ rest, (Stmt.blockParser room).run (ts ++ rest) = (.ok b, rest)
  | .statements ss => ss ≠ [] → ∀ n rest,
      Stmt.bodyFrom (Stmt.parser room) (ts ++ ⟨.rightBrace, n⟩ :: rest) = (.ok ss, rest)

end Phrase

namespace Derives

/-- No statement starts with a closing brace. -/
theorem exists_cons {d : Nat} {ts : Tokens} {s : Stmt} (h : Derives d ts (.statement s)) :
    ∃ t us, ts = t :: us ∧ t.val ≠ .rightBrace := by
  cases h <;> exact ⟨_, _, rfl, by simp⟩

/-- **What is derived, the parsers of statements and blocks accept.** -/
theorem parsed {d : Nat} {ts : Tokens} {f : Phrase} (h : Derives d ts f) :
    ∀ room : Nat, d ≤ room → Expr.Low f.nodes → f.Parsed room ts := by
  induction h with
  | print n k m he =>
    intro room hd hlow j rest
    rw [Stmt.parser_eq]
    refine Parser.run_bind_eq_ok_iff.2 ⟨_, _, rfl, ?_⟩
    exact Parser.run_bind_eq_ok_iff.2 ⟨_, _, Stmt.run_conditionOf he hd hlow, rfl⟩
  | assign x n k he =>
    intro room hd hlow j rest
    rw [Stmt.parser_eq]
    refine Parser.run_bind_eq_ok_iff.2 ⟨_, _, rfl, ?_⟩
    refine Parser.run_bind_eq_ok_iff.2 ⟨k, _, Parser.run_expect_eq_ok_iff.2 rfl, ?_⟩
    exact Parser.run_bind_eq_ok_iff.2 ⟨_, _, he.run_parser hd hlow rfl, rfl⟩
  | @ifThen d d₁ ts us c b n k m hc _ ih =>
    intro room hd hlow j rest
    obtain ⟨hclow, hblow⟩ := Expr.low_append_iff.1 hlow
    rw [Stmt.parser_eq, List.cons_append, List.append_assoc]
    refine Parser.run_bind_eq_ok_iff.2 ⟨_, _, rfl, ?_⟩
    refine Parser.run_bind_eq_ok_iff.2 ⟨c, _, Stmt.run_conditionOf hc (by omega) hclow, ?_⟩
    refine Parser.run_bind_eq_ok_iff.2 ⟨b, _, ih room (by omega) hblow _, ?_⟩
    exact Parser.run_bind_eq_ok_iff.2 ⟨_, _, rfl, rfl⟩
  | @ifElse d d₁ d₂ ts us vs c b b' n k m i hc _ _ ih ih' =>
    intro room hd hlow j rest
    obtain ⟨hclow, hlow⟩ := Expr.low_append_iff.1 hlow
    obtain ⟨hblow, hblow'⟩ := Expr.low_append_iff.1 hlow
    rw [Stmt.parser_eq, List.cons_append, List.append_assoc, List.append_assoc, List.cons_append]
    refine Parser.run_bind_eq_ok_iff.2 ⟨_, _, rfl, ?_⟩
    refine Parser.run_bind_eq_ok_iff.2 ⟨c, _, Stmt.run_conditionOf hc (by omega) hclow, ?_⟩
    refine Parser.run_bind_eq_ok_iff.2 ⟨b, _, ih room (by omega) hblow _, ?_⟩
    refine Parser.run_bind_eq_ok_iff.2 ⟨_, _, rfl, ?_⟩
    refine Parser.run_bind_eq_ok_iff.2 ⟨_, _, rfl, ?_⟩
    exact Parser.run_bind_eq_ok_iff.2 ⟨b', _, ih' room (by omega) hblow' _, rfl⟩
  | @loop d d₁ ts us c b n k m hc _ ih =>
    intro room hd hlow j rest
    obtain ⟨hclow, hblow⟩ := Expr.low_append_iff.1 hlow
    rw [Stmt.parser_eq, List.cons_append, List.append_assoc]
    refine Parser.run_bind_eq_ok_iff.2 ⟨_, _, rfl, ?_⟩
    refine Parser.run_bind_eq_ok_iff.2 ⟨c, _, Stmt.run_conditionOf hc (by omega) hclow, ?_⟩
    exact Parser.run_bind_eq_ok_iff.2 ⟨b, _, ih room (by omega) hblow _, rfl⟩
  | @block d ts ss n m hne _ ih =>
    intro room hd hlow rest
    obtain ⟨room, rfl⟩ : ∃ r, room = r + 1 := ⟨room - 1, by omega⟩
    have hbody := ih room (by omega) hlow hne m rest
    rw [braced, List.cons_append, List.append_assoc, List.singleton_append]
    refine Parser.run_bind_eq_ok_iff.2 ⟨n, _, Parser.run_expect_eq_ok_iff.2 rfl, ?_⟩
    refine Parser.run_bind_eq_ok_iff.2 ⟨ss, rest, ?_, rfl⟩
    exact Parser.run_nested_eq_ok_iff.2 ⟨_, rfl, hbody⟩
  | none => exact fun _ _ _ hne => absurd rfl hne
  | @next d d' ts us s ss n _ hss ih ihs =>
    intro room hd hlow _ m rest
    obtain ⟨hslow, hsslow⟩ := Expr.low_append_iff.1 hlow
    have hfirst : (Parser.terminated (Stmt.parser room)).run
        (ts ++ ⟨.semicolon, n⟩ :: (us ++ ⟨.rightBrace, m⟩ :: rest)) =
          (.ok s, us ++ ⟨.rightBrace, m⟩ :: rest) :=
      Parser.run_terminated_eq_ok_iff.2 ⟨n, ih room (by omega) hslow n _⟩
    rw [List.append_assoc, List.cons_append]
    cases hss with
    | none => exact Stmt.bodyFrom_last hfirst
    | next k hs' hss' =>
      have hrest := ihs room (by omega) hsslow (by simp) m rest
      obtain ⟨t, vs, rfl, ht⟩ := hs'.exists_cons
      exact Stmt.bodyFrom_next hfirst ht hrest

end Derives
end FlatScript
