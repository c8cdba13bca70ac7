/-
# What the parsers accept is derived

A parser that succeeds has consumed tokens that derive its result.  The nesting
of the derivation fits into the room that the parser had, and every binary node
of the result is low enough.  Nothing is said here of which tokens it accepts:
that is the other direction, `FlatScript.Proofs.Grammar.Completeness`.
-/

import FlatScript.Proofs.Grammar.Basic
import FlatScript.Proofs.Nodes
import FlatScript.Stmt.Parser

namespace FlatScript

namespace Tier

/-- The operators that the chains of a tier are made of. -/
def accepts : Tier → Operator → Bool
  | .comparison => Operator.isComparison
  | .additive => Expr.isTerm
  | .multiplicative => Expr.isFactor
  | .unary | .primary => fun _ => false

/-- A token stands for an operator of a tier exactly when it stands for an
operator that the tier's chains accept. -/
theorem operator?_eq_some_iff {tier : Tier} {t : Token} {op : Operator} :
    tier.operator? t = some op ↔ t.operator? = some op ∧ tier.accepts op = true := by
  constructor
  · intro h
    cases tier <;> cases t <;> simp [operator?] at h <;> subst h <;> exact ⟨rfl, rfl⟩
  · rintro ⟨ht, ha⟩
    cases tier <;> cases t <;> simp [Token.operator?] at ht <;> subst ht <;> first
      | rfl
      | exact absurd ha Bool.false_ne_true

end Tier

namespace Expr

/-- Every binary node among the expressions is low enough. -/
def Low (es : List Expr) : Prop :=
  ∀ e ∈ es, e.isBinary = true → e.height ≤ maxHeight

theorem low_append_iff {es fs : List Expr} : Low (es ++ fs) ↔ Low es ∧ Low fs := by
  simp [Low, or_imp, forall_and]

theorem low_nodes_literal (v : Value) (n : Nat) : Low (Expr.literal v n).nodes := by
  simp [Low, nodes, isBinary]

theorem low_nodes_var (x : String) (n : Nat) : Low (Expr.var x n).nodes := by
  simp [Low, nodes, isBinary]

/-- A negation has no binary node but those of its operand, however tall it is. -/
theorem low_nodes_negate_iff {e : Expr} {n : Nat} :
    Low (Expr.negate e n).nodes ↔ Low e.nodes := by
  simp [Low, nodes, isBinary, or_imp, forall_and]

/-- A binary expression is low when its operands are and it is not too tall itself. -/
theorem low_nodes_binary_iff {op : Operator} {l r : Expr} {n : Nat} :
    Low (Expr.binary op l r n).nodes ↔
      Low l.nodes ∧ Low r.nodes ∧ (Expr.binary op l r n).height ≤ maxHeight := by
  simp [Low, nodes, isBinary, or_imp, forall_and]

/-- What a parser of expressions accepts is derived in the tier, within the room
and within the height. -/
def Sound (tier : Tier) (room : Nat) (p : Parser Expr) : Prop :=
  ∀ ⦃ts rest : Tokens⦄ ⦃e : Expr⦄, p.run ts = (.ok e, rest) →
    ∃ d us, d ≤ room ∧ ts = us ++ rest ∧ Derives tier d us e ∧ Low e.nodes

/-- A chain goes on from a derived left part to a derived whole. -/
theorem chainFrom_sound {tier tighter : Tier} {room : Nat} {p : Parser Expr}
    (ht : tier.operand? = some tighter) (hp : Sound tighter room p) {left e : Expr}
    {ts us rest : Tokens} {d : Nat} (hd : d ≤ room) (hl : Derives tier d us left)
    (hlow : Low left.nodes) (h : chainFrom tier.accepts p left left.height ts = (.ok e, rest)) :
    ∃ d' vs, d' ≤ room ∧ ts = vs ++ rest ∧ Derives tier d' (us ++ vs) e ∧ Low e.nodes := by
  -- The count is the height of the left part, here and for every left part to come.
  generalize hheight : left.height = height at h
  fun_induction chainFrom tier.accepts p left height ts generalizing us d with
  | case1 left height =>
    obtain ⟨rfl, rfl⟩ : left = e ∧ [] = rest := by simpa using h
    exact ⟨d, [], hd, rfl, by rwa [List.append_nil], hlow⟩
  | case2 left height t after hop =>
    obtain ⟨rfl, rfl⟩ : left = e ∧ t :: after = rest := by simpa using h
    exact ⟨d, [], hd, rfl, by rwa [List.append_nil], hlow⟩
  | case3 => simp at h
  | case4 => simp at h
  | case5 left height t after op hop ha right remaining hr taller hh =>
    rename_i ih
    subst hheight
    obtain ⟨d₁, ws, hd₁, rfl, hright, hrlow⟩ := hp hr
    have htree : Derives tier (max d d₁) (us ++ t :: ws) (.binary op left right t.line) :=
      .operator ht (Tier.operator?_eq_some_iff.2 ⟨hop, ha⟩) hl hright
    have htreelow : Low (Expr.binary op left right t.line).nodes :=
      low_nodes_binary_iff.2 ⟨hlow, hrlow, Nat.le_of_not_lt hh⟩
    obtain ⟨d₂, vs, hd₂, rfl, he, helow⟩ := ih (by omega) htree htreelow rfl h
    refine ⟨d₂, t :: (ws ++ vs), hd₂, by simp, ?_, helow⟩
    simpa using he
  | case6 left height t after op hop ha =>
    obtain ⟨rfl, rfl⟩ : left = e ∧ t :: after = rest := by simpa using h
    exact ⟨d, [], hd, rfl, by rwa [List.append_nil], hlow⟩

/-- A chain of sound operands is sound for the tier of its operators. -/
theorem chain_sound (tier : Tier) {tighter : Tier} {room : Nat} {p : Parser Expr}
    (ht : tier.operand? = some tighter) (hp : Sound tighter room p) :
    Sound tier room (chain tier.accepts p) := by
  intro ts rest e h
  obtain ⟨left, middle, hl, hc⟩ := Parser.run_bind_eq_ok_iff.1 h
  obtain ⟨d, us, hd, rfl, hleft, hlow⟩ := hp hl
  obtain ⟨d', vs, hd', rfl, he, helow⟩ := chainFrom_sound ht hp hd (.operand ht hleft) hlow hc
  exact ⟨d', us ++ vs, hd', by simp, he, helow⟩

/-- Three chains lead from the operands of products to comparisons. -/
theorem comparisonsOf_sound {room : Nat} {p : Parser Expr} (hp : Sound .unary room p) :
    Sound .comparison room (comparisonsOf p) :=
  chain_sound .comparison rfl (chain_sound .additive rfl (chain_sound .multiplicative rfl hp))

/-- A leaf is derived from its one token. -/
theorem leaf_sound {room : Nat} {t : Located Token} {ts rest : Tokens} {a e : Expr}
    (ha : Derives .primary 0 [t] a) (hlow : Low a.nodes)
    (h : (pure a : Parser Expr).run ts = (.ok e, rest)) :
    ∃ d us, d ≤ room ∧ t :: ts = us ++ rest ∧ Derives .unary d us e ∧ Low e.nodes := by
  obtain ⟨rfl, rfl⟩ : a = e ∧ ts = rest := by simpa using h
  exact ⟨0, [t], Nat.zero_le _, rfl, .operand rfl ha, hlow⟩

/-- One level of signs and parentheses, over whatever is parsed one level
further in. -/
theorem unaryOf_sound {room : Nat} {deeper : Option (Parser Expr)}
    (hdeeper : ∀ p, deeper = some p → ∃ r, room = r + 1 ∧ Sound .unary r p) :
    Sound .unary room (unaryOf deeper) := by
  intro ts rest e h
  obtain ⟨found, middle, hnext, h⟩ := Parser.run_bind_eq_ok_iff.1 h
  obtain ⟨rfl, rfl⟩ : ts.head? = found ∧ ts.tail = middle := by simpa [Parser.next?] using hnext
  split at h
  · rename_i n hhead
    obtain ⟨us, rfl⟩ := List.head?_eq_some_iff.1 hhead
    obtain ⟨a, after, hnested, hpure⟩ := Parser.run_bind_eq_ok_iff.1 h
    obtain ⟨p, rfl, hrun⟩ := Parser.run_nested_eq_ok_iff.1 hnested
    obtain ⟨r, rfl, hp⟩ := hdeeper p rfl
    obtain ⟨d, vs, hd, hus, ha, hlow⟩ := hp hrun
    obtain ⟨rfl, rfl⟩ : a.negate n = e ∧ after = rest := by simpa using hpure
    rw [List.tail_cons] at hus
    exact ⟨d + 1, ⟨.minus, n⟩ :: vs, by omega, by rw [hus, List.cons_append], .negation n ha,
      low_nodes_negate_iff.2 hlow⟩
  · rename_i n hhead
    obtain ⟨us, rfl⟩ := List.head?_eq_some_iff.1 hhead
    obtain ⟨a, after, hnested, h⟩ := Parser.run_bind_eq_ok_iff.1 h
    obtain ⟨m, last, hclose, hpure⟩ := Parser.run_bind_eq_ok_iff.1 h
    obtain ⟨q, hq, hrun⟩ := Parser.run_nested_eq_ok_iff.1 hnested
    obtain ⟨p, rfl, rfl⟩ := Option.map_eq_some_iff.1 hq
    obtain ⟨r, rfl, hp⟩ := hdeeper p rfl
    obtain ⟨d, vs, hd, hus, ha, hlow⟩ := comparisonsOf_sound hp hrun
    obtain rfl := Parser.run_expect_eq_ok_iff.1 hclose
    obtain ⟨rfl, rfl⟩ : a = e ∧ last = rest := by simpa using hpure
    rw [List.tail_cons] at hus
    exact ⟨d + 1, parenthesized n m vs, by omega, by simp [parenthesized, hus],
      .operand rfl (.group n m ha), hlow⟩
  · rename_i k n hhead
    obtain ⟨us, rfl⟩ := List.head?_eq_some_iff.1 hhead
    exact leaf_sound (.literal rfl) (low_nodes_literal _ _) h
  · rename_i x n hhead
    obtain ⟨us, rfl⟩ := List.head?_eq_some_iff.1 hhead
    exact leaf_sound (.literal rfl) (low_nodes_literal _ _) h
  · rename_i b n hhead
    obtain ⟨us, rfl⟩ := List.head?_eq_some_iff.1 hhead
    exact leaf_sound (.literal rfl) (low_nodes_literal _ _) h
  · rename_i s n hhead
    obtain ⟨us, rfl⟩ := List.head?_eq_some_iff.1 hhead
    exact leaf_sound (.literal rfl) (low_nodes_literal _ _) h
  · rename_i name n hhead
    obtain ⟨us, rfl⟩ := List.head?_eq_some_iff.1 hhead
    exact leaf_sound (.name name n) (low_nodes_var _ _) h
  · simp at h

/-- Operands are sound, in every room. -/
theorem unary_sound : ∀ room : Nat, Sound .unary room (unary room)
  | 0 => unaryOf_sound (by simp)
  | room + 1 => unaryOf_sound fun _ hp => ⟨room, rfl, Option.some.inj hp ▸ unary_sound room⟩

/-- **What the parser of expressions accepts is derived.** -/
theorem parser_sound (room : Nat) : Sound .comparison room (parser room) :=
  comparisonsOf_sound (unary_sound room)

end Expr

namespace Stmt

/-- What a parser of statements or blocks accepts is derived, within the room and
within the height. -/
def Sound (phrase : Stmt → Phrase) (room : Nat) (p : Parser Stmt) : Prop :=
  ∀ ⦃ts rest : Tokens⦄ ⦃s : Stmt⦄, p.run ts = (.ok s, rest) →
    ∃ d us, d ≤ room ∧ ts = us ++ rest ∧ Derives d us (phrase s) ∧ Expr.Low s.nodes

/-- The statements of a body are derived, and a closing brace stands after them. -/
theorem bodyFrom_sound {room : Nat} {p : Parser Stmt} (hp : Sound .statement room p)
    {ts rest : Tokens} {ss : List Stmt} (h : bodyFrom p ts = (.ok ss, rest)) :
    ∃ d us m, d ≤ room ∧ ts = us ++ ⟨.rightBrace, m⟩ :: rest ∧ ss ≠ [] ∧
      Derives d us (.statements ss) ∧ Expr.Low (nodesOf ss) := by
  fun_induction bodyFrom p ts generalizing ss rest with
  | case1 => simp at h
  | case2 => simp at h
  | case3 ts s t after hs hbrace =>
    obtain ⟨rfl, rfl⟩ : [s] = ss ∧ after = rest := by simpa using h
    obtain ⟨n, hrun⟩ := Parser.run_terminated_eq_ok_iff.1 hs
    obtain ⟨d, us, hd, rfl, hder, hlow⟩ := hp hrun
    obtain ⟨val, m⟩ := t
    obtain rfl : val = .rightBrace := hbrace
    refine ⟨max d 0, us ++ [⟨.semicolon, n⟩], m, by omega, by simp, by simp, .next n hder .none, ?_⟩
    simpa [nodesOf] using hlow
  | case4 ts s t after hs hbrace ss' rest' hrest ih =>
    obtain ⟨rfl, rfl⟩ : s :: ss' = ss ∧ rest' = rest := by simpa using h
    obtain ⟨n, hrun⟩ := Parser.run_terminated_eq_ok_iff.1 hs
    obtain ⟨d, us, hd, rfl, hder, hlow⟩ := hp hrun
    obtain ⟨d', vs, m, hd', hvs, hne, hders, hlows⟩ := ih hrest
    refine ⟨max d d', us ++ ⟨.semicolon, n⟩ :: vs, m, by omega, ?_, by simp, .next n hder hders,
      Expr.low_append_iff.2 ⟨hlow, hlows⟩⟩
    rw [hvs, List.append_assoc, List.cons_append]
  | case5 => simp at h

/-- One level of blocks, over whatever is parsed one level further in. -/
theorem blockOf_sound {room : Nat} {deeper : Option (Parser Stmt)}
    (hdeeper : ∀ p, deeper = some p → ∃ r, room = r + 1 ∧ Sound .statement r p) :
    Sound .block room (blockOf deeper) := by
  intro ts rest s h
  obtain ⟨n, middle, hopen, h⟩ := Parser.run_bind_eq_ok_iff.1 h
  obtain ⟨ss, after, hnested, hpure⟩ := Parser.run_bind_eq_ok_iff.1 h
  obtain rfl := Parser.run_expect_eq_ok_iff.1 hopen
  obtain ⟨q, hq, hrun⟩ := Parser.run_nested_eq_ok_iff.1 hnested
  obtain ⟨p, rfl, rfl⟩ := Option.map_eq_some_iff.1 hq
  obtain ⟨r, rfl, hp⟩ := hdeeper p rfl
  obtain ⟨d, us, m, hd, rfl, hne, hders, hlows⟩ := bodyFrom_sound hp hrun
  obtain ⟨rfl, rfl⟩ : Stmt.block ss n = s ∧ after = rest := by simpa using hpure
  exact ⟨d + 1, braced n m us, by omega, by simp [braced], .block n m hne hders, hlows⟩

/-- An expression in parentheses is derived between them. -/
theorem conditionOf_sound {room : Nat} {ts rest : Tokens} {e : Expr}
    (h : (conditionOf (Expr.parser room)).run ts = (.ok e, rest)) :
    ∃ d us k m, d ≤ room ∧ ts = parenthesized k m us ++ rest ∧
      Expr.Derives .comparison d us e ∧ Expr.Low e.nodes := by
  obtain ⟨k, middle, hopen, h⟩ := Parser.run_bind_eq_ok_iff.1 h
  obtain ⟨a, after, hrun, h⟩ := Parser.run_bind_eq_ok_iff.1 h
  obtain ⟨m, last, hclose, hpure⟩ := Parser.run_bind_eq_ok_iff.1 h
  obtain rfl := Parser.run_expect_eq_ok_iff.1 hopen
  obtain ⟨d, us, hd, rfl, he, hlow⟩ := Expr.parser_sound room hrun
  obtain rfl := Parser.run_expect_eq_ok_iff.1 hclose
  obtain ⟨rfl, rfl⟩ : a = e ∧ last = rest := by simpa using hpure
  exact ⟨d, us, k, m, hd, by simp [parenthesized], he, hlow⟩

/-- The four kinds of statements, over expressions and blocks. -/
theorem statementOf_sound {room : Nat} {block : Parser Stmt} (hblock : Sound .block room block) :
    Sound .statement room (statementOf (Expr.parser room) block) := by
  intro ts rest s h
  obtain ⟨found, middle, hnext, h⟩ := Parser.run_bind_eq_ok_iff.1 h
  obtain ⟨rfl, rfl⟩ : ts.head? = found ∧ ts.tail = middle := by simpa [Parser.next?] using hnext
  split at h
  · rename_i n hhead
    obtain ⟨us, rfl⟩ := List.head?_eq_some_iff.1 hhead
    obtain ⟨e, after, hrun, hpure⟩ := Parser.run_bind_eq_ok_iff.1 h
    obtain ⟨d, vs, k, m, hd, hus, he, hlow⟩ := conditionOf_sound hrun
    obtain ⟨rfl, rfl⟩ : Stmt.print e n = s ∧ after = rest := by simpa using hpure
    rw [List.tail_cons] at hus
    exact ⟨d, _, hd, by rw [hus, List.cons_append], .print n k m he, hlow⟩
  · rename_i x n hhead
    obtain ⟨us, rfl⟩ := List.head?_eq_some_iff.1 hhead
    obtain ⟨k, middle, hequals, h⟩ := Parser.run_bind_eq_ok_iff.1 h
    have hus := Parser.run_expect_eq_ok_iff.1 hequals
    obtain ⟨e, after, hrun, hpure⟩ := Parser.run_bind_eq_ok_iff.1 h
    obtain ⟨d, vs, hd, rfl, he, hlow⟩ := Expr.parser_sound room hrun
    obtain ⟨rfl, rfl⟩ : Stmt.assign x e n = s ∧ after = rest := by simpa using hpure
    rw [List.tail_cons] at hus
    exact ⟨d, _, hd, by rw [hus, List.cons_append, List.cons_append], .assign x n k he, hlow⟩
  · rename_i n hhead
    obtain ⟨us, rfl⟩ := List.head?_eq_some_iff.1 hhead
    obtain ⟨c, after, hrun, h⟩ := Parser.run_bind_eq_ok_iff.1 h
    obtain ⟨b, after', hb, h⟩ := Parser.run_bind_eq_ok_iff.1 h
    obtain ⟨next, middle, hpeek, h⟩ := Parser.run_bind_eq_ok_iff.1 h
    obtain ⟨d, vs, k, m, hd, hus, hc, hlow⟩ := conditionOf_sound hrun
    obtain ⟨d₁, ws, hd₁, rfl, hder, hblow⟩ := hblock hb
    obtain ⟨rfl, rfl⟩ : after'.head? = next ∧ after' = middle := by simpa [Parser.peek?] using hpeek
    rw [List.tail_cons] at hus
    split at h
    · rename_i j helse
      obtain ⟨xs, rfl⟩ := List.head?_eq_some_iff.1 helse
      obtain ⟨word, middle, hword, h⟩ := Parser.run_bind_eq_ok_iff.1 h
      obtain ⟨-, rfl⟩ : _ ∧ xs = middle := by simpa [Parser.next?] using hword
      obtain ⟨b', last, hb', hpure⟩ := Parser.run_bind_eq_ok_iff.1 h
      obtain ⟨d₂, ys, hd₂, rfl, hder', hblow'⟩ := hblock hb'
      obtain ⟨rfl, rfl⟩ : Stmt.ifElse c b b' n = s ∧ last = rest := by simpa using hpure
      refine ⟨max d (max d₁ d₂), _, by omega, ?_, .ifElse n k m j hc hder hder',
        Expr.low_append_iff.2 ⟨hlow, Expr.low_append_iff.2 ⟨hblow, hblow'⟩⟩⟩
      simp [hus]
    · obtain ⟨rfl, rfl⟩ : Stmt.ifThen c b n = s ∧ after' = rest := by simpa using h
      refine ⟨max d d₁, _, by omega, ?_, .ifThen n k m hc hder,
        Expr.low_append_iff.2 ⟨hlow, hblow⟩⟩
      simp [hus]
  · rename_i n hhead
    obtain ⟨us, rfl⟩ := List.head?_eq_some_iff.1 hhead
    obtain ⟨c, after, hrun, h⟩ := Parser.run_bind_eq_ok_iff.1 h
    obtain ⟨d, vs, k, m, hd, hus, hc, hlow⟩ := conditionOf_sound hrun
    obtain ⟨b, last, hb, hpure⟩ := Parser.run_bind_eq_ok_iff.1 h
    obtain ⟨d₁, ws, hd₁, rfl, hder, hblow⟩ := hblock hb
    obtain ⟨rfl, rfl⟩ : Stmt.loop c b n = s ∧ last = rest := by simpa using hpure
    rw [List.tail_cons] at hus
    refine ⟨max d d₁, _, by omega, ?_, .loop n k m hc hder,
      Expr.low_append_iff.2 ⟨hlow, hblow⟩⟩
    simp [hus]
  · simp at h

/-- **What the parser of statements accepts is derived.** -/
theorem parser_sound : ∀ room : Nat, Sound .statement room (parser room)
  | 0 => statementOf_sound (blockOf_sound (by simp))
  | room + 1 => statementOf_sound
      (blockOf_sound fun _ hp => ⟨room, rfl, Option.some.inj hp ▸ parser_sound room⟩)

end Stmt
end FlatScript
