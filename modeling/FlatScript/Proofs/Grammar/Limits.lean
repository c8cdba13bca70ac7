/-
# What the limits refuse, and what they let through

Tokens that the grammar derives are a program, unless the derivation nests too
deeply or a binary node is too tall.  Then they are refused as too deep, and with
no other error (`Program.parse_eq_tooDeep_iff`): everything before the place where
a limit is passed parses as it does within the limits.

The limit on heights is checked only where an operator joins two operands.  A
negation is never checked, so it may be taller than `maxHeight`, by as many nodes
as there are signs in front of it.  The limit on nesting keeps that in bounds: the
signs and the parentheses that they need around a tall operand are at most
`maxNesting` levels together.  So an accepted expression is at most 1087 nodes
tall (`Program.height_limit`), and each height from 1024 to 1087 is reached
(`Program.parse_tall`, `Program.exists_height_tall`).
-/

import FlatScript.Proofs.Grammar.Program

namespace FlatScript

namespace Parser

variable {α β : Type} {p : Parser α} {f : α → Parser β} {ts middle : Tokens} {a : α}

/-- The parser refuses the tokens as too deep. -/
def Refuses (p : Parser α) (ts : Tokens) : Prop :=
  ∃ n after, p.run ts = (.error ⟨.tooDeep, n⟩, after)

/-- A sequence is refused when its first part is. -/
theorem Refuses.bind (h : p.Refuses ts) : (p >>= f).Refuses ts := by
  obtain ⟨n, after, h⟩ := h
  exact ⟨n, after, by rw [run_bind, h]⟩

/-- A sequence is refused when its second part is, on the tokens that the first
leaves. -/
theorem Refuses.bind_of_run (hp : p.run ts = (.ok a, middle)) (hf : (f a).Refuses middle) :
    (p >>= f).Refuses ts := by
  obtain ⟨n, after, hf⟩ := hf
  exact ⟨n, after, by rw [run_bind, hp]; exact hf⟩

end Parser

namespace Expr

/-- The number of negations on top of an expression. -/
def negations : Expr → Nat
  | .negate e _ => e.negations + 1
  | _ => 0

/-- The parser of a tier refuses what the parser of its operands refuses. -/
theorem refuses_of_operand {tier tighter : Tier} {room : Nat} {ts : Tokens}
    (ht : tier.operand? = some tighter) (h : (tighter.parser room).Refuses ts) :
    (tier.parser room).Refuses ts := by
  cases tier <;> simp [Tier.operand?] at ht <;> subst ht
  · exact h.bind
  · exact h.bind
  · exact h.bind
  · exact h

/-- **An expression past a limit is refused as too deep**, when the tokens after
it do not go on with its last operand. -/
theorem Derives.refuses {tier : Tier} {d : Nat} {ts : Tokens} {e : Expr}
    (h : Derives tier d ts e) :
    ∀ (room : Nat) (rest : Tokens), ¬ (d ≤ room ∧ Low e.nodes) →
      (∀ tighter, tier.operand? = some tighter → tighter.Ends rest) →
        (tier.parser room).Refuses (ts ++ rest) := by
  induction h with
  | literal => exact fun room _ hno _ => absurd ⟨Nat.zero_le room, low_nodes_literal _ _⟩ hno
  | name => exact fun room _ hno _ => absurd ⟨Nat.zero_le room, low_nodes_var _ _⟩ hno
  | @group d ts e k m _ ih =>
    intro room rest hno _
    cases room with
    | zero => exact ⟨k, _, rfl⟩
    | succ room =>
      have hends : Tier.comparison.Ends (⟨.rightParen, m⟩ :: rest) := Tier.ends_cons _ rfl
      have hinner := ih room _ (fun h => hno ⟨by omega, h.2⟩) fun _ ht => hends.operand ht
      rw [parenthesized, List.cons_append, List.append_assoc, List.singleton_append]
      exact .bind_of_run rfl hinner.bind
  | @negation d ts e n _ ih =>
    intro room rest hno hends
    cases room with
    | zero => exact ⟨n, _, rfl⟩
    | succ room =>
      have hinner := ih room rest (fun h => hno ⟨by omega, low_nodes_negate_iff.2 h.2⟩) hends
      exact .bind_of_run rfl hinner.bind
  | @operand tier tighter d ts e ht _ ih =>
    intro room rest hno hends
    exact refuses_of_operand ht (ih room rest hno fun _ h => (hends tighter ht).operand h)
  | @operator tier tighter d d' ts us l r op t ht hop hl hr ihl ihr =>
    intro room rest hno hends
    have hrest := hends tighter ht
    have hmiddle : ∀ tighter', tier.operand? = some tighter' →
        tighter'.Ends (t :: (us ++ rest)) := by
      intro tighter' ht'
      obtain rfl := Option.some.inj (ht.symm.trans ht')
      exact Tier.ends_operator ht hop
    rw [List.append_assoc, List.cons_append]
    -- The left part, the right part or the node that they make is past the limit.
    by_cases hleft : d ≤ room ∧ Low l.nodes
    · have hresume : (tier.parser room).run (ts ++ t :: (us ++ rest)) =
          chainFrom tier.accepts (tighter.parser room) l l.height (t :: (us ++ rest)) := by
        rw [hl.run_eq_resume room _ hleft.1 hleft.2 hmiddle, Tier.resume, ht]
      by_cases hright : d' ≤ room ∧ Low r.nodes
      · have hrun := hr.run_eq_resume room rest hright.1 hright.2 fun _ h => hrest.operand h
        rw [Tier.resume_eq_ok hrest] at hrun
        have htall : maxHeight < (Expr.binary op l r t.line).height := by
          refine Nat.lt_of_not_le fun hle => hno ⟨Nat.max_le.2 ⟨hleft.1, hright.1⟩, ?_⟩
          exact low_nodes_binary_iff.2 ⟨hleft.2, hright.2, hle⟩
        refine ⟨t.line, rest, ?_⟩
        rw [hresume, chainFrom_cons hop, hrun]
        exact if_pos htall
      · obtain ⟨n, after, hrun⟩ := ihr room rest hright fun _ h => hrest.operand h
        refine ⟨n, after, ?_⟩
        rw [hresume, chainFrom_cons hop, hrun]
    · exact ihl room _ hleft hmiddle

/-- An expression past a limit is refused, in front of a token that is no operator. -/
theorem Derives.refuses_parser {d room : Nat} {ts rest : Tokens} {t : Located Token} {e : Expr}
    (h : Derives .comparison d ts e) (hno : ¬ (d ≤ room ∧ Low e.nodes))
    (ht : t.val.operator? = none) : (parser room).Refuses (ts ++ t :: rest) := by
  have hends : Tier.comparison.Ends (t :: rest) := Tier.ends_cons _ ht
  exact h.refuses room _ hno fun _ h' => hends.operand h'

/-- Of two parts that are past a limit together, the second is if the first is
not. -/
theorem not_fits_right {d d' room : Nat} {es fs : List Expr}
    (h : ¬ (max d d' ≤ room ∧ Low (es ++ fs))) (hfits : d ≤ room ∧ Low es) :
    ¬ (d' ≤ room ∧ Low fs) :=
  fun h' => h ⟨Nat.max_le.2 ⟨hfits.1, h'.1⟩, low_append_iff.2 ⟨hfits.2, h'.2⟩⟩

end Expr

namespace Stmt

/-- A condition past a limit is refused. -/
theorem refuses_conditionOf {d room k m : Nat} {ts rest : Tokens} {e : Expr}
    (h : Expr.Derives .comparison d ts e) (hno : ¬ (d ≤ room ∧ Expr.Low e.nodes)) :
    (conditionOf (Expr.parser room)).Refuses (parenthesized k m ts ++ rest) := by
  rw [parenthesized, List.cons_append, List.append_assoc, List.singleton_append]
  refine .bind_of_run (Parser.run_expect_eq_ok_iff.2 rfl) ?_
  exact (h.refuses_parser hno rfl).bind

/-- A condition and what stands after it, past a limit together, are refused: if the
condition fits, what stands after it is past the limit. -/
theorem refuses_after_condition {α : Type} {f : Expr → Parser α} {d d' room k m : Nat}
    {ts rest : Tokens} {c : Expr} {es : List Expr} (hc : Expr.Derives .comparison d ts c)
    (hno : ¬ (max d d' ≤ room ∧ Expr.Low (c.nodes ++ es)))
    (hlater : ¬ (d' ≤ room ∧ Expr.Low es) → (f c).Refuses rest) :
    (conditionOf (Expr.parser room) >>= f).Refuses (parenthesized k m ts ++ rest) := by
  by_cases hfits : d ≤ room ∧ Expr.Low c.nodes
  · refine .bind_of_run (run_conditionOf hc hfits.1 hfits.2) ?_
    exact hlater (Expr.not_fits_right hno hfits)
  · exact (refuses_conditionOf hc hfits).bind

/-- The statements of a body are refused when its first statement is. -/
theorem refuses_body_first {p : Parser Stmt} {ts : Tokens}
    (h : (Parser.terminated p).Refuses ts) : (body p).Refuses ts := by
  obtain ⟨n, after, h⟩ := h
  have hbody : bodyFrom p ts = (.error ⟨.tooDeep, n⟩, after) := by rw [bodyFrom_eq, h]
  exact ⟨n, after, hbody⟩

/-- The statements of a body are refused when those after its first are. -/
theorem refuses_body_next {p : Parser Stmt} {ts after : Tokens} {t : Located Token} {s : Stmt}
    (h : (Parser.terminated p).run ts = (.ok s, t :: after)) (ht : t.val ≠ .rightBrace)
    (hrest : (body p).Refuses (t :: after)) : (body p).Refuses ts := by
  obtain ⟨n, left, hrest⟩ := hrest
  have hlater : bodyFrom p (t :: after) = (.error ⟨.tooDeep, n⟩, left) := hrest
  have hbody : bodyFrom p ts = (.error ⟨.tooDeep, n⟩, left) := by
    simp only [bodyFrom_eq p ts, h, if_neg ht, hlater]
  exact ⟨n, left, hbody⟩

end Stmt

namespace Phrase

/-- The parser of a phrase refuses these tokens as too deep, whatever follows what
ends it. -/
def Refused (room : Nat) (ts : Tokens) : Phrase → Prop
  | .statement _ => ∀ n rest, (Stmt.parser room).Refuses (ts ++ ⟨.semicolon, n⟩ :: rest)
  | .block _ => ∀ rest, (Stmt.blockParser room).Refuses (ts ++ rest)
  | .statements _ => ∀ n rest,
      (Stmt.body (Stmt.parser room)).Refuses (ts ++ ⟨.rightBrace, n⟩ :: rest)

end Phrase

namespace Derives

/-- **A phrase past a limit is refused as too deep.** -/
theorem refused {d : Nat} {ts : Tokens} {f : Phrase} (h : Derives d ts f) :
    ∀ room : Nat, ¬ (d ≤ room ∧ Expr.Low f.nodes) → f.Refused room ts := by
  induction h with
  | print n k m he =>
    intro room hno j rest
    rw [Stmt.parser_eq]
    exact .bind_of_run rfl (Stmt.refuses_conditionOf he hno).bind
  | assign x n k he =>
    intro room hno j rest
    rw [Stmt.parser_eq]
    refine .bind_of_run rfl (.bind_of_run (Parser.run_expect_eq_ok_iff.2 rfl) ?_)
    exact (he.refuses_parser hno rfl).bind
  | ifThen n k m hc _ ih =>
    intro room hno j rest
    rw [Stmt.parser_eq, List.cons_append, List.append_assoc]
    refine .bind_of_run rfl (Stmt.refuses_after_condition hc hno fun hblock => ?_)
    exact (ih room hblock _).bind
  | @ifElse d d₁ d₂ ts us vs c b b' n k m i hc hb _ ih ih' =>
    intro room hno j rest
    rw [Stmt.parser_eq, List.cons_append, List.append_assoc, List.append_assoc, List.cons_append]
    refine .bind_of_run rfl (Stmt.refuses_after_condition hc hno fun hblocks => ?_)
    by_cases hfits : d₁ ≤ room ∧ Expr.Low b.nodes
    · refine .bind_of_run (hb.parsed room hfits.1 hfits.2 _) ?_
      refine .bind_of_run rfl (.bind_of_run rfl ?_)
      exact (ih' room (Expr.not_fits_right hblocks hfits) _).bind
    · exact (ih room hfits _).bind
  | loop n k m hc _ ih =>
    intro room hno j rest
    rw [Stmt.parser_eq, List.cons_append, List.append_assoc]
    refine .bind_of_run rfl (Stmt.refuses_after_condition hc hno fun hblock => ?_)
    exact (ih room hblock _).bind
  | @block d ts ss n m hne _ ih =>
    intro room hno rest
    rw [braced, List.cons_append, List.append_assoc, List.singleton_append]
    cases room with
    | zero => exact ⟨n, _, rfl⟩
    | succ room =>
      have hbody := ih room (fun h => hno ⟨by omega, h.2⟩) m rest
      exact .bind_of_run (Parser.run_expect_eq_ok_iff.2 rfl) hbody.bind
  | none => exact fun room hno => absurd ⟨Nat.zero_le room, List.forall_mem_nil _⟩ hno
  | @next d d' ts us s ss n hs hss ih ihs =>
    intro room hno m rest
    rw [List.append_assoc, List.cons_append]
    by_cases hfits : d ≤ room ∧ Expr.Low s.nodes
    · have hlater := Expr.not_fits_right hno hfits
      have hfirst : (Parser.terminated (Stmt.parser room)).run
          (ts ++ ⟨.semicolon, n⟩ :: (us ++ ⟨.rightBrace, m⟩ :: rest)) =
            (.ok s, us ++ ⟨.rightBrace, m⟩ :: rest) :=
        Parser.run_terminated_eq_ok_iff.2 ⟨n, hs.parsed room hfits.1 hfits.2 n _⟩
      have hrest := ihs room hlater m rest
      cases hss with
      | none => exact absurd ⟨Nat.zero_le room, List.forall_mem_nil _⟩ hlater
      | next j hs' hss' =>
        obtain ⟨t, vs, rfl, ht⟩ := hs'.exists_cons
        exact Stmt.refuses_body_next hfirst ht hrest
    · exact Stmt.refuses_body_first (ih room hfits n _).bind

end Derives

namespace Program

/-- Statements past a limit are refused as too deep. -/
theorem statements_refused {d : Nat} {ts : Tokens} {p : Program}
    (h : Derives d ts (.statements p)) (hno : ¬ (d ≤ Expr.maxNesting ∧ Expr.Low p.nodes)) :
    ∃ n, statements ts = .error ⟨.tooDeep, n⟩ := by
  induction p generalizing d ts with
  | nil =>
    cases h
    exact absurd ⟨Nat.zero_le _, List.forall_mem_nil _⟩ hno
  | cons s ss ih =>
    cases h with
    | @next d d' us vs _ _ k hs hss =>
      obtain ⟨t, ws, rfl, -⟩ := hs.exists_cons
      rw [List.cons_append, statements_cons]
      by_cases hfits : d ≤ Expr.maxNesting ∧ Expr.Low s.nodes
      · obtain ⟨n, hlater⟩ := ih hss (Expr.not_fits_right hno hfits)
        have hfirst : (Parser.terminated (Stmt.parser Expr.maxNesting)).run
            (t :: (ws ++ ⟨.semicolon, k⟩ :: vs)) = (.ok s, vs) :=
          Parser.run_terminated_eq_ok_iff.2 ⟨k, hs.parsed _ hfits.1 hfits.2 k vs⟩
        exact ⟨n, by simp only [hfirst, hlater]⟩
      · obtain ⟨n, after, hfirst⟩ : (Parser.terminated (Stmt.parser Expr.maxNesting)).Refuses
            (t :: (ws ++ ⟨.semicolon, k⟩ :: vs)) := (hs.refused _ hfits k vs).bind
        exact ⟨n, by rw [hfirst]⟩

/-- **Derived tokens are refused as too deep exactly when they are past a
limit.** -/
theorem parse_eq_tooDeep_iff {d : Nat} {ts : Tokens} {p : Program}
    (h : Derives d ts (.statements p)) :
    (∃ n, parse ts = .error ⟨.tooDeep, n⟩) ↔ ¬ (d ≤ Expr.maxNesting ∧ Expr.Low p.nodes) := by
  constructor
  · rintro ⟨n, hn⟩ ⟨hd, hlow⟩
    have hst := statements_of_derives hd h hlow
    cases hsum : p.booleanSum? <;> simp [parse, hst, validate, hsum] at hn
  · intro hno
    obtain ⟨n, hn⟩ := statements_refused h hno
    exact ⟨n, by rw [parse, hn]; rfl⟩

end Program

namespace Expr

/-- The expressions are taller than a chain may be only by the signs in front of
them, and by less than the nesting `d`. -/
def Capped (d : Nat) (es : List Expr) : Prop :=
  ∀ e ∈ es, e.height ≤ maxHeight + e.negations ∧ e.height ≤ maxHeight + (d - 1)

theorem Capped.mono {d d' : Nat} {es : List Expr} (h : Capped d es) (hd : d ≤ d') :
    Capped d' es := by
  intro e he
  have := h e he
  omega

theorem capped_leaf {e : Expr} (h : e.height = 1) (d : Nat) : Capped d [e] := by
  refine List.forall_mem_singleton.2 ?_
  simp only [h, maxHeight]
  omega

theorem Capped.append {d : Nat} {es fs : List Expr} (h : Capped d es) (h' : Capped d fs) :
    Capped d (es ++ fs) :=
  List.forall_mem_append.2 ⟨h, h'⟩

/-- **How tall an expression can be**, if its binary nodes are low: what stands
after a sign is a sign, a leaf or in parentheses, so each node on top of a chain
takes a level of nesting, after one for the parentheses. -/
theorem Derives.capped {tier : Tier} {d : Nat} {ts : Tokens} {e : Expr} (h : Derives tier d ts e) :
    Low e.nodes → Capped d e.nodes ∧ (3 ≤ tier.rank → e.height < maxHeight + d) := by
  induction h with
  | literal => exact fun _ => ⟨capped_leaf rfl 0, fun _ => by simp [height, maxHeight]⟩
  | name => exact fun _ => ⟨capped_leaf rfl 0, fun _ => by simp [height, maxHeight]⟩
  | group k m _ ih =>
    intro hlow
    obtain ⟨hcap, -⟩ := ih hlow
    refine ⟨hcap.mono (Nat.le_succ _), fun _ => ?_⟩
    have := (hcap _ (mem_nodes_self _)).2
    omega
  | @negation d ts e n _ ih =>
    intro hlow
    obtain ⟨hcap, hlt⟩ := ih (low_nodes_negate_iff.1 hlow)
    have hheight := hlt (Nat.le_refl _)
    have hnegations := (hcap e (mem_nodes_self e)).1
    refine ⟨(hcap.mono (Nat.le_succ d)).append (List.forall_mem_singleton.2 ?_), fun _ => ?_⟩
    · simp only [height, negations]
      omega
    · simp only [height]
      omega
  | @operand tier tighter d ts e ht _ ih =>
    intro hlow
    obtain ⟨hcap, hlt⟩ := ih hlow
    have := Tier.rank_operand ht
    exact ⟨hcap, fun hrank => hlt (by omega)⟩
  | @operator tier tighter d d' ts us l r op t ht hop _ _ ihl ihr =>
    intro hlow
    obtain ⟨hllow, hrlow, hheight⟩ := low_nodes_binary_iff.1 hlow
    have hl := (ihl hllow).1.mono (Nat.le_max_left d d')
    have hr := (ihr hrlow).1.mono (Nat.le_max_right d d')
    refine ⟨hl.append (hr.append (List.forall_mem_singleton.2 ?_)), fun hrank => ?_⟩
    · omega
    · cases tier <;> simp [Tier.rank, Tier.operator?] at hrank hop

end Expr

/-- The expressions of a phrase are capped, if its binary nodes are low. -/
theorem Derives.capped {d : Nat} {ts : Tokens} {f : Phrase} (h : Derives d ts f) :
    Expr.Low f.nodes → Expr.Capped d f.nodes := by
  induction h with
  | print n k m he => exact fun hlow => (he.capped hlow).1
  | assign x n k he => exact fun hlow => (he.capped hlow).1
  | ifThen n k m hc _ ih =>
    intro hlow
    obtain ⟨hclow, hblow⟩ := Expr.low_append_iff.1 hlow
    exact ((hc.capped hclow).1.mono (by omega)).append ((ih hblow).mono (by omega))
  | ifElse n k m j hc _ _ ih ih' =>
    intro hlow
    obtain ⟨hclow, hblow⟩ := Expr.low_append_iff.1 hlow
    obtain ⟨hblow, hblow'⟩ := Expr.low_append_iff.1 hblow
    have hcap := ((ih hblow).mono (Nat.le_max_left _ _)).append
      ((ih' hblow').mono (Nat.le_max_right _ _))
    exact ((hc.capped hclow).1.mono (by omega)).append (hcap.mono (by omega))
  | loop n k m hc _ ih =>
    intro hlow
    obtain ⟨hclow, hblow⟩ := Expr.low_append_iff.1 hlow
    exact ((hc.capped hclow).1.mono (by omega)).append ((ih hblow).mono (by omega))
  | block n m _ _ ih => exact fun hlow => (ih hlow).mono (by omega)
  | none => exact fun _ => List.forall_mem_nil _
  | next n _ _ ih ihs =>
    intro hlow
    obtain ⟨hslow, hsslow⟩ := Expr.low_append_iff.1 hlow
    exact ((ih hslow).mono (by omega)).append ((ihs hsslow).mono (by omega))

namespace Expr

/-- A sum of a one and `k` more. -/
def ones : Nat → Expr
  | 0 => .literal (.integer 1) 1
  | k + 1 => .binary .add (ones k) (.literal (.integer 1) 1) 1

/-- The tokens of a sum of a one and `k` more. -/
def onesTokens : Nat → Tokens
  | 0 => [⟨.integer 1, 1⟩]
  | k + 1 => onesTokens k ++ [⟨.plus, 1⟩, ⟨.integer 1, 1⟩]

/-- An expression with `k` signs in front of it. -/
def signed (e : Expr) : Nat → Expr
  | 0 => e
  | k + 1 => .negate (signed e k) 1

theorem height_ones (k : Nat) : (ones k).height = k + 1 := by
  induction k with
  | zero => rfl
  | succ k ih => simp [ones, height, ih]

theorem height_signed (e : Expr) (k : Nat) : (e.signed k).height = e.height + k := by
  induction k with
  | zero => rfl
  | succ k ih => rw [signed, height, ih, Nat.add_assoc]

/-- Sums of not too many ones are low. -/
theorem low_nodes_ones {k : Nat} (h : k < maxHeight) : Low (ones k).nodes := by
  induction k with
  | zero => exact low_nodes_literal _ _
  | succ k ih =>
    refine low_nodes_binary_iff.2 ⟨ih (by omega), low_nodes_literal _ _, ?_⟩
    have := height_ones (k + 1)
    rw [ones] at this
    omega

theorem isBooleanSum_of_mem_ones {k : Nat} : ∀ e ∈ (ones k).nodes, e.isBooleanSum = false := by
  induction k with
  | zero => simp [ones, nodes, isBooleanSum]
  | succ k ih =>
    have hleft : (ones k).isBoolLiteral = false := by cases k <;> rfl
    have htop : (ones (k + 1)).isBooleanSum = false := by
      rw [ones, isBooleanSum, hleft]
      rfl
    have hone : (Expr.literal (.integer 1) 1).isBooleanSum = false := rfl
    exact List.forall_mem_append.2 ⟨ih, List.forall_mem_cons.2 ⟨hone,
      List.forall_mem_singleton.2 htop⟩⟩

/-- A sum of ones is derived without any nesting. -/
theorem derives_ones (k : Nat) : Derives .additive 0 (onesTokens k) (ones k) := by
  have hone : Derives .multiplicative 0 [⟨.integer 1, 1⟩] (.literal (.integer 1) 1) :=
    .operand rfl (.operand rfl (.literal rfl))
  induction k with
  | zero => exact .operand rfl hone
  | succ k ih => exact .operator rfl rfl ih hone

/-- Each sign nests its operand. -/
theorem derives_signed {d : Nat} {ts : Tokens} {e : Expr} (h : Derives .unary d ts e) (k : Nat) :
    Derives .unary (d + k) (List.replicate k ⟨.minus, 1⟩ ++ ts) (e.signed k) := by
  induction k with
  | zero => exact h
  | succ k ih => exact .negation 1 ih

/-- Signs do not count as binary nodes. -/
theorem low_nodes_signed {e : Expr} (h : Low e.nodes) (k : Nat) : Low (e.signed k).nodes := by
  induction k with
  | zero => exact h
  | succ k ih => exact low_nodes_negate_iff.2 ih

theorem isBooleanSum_of_mem_signed {e : Expr} (h : ∀ f ∈ e.nodes, f.isBooleanSum = false)
    (k : Nat) : ∀ f ∈ (e.signed k).nodes, f.isBooleanSum = false := by
  induction k with
  | zero => exact h
  | succ k ih => exact List.forall_mem_append.2 ⟨ih, List.forall_mem_singleton.2 rfl⟩

end Expr

namespace Program

/-- The program that prints the tallest sum there may be with `k` signs in front. -/
def tall (k : Nat) : Program :=
  [.print ((Expr.ones 1023).signed k) 1]

/-- The tokens of that program: `print(-…-(1 + … + 1));` on one line. -/
def tallTokens (k : Nat) : Tokens :=
  ⟨.printWord, 1⟩ :: parenthesized 1 1
    (List.replicate k ⟨.minus, 1⟩ ++ parenthesized 1 1 (Expr.onesTokens 1023)) ++ [⟨.semicolon, 1⟩]

/-- The tokens of the tall program derive it, nested as deep as it has signs, and once more. -/
theorem derives_tall (k : Nat) : Derives (k + 1) (tallTokens k) (.statements (tall k)) := by
  have hsum : Expr.Derives .unary 1 _ _ :=
    .operand rfl (.group 1 1 (.operand rfl (Expr.derives_ones 1023)))
  have hsigned := Expr.derives_signed hsum k
  have hprint := Derives.print 1 1 1 (.operand rfl (.operand rfl (.operand rfl hsigned)))
  have := Derives.next 1 hprint .none
  rwa [Nat.max_zero, Nat.add_comm 1 k] at this

/-- **The signs on top of a tallest sum are not limited by its height**, but by
their number. -/
theorem parse_tall {k : Nat} (h : k < Expr.maxNesting) : parse (tallTokens k) = .ok (tall k) := by
  have hnodes : nodes (tall k) = ((Expr.ones 1023).signed k).nodes := List.append_nil _
  refine parse_eq_ok_iff.2 ⟨statements_of_derives h (derives_tall k) ?_, ?_⟩
  · rw [hnodes]
    exact Expr.low_nodes_signed (Expr.low_nodes_ones (by decide)) k
  · rw [hnodes]
    exact Expr.isBooleanSum_of_mem_signed Expr.isBooleanSum_of_mem_ones k

/-- The tall program has an expression above the limit by the number of its signs. -/
theorem exists_height_tall (k : Nat) : ∃ e ∈ nodes (tall k), e.height = 1024 + k := by
  refine ⟨(Expr.ones 1023).signed k, List.mem_append_left _ (Expr.mem_nodes_self _), ?_⟩
  rw [Expr.height_signed, Expr.height_ones]

/-- **How tall the expressions of a program are.**  A binary node that is too
tall is refused, and nothing else is but what nests too deeply; so a negation is
taller than a binary node may be, but only by its signs, and never above 1087. -/
theorem height_limit (ts : Tokens) :
    (∀ p, parse ts = .ok p →
      ∀ e ∈ p.nodes, e.height ≤ 1024 + e.negations ∧ e.height ≤ 1087) ∧
    ∀ (d : Nat) (p : Program), Derives d ts (.statements p) →
      ((∃ n, parse ts = .error ⟨.tooDeep, n⟩) ↔
        64 < d ∨ ∃ e ∈ p.nodes, e.isBinary = true ∧ 1024 < e.height) := by
  constructor
  · intro p hp e he
    obtain ⟨d, hd, hder, hlow⟩ := statements_eq_ok_iff.1 (parse_eq_ok_iff.1 hp).1
    have hcap := hder.capped hlow e he
    simp only [Expr.maxHeight, Expr.maxNesting] at hcap hd
    omega
  · intro d p hder
    rw [parse_eq_tooDeep_iff hder, Classical.not_and_iff_not_or_not, Nat.not_le]
    simp [Expr.Low, Expr.maxNesting, Expr.maxHeight]

/-- At the tallest sum, 63 signs are accepted and one more is not. -/
theorem height_limit_sharp :
    (parse (tallTokens 63) = .ok (tall 63) ∧
      ∀ e ∈ nodes (tall 63), e.height ≤ 1024 + e.negations ∧ e.height ≤ 1087) ∧
    Derives 65 (tallTokens 64) (.statements (tall 64)) ∧
      ∃ n, parse (tallTokens 64) = .error ⟨.tooDeep, n⟩ :=
  have h := parse_tall (k := 63) (by decide)
  ⟨⟨h, (height_limit _).1 _ h⟩, derives_tall 64,
    ((height_limit _).2 65 _ (derives_tall 64)).2 (.inl (by decide))⟩

/-- One sign in front of the tallest sum makes an expression of 1025 nodes. -/
theorem exists_parse_above_maxHeight :
    ∃ ts p, parse ts = .ok p ∧ ∃ e ∈ nodes p, e.height = 1025 ∧ Expr.maxHeight < e.height := by
  obtain ⟨e, he, hheight⟩ := exists_height_tall 1
  exact ⟨tallTokens 1, tall 1, parse_tall (by decide), e, he, hheight, by rw [hheight]; decide⟩

end Program
end FlatScript
