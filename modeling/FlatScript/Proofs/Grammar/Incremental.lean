/-
# Parsing more tokens

What a parser answers to some tokens tells what it answers when more tokens follow
(`Parser.Extends`):

| answer to the tokens | answer to the tokens and more |
| --- | --- |
| a result, with tokens left | the same result, with those tokens and more left |
| a result, with no tokens left | the same, or whatever the parser `goes` on to |
| an unexpected token | the same error |
| too deep | an error |
| the end of the tokens | anything |

Only the second row depends on the parser.  One that ends with a token of its own, as
a block does with its brace, is firm: it never goes on.  An expression goes on where an
operator follows, to one that is at least as tall or to an error, so what is too tall
stays too tall.  A statement goes on where its expression does, or where an `else`
follows, to anything at all.  But the semicolon after it makes it firm, and so
statements are parsed one by one (`Program.statements_append_of_ok`), whatever comes
after them.
-/

import FlatScript.Program

namespace FlatScript

/-- Only an error at the end of the input is placed. -/
theorem ParseError.atEndOfInput_cases (e : ParseError) :
    (∀ n, atEndOfInput e n = e) ∨ ∃ expected, e.val = .endOfInput expected := by
  obtain ⟨fault, line⟩ := e
  cases fault with
  | endOfInput expected => exact .inr ⟨expected, rfl⟩
  | unexpectedToken found expected => exact .inl fun _ => rfl
  | booleanAddition => exact .inl fun _ => rfl
  | tooDeep => exact .inl fun _ => rfl

namespace Parser

variable {α β : Type} {goes : α → Except ParseError α → Prop}
  {goes' : β → Except ParseError β → Prop} {us : Tokens}

/-- `Extends goes us x y`: after the answer `x` to some tokens, the answer to these
tokens and then `us` may be `y`. -/
inductive Extends (goes : α → Except ParseError α → Prop) (us : Tokens) :
    Except ParseError α × Tokens → Except ParseError α × Tokens → Prop where
  | same (answer : Except ParseError α) (rest : Tokens) :
      Extends goes us (answer, rest) (answer, rest ++ us)
  | goesOn {a : α} {y : Except ParseError α × Tokens} (h : goes a y.1) :
      Extends goes us (.ok a, []) y
  | tooDeep {n : Nat} {rest rest' : Tokens} {e : ParseError} :
      Extends goes us (.error ⟨.tooDeep, n⟩, rest) (.error e, rest')
  | ended {expected : String} {n : Nat} {rest : Tokens} {y : Except ParseError α × Tokens} :
      Extends goes us (.error ⟨.endOfInput expected, n⟩, rest) y

/-- A parser is steady if its answers extend when more tokens follow.  What a result
without any tokens left may go on to is for `goes` to say. -/
def Steady (goes : α → Except ParseError α → Prop) (p : Parser α) : Prop :=
  ∀ ts us, Extends goes us (p.run ts) (p.run (ts ++ us))

/-- A firm parser never goes on. -/
abbrev Firm (p : Parser α) : Prop :=
  Steady (fun _ _ => False) p

/-- A loose parser may go on to anything. -/
abbrev Loose (p : Parser α) : Prop :=
  Steady (fun _ _ => True) p

/-- A result of a firm parser stays, whatever follows its tokens. -/
theorem Firm.run_of_ok {p : Parser α} (hp : Firm p) {ts rest : Tokens} {a : α}
    (h : p.run ts = (.ok a, rest)) (us : Tokens) :
    p.run (ts ++ us) = (.ok a, rest ++ us) := by
  have hextends := hp ts us
  rw [h] at hextends
  generalize p.run (ts ++ us) = y at hextends ⊢
  cases hextends with
  | same => rfl
  | goesOn hgoes => exact hgoes.elim

/-- An error that is passed on extends as it did. -/
theorem Extends.pass {e : ParseError} {rest : Tokens} {y : Except ParseError α × Tokens}
    {y' : Except ParseError β × Tokens} (h : Extends goes us (.error e, rest) y)
    (hpass : ∀ e' rest', y = (.error e', rest') → y' = (.error e', rest')) :
    Extends goes' us (.error e, rest) y' := by
  cases h with
  | same =>
    rw [hpass e (rest ++ us) rfl]
    exact .same (.error e) rest
  | @tooDeep n _ rest' e' =>
    rw [hpass e' rest' rfl]
    exact .tooDeep
  | ended => exact .ended

theorem steady_pure (a : α) : Steady goes (pure a) :=
  fun ts _ => .same (.ok a) ts

theorem steady_fail (e : ParseError) : Steady goes (fail e) :=
  fun ts _ => .same (.error e) ts

/-- An expected token is the same, whatever follows it. -/
theorem firm_expect (t : Token) : Firm (expect t) := by
  intro ts us
  cases ts with
  | nil => exact .ended
  | cons u rest =>
    rw [List.cons_append, run_expect, run_expect]
    by_cases hu : u.val = t
    · simp only [if_pos hu]
      exact .same (.ok u.line) rest
    · simp only [if_neg hu]
      exact .same (.error _) rest

/-- **A sequence of steady parsers is steady**, if what the second makes of the end of
the tokens allows for all that the first may go on to. -/
theorem Steady.bind {p : Parser α} {f : α → Parser β} (hp : Steady goes p)
    (hf : ∀ a, Steady goes' (f a))
    (hok : ∀ us a b rest, goes a (.ok b) → Extends goes' us ((f a).run []) ((f b).run rest))
    (herror : ∀ us a e rest, goes a (.error e) → Extends goes' us ((f a).run []) (.error e, rest)) :
    Steady goes' (p >>= f) := by
  intro ts us
  have hextends := hp ts us
  rw [run_bind, run_bind]
  generalize p.run ts = x at hextends ⊢
  generalize p.run (ts ++ us) = y at hextends ⊢
  cases hextends with
  | same answer rest =>
    cases answer with
    | ok a => exact hf a rest us
    | error e => exact .same (.error e) rest
  | @goesOn a y hgoes =>
    obtain ⟨answer, rest⟩ := y
    cases answer with
    | ok b => exact hok us a b rest hgoes
    | error e => exact herror us a e rest hgoes
  | tooDeep => exact .tooDeep
  | ended => exact .ended

/-- After a firm parser, a sequence goes on as its second part does. -/
theorem Firm.bind {p : Parser α} {f : α → Parser β} (hp : Firm p)
    (hf : ∀ a, Steady goes' (f a)) : Steady goes' (p >>= f) :=
  Steady.bind hp hf (fun _ _ _ _ h => h.elim) (fun _ _ _ _ h => h.elim)

/-- **A token that must follow makes a parser firm**: where the parser might go on, that
token is still missing. -/
theorem Steady.bind_expect {p : Parser α} {t : Token} {f : α → Nat → Parser β}
    (hp : Steady goes p) (hf : ∀ a n, Steady goes' (f a n)) :
    Steady goes' (p >>= fun a => expect t >>= f a) :=
  hp.bind (fun a => (firm_expect t).bind (hf a)) (fun _ _ _ _ _ => .ended)
    (fun _ _ _ _ _ => .ended)

/-- The semicolon after it makes a parser firm. -/
theorem Steady.terminated {p : Parser α} (hp : Steady goes p) : Firm (terminated p) :=
  hp.bind_expect fun a _ => steady_pure a

/-- A change of the result goes on as the result does. -/
theorem Steady.map {p : Parser α} {g : α → β} (hp : Steady goes p)
    (hok : ∀ a b, goes a (.ok b) → goes' (g a) (.ok (g b)))
    (herror : ∀ a e, goes a (.error e) → goes' (g a) (.error e)) :
    Steady goes' (p >>= fun a => pure (g a)) :=
  hp.bind (fun a => steady_pure (g a)) (fun _ a b _ h => .goesOn (hok a b h))
    (fun _ a e _ h => .goesOn (herror a e h))

/-- A parser that needs a first token finds the end of the tokens where there is none. -/
theorem run_next?_nil {f : Option (Located Token) → Parser α} {expected : String}
    (hnone : f none = fail (unexpected none expected)) :
    (next? >>= f).run [] = (.error ⟨.endOfInput expected, 0⟩, []) := by
  rw [run_bind]
  show (f none).run [] = _
  rw [hnone]
  rfl

/-- A parser that needs a first token goes on as what it does with the token. -/
theorem steady_next? {f : Option (Located Token) → Parser α} (expected : String)
    (hnone : f none = fail (unexpected none expected)) (hsome : ∀ t, Steady goes (f (some t))) :
    Steady goes (next? >>= f) := by
  intro ts us
  cases ts with
  | nil =>
    rw [run_next?_nil hnone]
    exact .ended
  | cons t rest => exact hsome t rest us

/-- What stands inside a nesting is as steady there as outside. -/
theorem steady_nested {p? : Option (Parser α)} (hp : ∀ p, p? = some p → Steady goes p) (n : Nat) :
    Steady goes (nested n p?) := by
  cases p? with
  | none => exact steady_fail ⟨.tooDeep, n⟩
  | some p => exact hp p rfl

end Parser

namespace Expr

open FlatScript.Parser

variable {p : Parser Expr} {accepts : Operator → Bool}

/-- What an expression goes on to: one that is at least as tall, or an error. -/
def NotLower (e : Expr) (answer : Except ParseError Expr) : Prop :=
  ∀ f, answer = .ok f → e.height ≤ f.height

theorem notLower_self (e : Expr) : NotLower e (.ok e) := by
  intro f hf
  obtain rfl := Except.ok.inj hf
  exact Nat.le_refl _

theorem notLower_error (e : Expr) (err : ParseError) : NotLower e (.error err) := by
  intro f hf
  cases hf

/-- What is not lower than an expression is not lower than a lower one. -/
theorem NotLower.of_le {e f : Expr} {answer : Except ParseError Expr} (h : NotLower f answer)
    (hle : e.height ≤ f.height) : NotLower e answer :=
  fun g hg => Nat.le_trans hle (h g hg)

theorem NotLower.height_le {e f : Expr} (h : NotLower e (.ok f)) : e.height ≤ f.height :=
  h f rfl

/-- A chain is at least as tall as its left part. -/
theorem notLower_chainFrom (accepts : Operator → Bool) (p : Parser Expr) (left : Expr)
    (height : Nat) (ts : Tokens) : NotLower left (chainFrom accepts p left height ts).1 := by
  fun_induction chainFrom accepts p left height ts with
  | case1 left height => exact notLower_self left
  | case2 left height t rest hop => exact notLower_self left
  | case3 left height t rest op hop ha e after hrun => exact notLower_error left e
  | case4 left height t rest op hop ha right after hrun taller hh => exact notLower_error left _
  | case5 left height t rest op hop ha right after hrun taller hh ih =>
    refine ih.of_le ?_
    simp only [Expr.height]
    omega
  | case6 left height t rest op hop ha => exact notLower_self left

/-- **A chain goes on to one that is at least as tall.**  An operator after its end, or
an operand that goes on, adds to its height. -/
theorem chainFrom_extends (hp : Steady NotLower p) (left : Expr) (height : Nat)
    (ts us : Tokens) :
    Extends NotLower us (chainFrom accepts p left height ts)
      (chainFrom accepts p left height (ts ++ us)) := by
  fun_induction chainFrom accepts p left height ts with
  | case1 left height => exact .goesOn (notLower_chainFrom accepts p left height us)
  | case2 left height t rest hop =>
    rw [List.cons_append, chainFrom_eq]
    simp only [hop]
    exact .same (.ok left) (t :: rest)
  | case3 left height t rest op hop ha e after hrun =>
    have hoperand := hp rest us
    rw [hrun] at hoperand
    refine hoperand.pass fun e' rest' hy => ?_
    rw [List.cons_append, chainFrom_accepted hop ha, hy]
  | case4 left height t rest op hop ha right after hrun taller hh =>
    -- A taller operand does not make the node any lower.
    have hoperand := hp rest us
    rw [List.cons_append, chainFrom_accepted hop ha]
    rw [hrun] at hoperand
    generalize p.run (rest ++ us) = y at hoperand ⊢
    cases hoperand with
    | same =>
      have hh' : maxHeight < max height right.height + 1 := hh
      simp only [if_pos hh']
      exact .same (.error ⟨.tooDeep, t.line⟩) after
    | @goesOn _ y hgoes =>
      obtain ⟨answer, rest'⟩ := y
      cases answer with
      | error e => exact .tooDeep
      | ok right' =>
        have hle : right.height ≤ right'.height := hgoes.height_le
        have hh' : maxHeight < max height right'.height + 1 := by
          have : maxHeight < max height right.height + 1 := hh
          omega
        simp only [if_pos hh']
        exact .tooDeep
  | case5 left height t rest op hop ha right after hrun taller hh ih =>
    have hoperand := hp rest us
    rw [List.cons_append, chainFrom_accepted hop ha]
    rw [hrun] at hoperand
    generalize p.run (rest ++ us) = y at hoperand ⊢
    cases hoperand with
    | same =>
      have hh' : ¬ maxHeight < max height right.height + 1 := hh
      simp only [if_neg hh']
      exact ih
    | @goesOn _ y hgoes =>
      rw [chainFrom_nil]
      refine .goesOn ?_
      obtain ⟨answer, rest'⟩ := y
      cases answer with
      | error e => exact notLower_error _ e
      | ok right' =>
        have hle : right.height ≤ right'.height := hgoes.height_le
        dsimp only
        split
        · exact notLower_error _ _
        · refine (notLower_chainFrom accepts p _ _ rest').of_le ?_
          simp only [Expr.height]
          omega
  | case6 left height t rest op hop ha =>
    rw [List.cons_append, chainFrom_eq]
    simp only [hop, if_neg ha]
    exact .same (.ok left) (t :: rest)

/-- A chain goes on to what is not lower if its operands do. -/
theorem chain_steady (accepts : Operator → Bool) (hp : Steady NotLower p) :
    Steady NotLower (chain accepts p) := by
  refine hp.bind (fun left => chainFrom_extends hp left left.height) ?_ ?_
  · intro us a b rest h
    show Extends NotLower us (chainFrom accepts p a a.height []) _
    rw [chainFrom_nil]
    exact .goesOn ((notLower_chainFrom accepts p b b.height rest).of_le h.height_le)
  · intro us a e rest h
    show Extends NotLower us (chainFrom accepts p a a.height []) _
    rw [chainFrom_nil]
    exact .goesOn (notLower_error a e)

theorem comparisonsOf_steady (hp : Steady NotLower p) : Steady NotLower (comparisonsOf p) :=
  chain_steady _ (chain_steady _ (chain_steady _ hp))

/-- One level of signs and parentheses. -/
theorem unaryOf_steady {p? : Option (Parser Expr)} (hp : ∀ p, p? = some p → Steady NotLower p) :
    Steady NotLower (unaryOf p?) := by
  refine steady_next? "an expression" rfl fun t => ?_
  obtain ⟨val, n⟩ := t
  cases val with
  | minus =>
    refine (steady_nested hp n).map (fun a b h => ?_) fun a e h => notLower_error _ e
    intro f hf
    cases hf
    exact Nat.succ_le_succ h.height_le
  | leftParen =>
    have hinside : ∀ q, p?.map comparisonsOf = some q → Steady NotLower q := by
      intro q hq
      obtain ⟨p, hp?, rfl⟩ := Option.map_eq_some_iff.1 hq
      exact comparisonsOf_steady (hp p hp?)
    exact (steady_nested hinside n).bind_expect fun e _ => steady_pure e
  | integer k => exact steady_pure (Expr.literal (.integer k) n)
  | real x => exact steady_pure (Expr.literal (.real x) n)
  | bool b => exact steady_pure (Expr.literal (.bool b) n)
  | str s => exact steady_pure (Expr.literal (.str s) n)
  | identifier name => exact steady_pure (Expr.var name n)
  | _ => exact steady_fail _

/-- Operands go on to what is not lower, in every room. -/
theorem unary_steady : ∀ room, Steady NotLower (unary room)
  | 0 => unaryOf_steady fun _ hp => by cases hp
  | room + 1 => unaryOf_steady fun _ hp => Option.some.inj hp ▸ unary_steady room

/-- **The parser of expressions is steady.** -/
theorem parser_steady (room : Nat) : Steady NotLower (parser room) :=
  comparisonsOf_steady (unary_steady room)

end Expr

namespace Stmt

open FlatScript.Parser

/-- The statements of a block are firm: they end with a brace. -/
theorem bodyFrom_extends {p : Parser Stmt} (hp : Loose p) (ts us : Tokens) :
    Extends (fun _ _ => False) us (bodyFrom p ts) (bodyFrom p (ts ++ us)) := by
  fun_induction bodyFrom p ts with
  | case1 ts e after hrun =>
    have hfirst := hp.terminated ts us
    rw [hrun] at hfirst
    refine hfirst.pass fun e' rest' hy => ?_
    rw [bodyFrom_eq, hy]
  | case2 ts s hrun => exact .ended
  | case3 ts s t after hrun hbrace =>
    rw [bodyFrom_eq, hp.terminated.run_of_ok hrun us]
    simp only [List.cons_append, if_pos hbrace]
    exact .same (.ok [s]) after
  | case4 ts s t after hrun hbrace ss rest hrest ih =>
    rw [bodyFrom_eq, hp.terminated.run_of_ok hrun us]
    simp only [List.cons_append, if_neg hbrace]
    rw [hrest, List.cons_append] at ih
    generalize bodyFrom p (t :: (after ++ us)) = y at ih ⊢
    cases ih with
    | same => exact .same (.ok (s :: ss)) rest
    | goesOn hgoes => exact hgoes.elim
  | case5 ts s t after hrun hbrace e rest hrest ih =>
    rw [hrest, List.cons_append] at ih
    refine ih.pass fun e' rest' hy => ?_
    rw [bodyFrom_eq, hp.terminated.run_of_ok hrun us]
    simp only [List.cons_append, if_neg hbrace, hy]

/-- A block ends with its brace, so it is firm. -/
theorem blockOf_firm {p? : Option (Parser Stmt)} (hp : ∀ p, p? = some p → Loose p) :
    Firm (blockOf p?) := by
  have hinside : ∀ q, p?.map body = some q → Firm q := by
    intro q hq
    obtain ⟨p, hp?, rfl⟩ := Option.map_eq_some_iff.1 hq
    exact bodyFrom_extends (hp p hp?)
  exact (firm_expect .leftBrace).bind fun n =>
    Firm.bind (steady_nested hinside n) fun ss => steady_pure (Stmt.block ss n)

theorem conditionOf_firm {p : Parser Expr} (hp : Steady Expr.NotLower p) :
    Firm (conditionOf p) :=
  (firm_expect .leftParen).bind fun _ => hp.bind_expect fun e _ => steady_pure e

/-- **A statement goes on with its expression or with an `else`.** -/
theorem statementOf_loose {p : Parser Expr} {b : Parser Stmt} (hp : Steady Expr.NotLower p)
    (hb : Firm b) : Loose (statementOf p b) := by
  refine steady_next? "a statement" rfl fun t => ?_
  obtain ⟨val, n⟩ := t
  cases val with
  | printWord => exact (conditionOf_firm hp).bind fun e => steady_pure (Stmt.print e n)
  | identifier name =>
    exact (firm_expect .equals).bind fun _ =>
      hp.map (fun _ _ _ => trivial) (fun _ _ _ => trivial)
  | ifWord =>
    refine (conditionOf_firm hp).bind fun c => hb.bind fun s => ?_
    intro ts us
    cases ts with
    | nil => exact .goesOn trivial
    | cons u rest =>
      obtain ⟨val', m⟩ := u
      cases val' with
      | elseWord => exact hb.bind (fun t => steady_pure (Stmt.ifElse c s t n)) rest us
      | _ => exact .same (.ok (Stmt.ifThen c s n)) _
  | whileWord =>
    exact (conditionOf_firm hp).bind fun c => hb.bind fun s => steady_pure (Stmt.loop c s n)
  | _ => exact steady_fail _

/-- **The parser of statements is steady**, if loose. -/
theorem parser_loose : ∀ room, Loose (parser room)
  | 0 => statementOf_loose (Expr.parser_steady 0) (blockOf_firm fun _ hp => by cases hp)
  | room + 1 =>
    statementOf_loose (Expr.parser_steady (room + 1))
      (blockOf_firm fun _ hp => Option.some.inj hp ▸ parser_loose room)

/-- The first boolean sum of statements is in the first part that has one. -/
theorem booleanSums?_append (ss ts : List Stmt) :
    booleanSums? (ss ++ ts) = (booleanSums? ss).or (booleanSums? ts) := by
  induction ss with
  | nil => rfl
  | cons s ss ih =>
    simp only [List.cons_append, booleanSums?, ih, Option.orElse_eq_orElse, Option.orElse_eq_or,
      Option.or_assoc]

end Stmt

namespace Program

variable {ts : Tokens} {p : Program} {e : ParseError}

/-- A statement with its semicolon is firm. -/
theorem firm_statement : Parser.Firm (Parser.terminated (Stmt.parser Expr.maxNesting)) :=
  (Stmt.parser_loose Expr.maxNesting).terminated

/-- **Statements stay when more tokens follow**, and what follows is parsed by itself. -/
theorem statements_append_of_ok (h : statements ts = .ok p) (us : Tokens) :
    statements (ts ++ us) =
      match statements us with
      | .ok q => .ok (p ++ q)
      | .error e => .error e := by
  fun_induction statements ts generalizing p with
  | case1 =>
    obtain rfl := Except.ok.inj h
    rw [List.nil_append]
    cases statements us <;> rfl
  | case2 t ts e rest hrun => cases h
  | case3 t ts s rest hrun ss hrest ih =>
    obtain rfl := Except.ok.inj h
    have hfirst := firm_statement.run_of_ok hrun us
    rw [List.cons_append] at hfirst ⊢
    rw [statements_cons, hfirst]
    simp only [ih hrest]
    cases statements us <;> rfl
  | case4 t ts s rest hrun e hrest ih => cases h

/-- **An error stays when more tokens follow**, but one at the end of the tokens may be
cured, and one that is too deep may become another. -/
theorem statements_append_of_error (h : statements ts = .error e) (us : Tokens) :
    statements (ts ++ us) = .error e ∨
      (e.val = .tooDeep ∧ ∃ e', statements (ts ++ us) = .error e') ∨
        ∃ expected, e.val = .endOfInput expected := by
  fun_induction statements ts with
  | case1 => cases h
  | case2 t ts e' rest hrun =>
    obtain rfl := Except.error.inj h
    have hfirst := firm_statement (t :: ts) us
    rw [List.cons_append, statements_cons]
    rw [hrun, List.cons_append] at hfirst
    generalize (Parser.terminated (Stmt.parser Expr.maxNesting)).run (t :: (ts ++ us)) = y
      at hfirst ⊢
    cases hfirst with
    | same => exact .inl rfl
    | tooDeep => exact .inr (.inl ⟨rfl, _, rfl⟩)
    | ended => exact .inr (.inr ⟨_, rfl⟩)
  | case3 t ts s rest hrun ss hrest ih => cases h
  | case4 t ts s rest hrun e' hrest ih =>
    obtain rfl := Except.error.inj h
    have hfirst := firm_statement.run_of_ok hrun us
    rw [List.cons_append] at hfirst ⊢
    rw [statements_cons, hfirst]
    rcases ih hrest with hsame | ⟨hdeep, e', he'⟩ | hended
    · left
      simp only [hsame]
    · right; left
      refine ⟨hdeep, e', ?_⟩
      simp only [he']
    · exact .inr (.inr hended)

/-- The last line is that of the last tokens. -/
theorem lastLine_append {us : Tokens} (hne : us ≠ []) (ts : Tokens) :
    lastLine (ts ++ us) = lastLine us := by
  obtain ⟨vs, t, rfl⟩ := (List.eq_nil_or_concat us).resolve_left hne
  simp [lastLine, ← List.append_assoc]

/-- The first boolean sum of two programs in a row is that of the first, if it has
one. -/
theorem validate_append (p q : Program) :
    validate (p ++ q) =
      match validate p with
      | .error e => .error e
      | .ok _ => validate q := by
  have hsum : booleanSum? (p ++ q) = p.booleanSum?.or q.booleanSum? :=
    Stmt.booleanSums?_append p q
  rw [validate, validate, hsum]
  cases p.booleanSum? <;> rfl

/-- **Parsing ends in three ways**: in an error of the statements, in a boolean sum, or
in a program. -/
theorem parse_cases (ts : Tokens) :
    (∃ e, statements ts = .error e ∧ parse ts = .error (ParseError.atEndOfInput e (lastLine ts))) ∨
      (∃ p n, statements ts = .ok p ∧ validate p = .error ⟨.booleanAddition, n⟩ ∧
        parse ts = .error ⟨.booleanAddition, n⟩) ∨
          ∃ p, statements ts = .ok p ∧ validate p = .ok () ∧ parse ts = .ok p := by
  unfold parse
  cases hst : statements ts with
  | error e => exact .inl ⟨e, rfl, rfl⟩
  | ok p =>
    cases hsum : p.booleanSum? with
    | some n => exact .inr (.inl ⟨p, n, rfl, by rw [validate, hsum], by simp only [validate, hsum]⟩)
    | none => exact .inr (.inr ⟨p, rfl, by rw [validate, hsum], by simp only [validate, hsum]⟩)

/-- **What follows a program is parsed by itself**, to its statements or its error. -/
theorem parse_append_of_ok (h : parse ts = .ok p) (us : Tokens) :
    parse (ts ++ us) =
      match parse us with
      | .ok q => .ok (p ++ q)
      | .error e => .error e := by
  rcases parse_cases ts with ⟨e, -, hparse⟩ | ⟨_, n, -, -, hparse⟩ | ⟨q, hst, hvalid, hparse⟩
  · rw [h] at hparse; cases hparse
  · rw [h] at hparse; cases hparse
  · obtain rfl : p = q := Except.ok.inj (h.symm.trans hparse)
    rw [parse, parse, statements_append_of_ok hst us]
    cases hus : statements us with
    | error e =>
      have hne : us ≠ [] := by
        rintro rfl
        simp [statements] at hus
      simp only [lastLine_append hne]
    | ok q =>
      simp only [validate_append, hvalid]
      cases validate q <;> rfl

/-- The error of the statements is that of the program, placed if it is one at the end. -/
theorem parse_of_statements_error (h : statements ts = .error e) :
    parse ts = .error (ParseError.atEndOfInput e (lastLine ts)) := by
  rw [parse, h]

/-- More tokens after a boolean sum do not remove it. -/
theorem exists_parse_error_of_validate {refusal : ParseError} (hst : statements ts = .ok p)
    (hvalid : validate p = .error refusal) (us : Tokens) :
    ∃ e, parse (ts ++ us) = .error e := by
  rw [parse, statements_append_of_ok hst us]
  cases statements us with
  | error e => exact ⟨_, rfl⟩
  | ok q =>
    simp only [validate_append, hvalid]
    exact ⟨_, rfl⟩

/-- **What becomes of an error when more tokens follow**: an unexpected token stays, and
only one at the end of the tokens may be cured. -/
theorem parse_append_of_error (h : parse ts = .error e) (us : Tokens) :
    parse (ts ++ us) = .error e ∨
      ((e.val = .tooDeep ∨ e.val = .booleanAddition) ∧ ∃ e', parse (ts ++ us) = .error e') ∨
        ∃ expected, e.val = .endOfInput expected := by
  rcases parse_cases ts with ⟨e₀, hst, hparse⟩ | ⟨p, n, hst, hvalid, hparse⟩ | ⟨p, -, -, hparse⟩
  · obtain rfl := Except.error.inj (h.symm.trans hparse)
    rw [ParseError.val_atEndOfInput]
    rcases statements_append_of_error hst us with hsame | ⟨hdeep, e', he'⟩ | hended
    · rcases ParseError.atEndOfInput_cases e₀ with hplaced | hended
      · left
        rw [parse_of_statements_error hsame, hplaced, hplaced]
      · exact .inr (.inr hended)
    · exact .inr (.inl ⟨.inl hdeep, _, parse_of_statements_error he'⟩)
    · exact .inr (.inr hended)
  · obtain rfl := Except.error.inj (h.symm.trans hparse)
    exact .inr (.inl ⟨.inr rfl, exists_parse_error_of_validate hst hvalid us⟩)
  · rw [h] at hparse
    cases hparse

/-- Tokens that are refused before their end are refused whatever follows. -/
theorem exists_parse_append_error (h : parse ts = .error e)
    (hval : ∀ expected, e.val ≠ .endOfInput expected) (us : Tokens) :
    ∃ e', parse (ts ++ us) = .error e' := by
  rcases parse_append_of_error h us with hsame | ⟨-, hfails⟩ | ⟨expected, hended⟩
  · exact ⟨e, hsame⟩
  · exact hfails
  · exact absurd hended (hval expected)

/-- **Parsing is incremental and rejection is final.**  What follows a program is parsed
by itself: both programs in a row, or the error of the second.  After an unexpected
token every continuation has the same error, and after too much depth or a boolean sum
every one has some error.  So only an error at the end of the tokens can be cured by
more of them. -/
theorem parse_incremental (ts us : Tokens) :
    (∀ p, parse ts = .ok p →
      parse (ts ++ us) =
        match parse us with
        | .ok q => .ok (p ++ q)
        | .error e => .error e) ∧
    (∀ found expected n, parse ts = .error ⟨.unexpectedToken found expected, n⟩ →
      parse (ts ++ us) = .error ⟨.unexpectedToken found expected, n⟩) ∧
    (∀ n, parse ts = .error ⟨.tooDeep, n⟩ ∨ parse ts = .error ⟨.booleanAddition, n⟩ →
      ∃ e, parse (ts ++ us) = .error e) ∧
    (∀ e p, parse ts = .error e → parse (ts ++ us) = .ok p →
      ∃ expected, e.val = .endOfInput expected) := by
  refine ⟨fun p h => parse_append_of_ok h us, fun found expected n h => ?_, fun n h => ?_,
    fun e p h hcured => ?_⟩
  · rcases parse_append_of_error h us with hsame | ⟨hval, -⟩ | ⟨_, hval⟩
    · exact hsame
    · simp at hval
    · cases hval
  · rcases h with h | h
    · exact exists_parse_append_error h (by simp) us
    · exact exists_parse_append_error h (by simp) us
  · rcases parse_append_of_error h us with hsame | ⟨-, e', hfails⟩ | hended
    · rw [hcured] at hsame
      cases hsame
    · rw [hcured] at hfails
      cases hfails
    · exact hended

/-- An `if` without its semicolon is cured by an `else` that follows, and the program of
the two goes on with that of the next statement.  A call with two arguments fails by
itself, and what follows that call does not help it; nor does it help a boolean sum. -/
theorem parse_incremental_else :
    let cut := tokensOf "if (x < 2) \x7b\n print(x); \x7d"
    let rest := tokensOf "else \x7b x = 2; \x7d;"
    let next := tokensOf "\nprint(-x);"
    let call := tokensOf "print(x\n y"
    let sum := tokensOf "x = 1 + true;"
    let choice : Program :=
      [.ifElse (.binary .less (.var "x" 1) (.literal (.integer 2) 1) 1)
        (.block [.print (.var "x" 2) 2] 1)
        (.block [.assign "x" (.literal (.integer 2) 1) 1] 1) 1]
    let last : Program := [.print (.negate (.var "x" 2) 2) 2]
    parse (cut ++ rest) = .ok choice ∧ parse next = .ok last ∧
      parse (cut ++ rest ++ next) = .ok (choice ++ last) ∧
      (∃ expected, parse cut = .error ⟨.endOfInput expected, 2⟩) ∧
      parse (cut ++ rest ++ call) = .error ⟨.unexpectedToken "'y'" "')'", 2⟩ ∧
      parse (call ++ rest) = .error ⟨.unexpectedToken "'y'" "')'", 2⟩ ∧
      ∃ e, parse (sum ++ rest) = .error e := by
  intro cut rest next call sum choice last
  have hcut : parse cut = .error ⟨.endOfInput "';'", 2⟩ := by with_unfolding_all rfl
  have hcall : parse call = .error ⟨.unexpectedToken "'y'" "')'", 2⟩ := by with_unfolding_all rfl
  have hsum : parse sum = .error ⟨.booleanAddition, 1⟩ := by with_unfolding_all rfl
  have hchoice : parse (cut ++ rest) = .ok choice := by with_unfolding_all rfl
  have hlast : parse next = .ok last := by with_unfolding_all rfl
  refine ⟨hchoice, hlast, ?_, ⟨_, hcut⟩, ?_, (parse_incremental call rest).2.1 _ _ _ hcall,
    (parse_incremental sum rest).2.2.1 1 (.inr hsum)⟩
  · rw [(parse_incremental (cut ++ rest) next).1 choice hchoice, hlast]
  · rw [(parse_incremental (cut ++ rest) call).1 choice hchoice, hcall]

end Program
end FlatScript
