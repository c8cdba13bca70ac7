/-
# Which tokens an answer stands for

What a parser answers says which tokens it consumed (`Parser.Accounts`):

| answer | tokens |
| --- | --- |
| a result | at least so many are consumed |
| an unexpected token | the last consumed one is that token, on that line |
| the end of the tokens | none are left |
| too deep | a consumed one that nests, or is an operator, stands on that line |

In each row the tokens left are a suffix of those given, and no other answer is
possible.  A parser that blames the token before it, as the inside of a parenthesis
does when there is no room for it, accounts for that token too
(`Parser.AccountsAfter`); so a sequence of parsers accounts for its tokens if its
parts do, and each parser of the grammar does (`Program.parse_accounts`).

An error at the end of the tokens is placed on the line of the last one, and a boolean
sum on that of its sign.  So every error of a program stands on the line of a token.
-/

import FlatScript.Proofs.Grammar.Incremental
import FlatScript.Proofs.Grammar.Sums

namespace FlatScript

/-- The tokens that a program can be too deep at: an opening parenthesis or brace, and
the operators, the sign of a negation among them. -/
def Token.deepens (t : Token) : Bool :=
  t = .leftParen || t = .leftBrace || t.operator?.isSome

theorem Token.deepens_of_operator? {t : Token} {op : Operator} (h : t.operator? = some op) :
    t.deepens = true := by
  simp [deepens, h]

namespace Parser

variable {α β : Type} {before ts rest : Tokens} {least least' : Nat}

/-- `Accounts least ts x`: the answer `x` to the tokens `ts` names the tokens that it
comes from, and a result comes from at least so many. -/
inductive Accounts (least : Nat) : Tokens → Except ParseError α × Tokens → Prop where
  | parsed {a : α} (consumed rest : Tokens) (h : least ≤ consumed.length) :
      Accounts least (consumed ++ rest) (.ok a, rest)
  | unexpected {expected : String} (consumed : Tokens) (t : Located Token) (rest : Tokens) :
      Accounts least (consumed ++ t :: rest)
        (.error ⟨.unexpectedToken t.val.text expected, t.line⟩, rest)
  | ended {ts : Tokens} {expected : String} :
      Accounts least ts (.error ⟨.endOfInput expected, 0⟩, [])
  | tooDeep {t : Located Token} (consumed rest : Tokens) (ht : t ∈ consumed)
      (hdeep : t.val.deepens = true) :
      Accounts least (consumed ++ rest) (.error ⟨.tooDeep, t.line⟩, rest)

/-- A parser accounts for the tokens that it is given together with some that were
consumed before. -/
def AccountsAfter (before : Tokens) (least : Nat) (p : Parser α) : Prop :=
  ∀ ts, Accounts least (before ++ ts) (p.run ts)

/-- A parser accounts for the tokens that it is given. -/
abbrev AccountsFor (least : Nat) (p : Parser α) : Prop :=
  AccountsAfter [] least p

namespace Accounts

/-- An answer that accounts for some tokens accounts for fewer of them. -/
theorem mono {x : Except ParseError α × Tokens} (h : Accounts least ts x)
    (hle : least' ≤ least) : Accounts least' ts x := by
  cases h with
  | parsed consumed rest h => exact .parsed consumed rest (Nat.le_trans hle h)
  | unexpected consumed t rest => exact .unexpected consumed t rest
  | ended => exact .ended
  | tooDeep consumed rest ht hdeep => exact .tooDeep consumed rest ht hdeep

/-- What accounts for its tokens accounts for those with more consumed before them. -/
theorem behind {x : Except ParseError α × Tokens} (h : Accounts least ts x) (before : Tokens) :
    Accounts (before.length + least) (before ++ ts) x := by
  cases h with
  | parsed consumed rest h =>
    rw [← List.append_assoc]
    exact .parsed (before ++ consumed) rest (by rw [List.length_append]; omega)
  | unexpected consumed t rest =>
    rw [← List.append_assoc]
    exact .unexpected (before ++ consumed) t rest
  | ended => exact .ended
  | tooDeep consumed rest ht hdeep =>
    rw [← List.append_assoc]
    exact .tooDeep (before ++ consumed) rest (List.mem_append_right before ht) hdeep

/-- An error accounts for its tokens whatever was to be parsed. -/
theorem pass {e : ParseError}
    (h : Accounts least ts ((.error e, rest) : Except ParseError α × Tokens)) :
    Accounts least' ts ((.error e, rest) : Except ParseError β × Tokens) := by
  cases h with
  | unexpected consumed t rest => exact .unexpected consumed t rest
  | ended => exact .ended
  | tooDeep consumed rest ht hdeep => exact .tooDeep consumed rest ht hdeep

/-- A result leaves what it has not consumed. -/
theorem exists_consumed {a : α} (h : Accounts least ts (.ok a, rest)) :
    ∃ consumed, ts = consumed ++ rest ∧ least ≤ consumed.length := by
  cases h with
  | parsed consumed rest h => exact ⟨consumed, rfl, h⟩

theorem result {a : α} (h : Accounts least ts (.ok a, rest)) (b : β) :
    Accounts least ts (.ok b, rest) := by
  obtain ⟨consumed, rfl, hle⟩ := h.exists_consumed
  exact .parsed consumed rest hle

/-- **After a result comes an answer to the tokens that it leaves**, and the two
together account for all of the tokens. -/
theorem andThen {a : α} {x : Except ParseError β × Tokens} (h : Accounts least ts (.ok a, rest))
    (hx : Accounts least' rest x) : Accounts least ts x := by
  obtain ⟨consumed, rfl, hle⟩ := h.exists_consumed
  exact (hx.behind consumed).mono (Nat.le_trans hle (Nat.le_add_right _ _))

end Accounts

/-- The answer of a run accounts for its tokens. -/
theorem AccountsAfter.of_run {p : Parser α} {x : Except ParseError α × Tokens}
    (hp : AccountsAfter before least p) (hrun : p.run ts = x) :
    Accounts least (before ++ ts) x := by
  rw [← hrun]
  exact hp ts

/-- A parser accounts for its tokens also when others were consumed before. -/
theorem AccountsFor.after {p : Parser α} (hp : AccountsFor least p) (before : Tokens) :
    AccountsAfter before before.length p :=
  fun ts => ((hp ts).behind before).mono (Nat.le_add_right _ _)

/-- A result accounts for what was consumed before it. -/
theorem accountsAfter_pure (a : α) (before : Tokens) :
    AccountsAfter before before.length (pure a) :=
  fun ts => .parsed before ts (Nat.le_refl _)

/-- A token that is unexpected accounts for itself. -/
theorem accountsAfter_unexpected (t : Located Token) (expected : String) :
    AccountsAfter [t] least (fail (unexpected (some t) expected) : Parser α) :=
  fun ts => .unexpected [] t ts

/-- **A sequence accounts for its tokens** if its parts do, the second one whatever the
first one parsed. -/
theorem AccountsAfter.bind {p : Parser α} {f : α → Parser β} (hp : AccountsAfter before least p)
    (hf : ∀ a, AccountsFor least' (f a)) : AccountsAfter before least (p >>= f) := by
  intro ts
  rw [run_bind]
  cases hrun : p.run ts with
  | mk answer rest =>
    cases answer with
    | ok a => exact (hp.of_run hrun).andThen (hf a rest)
    | error e => exact (hp.of_run hrun).pass

/-- A change of the result consumes nothing more. -/
theorem AccountsAfter.map {p : Parser α} (hp : AccountsAfter before least p) (g : α → β) :
    AccountsAfter before least (p >>= fun a => pure (g a)) :=
  hp.bind fun a => accountsAfter_pure (g a) []

/-- A parser that needs a first token accounts for it together with the tokens after
it. -/
theorem accountsFor_next? {f : Option (Located Token) → Parser α} (expected : String)
    (hnone : f none = fail (unexpected none expected))
    (hsome : ∀ t, AccountsAfter [t] least (f (some t))) : AccountsFor least (next? >>= f) := by
  intro ts
  cases ts with
  | nil =>
    rw [run_next?_nil hnone]
    exact .ended
  | cons t rest => exact hsome t rest

/-- What follows an expected token accounts for it too. -/
theorem accountsFor_expect {t : Token} {f : Nat → Parser α}
    (hf : ∀ n, AccountsAfter [⟨t, n⟩] least (f n)) : AccountsFor least (expect t >>= f) := by
  intro ts
  rw [run_bind, run_expect]
  cases ts with
  | nil => exact .ended
  | cons u rest =>
    obtain ⟨val, n⟩ := u
    by_cases hval : val = t
    · subst hval
      simp only [if_true]
      exact hf n rest
    · simp only [if_neg hval]
      exact .unexpected [] ⟨val, n⟩ rest

/-- A token after a parser, of which nothing is kept. -/
theorem AccountsAfter.bind_expect {p : Parser α} (hp : AccountsAfter before least p) (t : Token) :
    AccountsAfter before least (p >>= fun a => expect t >>= fun _ => pure a) :=
  hp.bind fun a => accountsFor_expect fun n => accountsAfter_pure a [⟨t, n⟩]

/-- What is nested accounts for the token that opens it: without room for it, that is
the one that is too deep. -/
theorem accountsAfter_nested {p? : Option (Parser α)} {t : Token} (ht : t.deepens = true)
    (hp : ∀ p, p? = some p → AccountsFor least p) (n : Nat) :
    AccountsAfter [⟨t, n⟩] 1 (nested n p?) := by
  cases p? with
  | none => exact fun ts => .tooDeep [⟨t, n⟩] ts (List.mem_singleton_self _) ht
  | some p => exact (hp p rfl).after [⟨t, n⟩]

/-- A semicolon at the end is consumed too. -/
theorem AccountsAfter.terminated {p : Parser α} (hp : AccountsFor least p) :
    AccountsFor least (terminated p) :=
  hp.bind_expect .semicolon

end Parser

namespace Expr

open FlatScript.Parser

variable {p : Parser Expr} {least : Nat}

/-- A chain that is too tall is so at one of its operators. -/
theorem chainFrom_accounts (accepts : Operator → Bool) (hp : AccountsFor least p) (left : Expr)
    (height : Nat) (ts : Tokens) : Accounts 0 ts (chainFrom accepts p left height ts) := by
  fun_induction chainFrom accepts p left height ts with
  | case1 left height => exact .parsed [] [] (Nat.le_refl _)
  | case2 left height t rest hop => exact .parsed [] (t :: rest) (Nat.le_refl _)
  | case3 left height t rest op hop ha e after hrun => exact ((hp.after [t]).of_run hrun).pass
  | case4 left height t rest op hop ha right after hrun taller hh =>
    -- The operand is consumed before the height is looked at, but its operator is blamed.
    obtain ⟨consumed, hrest, -⟩ := (hp.of_run hrun).exists_consumed
    have hdeep : t.val.deepens = true := Token.deepens_of_operator? hop
    rw [List.nil_append] at hrest
    rw [hrest]
    exact .tooDeep (t :: consumed) after List.mem_cons_self hdeep
  | case5 left height t rest op hop ha right after hrun taller hh ih =>
    exact (((hp.after [t]).of_run hrun).andThen ih).mono (Nat.zero_le _)
  | case6 left height t rest op hop ha => exact .parsed [] (t :: rest) (Nat.le_refl _)

/-- A chain accounts for its tokens if its operands do. -/
theorem chain_accounts (accepts : Operator → Bool) (hp : AccountsFor least p) :
    AccountsFor least (chain accepts p) := by
  have hrest : ∀ left,
      AccountsFor 0 ⟨chainFrom accepts p left left.height,
        chainFrom_suffix accepts p left left.height⟩ :=
    fun left => chainFrom_accounts accepts hp left left.height
  exact hp.bind hrest

theorem productsOf_accounts (hp : AccountsFor least p) : AccountsFor least (productsOf p) :=
  chain_accounts isFactor hp

theorem sumsOf_accounts (hp : AccountsFor least p) : AccountsFor least (sumsOf p) :=
  chain_accounts isTerm (productsOf_accounts hp)

theorem comparisonsOf_accounts (hp : AccountsFor least p) : AccountsFor least (comparisonsOf p) :=
  chain_accounts Operator.isComparison (sumsOf_accounts hp)

/-- One level of signs and parentheses. -/
theorem unaryOf_accounts {p? : Option (Parser Expr)}
    (hp : ∀ p, p? = some p → AccountsFor 1 p) : AccountsFor 1 (unaryOf p?) := by
  refine accountsFor_next? "an expression" rfl fun t => ?_
  obtain ⟨val, n⟩ := t
  cases val with
  | minus => exact (accountsAfter_nested rfl hp n).map fun e => Expr.negate e n
  | leftParen =>
    have hinside : ∀ q, p?.map comparisonsOf = some q → AccountsFor 1 q := by
      intro q hq
      obtain ⟨p, hp?, rfl⟩ := Option.map_eq_some_iff.1 hq
      exact comparisonsOf_accounts (hp p hp?)
    exact (accountsAfter_nested rfl hinside n).bind_expect .rightParen
  | integer k => exact accountsAfter_pure (Expr.literal (.integer k) n) [_]
  | real x => exact accountsAfter_pure (Expr.literal (.real x) n) [_]
  | bool b => exact accountsAfter_pure (Expr.literal (.bool b) n) [_]
  | str s => exact accountsAfter_pure (Expr.literal (.str s) n) [_]
  | identifier name => exact accountsAfter_pure (Expr.var name n) [_]
  | _ => exact accountsAfter_unexpected _ _

/-- Operands account for their tokens, in every room. -/
theorem unary_accounts : ∀ room, AccountsFor 1 (unary room)
  | 0 => unaryOf_accounts fun _ hp => by cases hp
  | room + 1 => unaryOf_accounts fun _ hp => Option.some.inj hp ▸ unary_accounts room

/-- Expressions account for their tokens, in every room. -/
theorem parser_accounts (room : Nat) : AccountsFor 1 (parser room) :=
  comparisonsOf_accounts (unary_accounts room)

end Expr

namespace Stmt

open FlatScript.Parser

/-- A body that ends too early leaves no tokens. -/
theorem bodyFrom_accounts {p : Parser Stmt} (hp : AccountsFor 1 p) (ts : Tokens) :
    Accounts 1 ts (bodyFrom p ts) := by
  fun_induction bodyFrom p ts with
  | case1 ts e after hrun => exact (hp.terminated.of_run hrun).pass
  | case2 ts s hrun => exact .ended
  | case3 ts s t after hrun hbrace =>
    have hlast : Accounts 1 (t :: after) (Except.ok [s], after) := .parsed [t] after (Nat.le_refl _)
    exact (hp.terminated.of_run hrun).andThen hlast
  | case4 ts s t after hrun hbrace ss rest hrest ih =>
    rw [hrest] at ih
    exact (hp.terminated.of_run hrun).andThen (ih.result (s :: ss))
  | case5 ts s t after hrun hbrace e rest hrest ih =>
    rw [hrest] at ih
    exact (hp.terminated.of_run hrun).andThen ih

theorem blockOf_accounts {p? : Option (Parser Stmt)} (hp : ∀ p, p? = some p → AccountsFor 1 p) :
    AccountsFor 1 (blockOf p?) := by
  have hinside : ∀ q, p?.map body = some q → AccountsFor 1 q := by
    intro q hq
    obtain ⟨p, hp?, rfl⟩ := Option.map_eq_some_iff.1 hq
    exact bodyFrom_accounts (hp p hp?)
  exact accountsFor_expect fun n =>
    (accountsAfter_nested rfl hinside n).map fun ss => Stmt.block ss n

theorem conditionOf_accounts {p : Parser Expr} (hp : AccountsFor 1 p) :
    AccountsFor 1 (conditionOf p) :=
  accountsFor_expect fun k => (hp.after [⟨.leftParen, k⟩]).bind_expect .rightParen

theorem statementOf_accounts {p : Parser Expr} {b : Parser Stmt} (hp : AccountsFor 1 p)
    (hb : AccountsFor 1 b) : AccountsFor 1 (statementOf p b) := by
  refine accountsFor_next? "a statement" rfl fun t => ?_
  have hcondition := (conditionOf_accounts hp).after [t]
  obtain ⟨val, n⟩ := t
  cases val with
  | printWord => exact hcondition.map fun e => Stmt.print e n
  | identifier name =>
    have hvalue : AccountsFor 1 (expect .equals >>= fun _ => p >>= fun e =>
        pure (Stmt.assign name e n)) :=
      accountsFor_expect fun k => (hp.after [⟨.equals, k⟩]).map fun e => Stmt.assign name e n
    exact hvalue.after [_]
  | ifWord =>
    refine hcondition.bind fun c => hb.bind fun s => (?_ : AccountsFor 0 _)
    -- Without an `else` after it, the statement ends with its block.
    intro ts
    cases ts with
    | nil => exact .parsed [] [] (Nat.le_refl _)
    | cons u rest =>
      obtain ⟨val', m⟩ := u
      cases val' with
      | elseWord =>
        have helse := ((hb.after [⟨.elseWord, m⟩]).map fun t => Stmt.ifElse c s t n) rest
        exact helse.mono (Nat.zero_le _)
      | _ => exact .parsed [] _ (Nat.le_refl _)
  | whileWord => exact hcondition.bind fun c => hb.map fun s => Stmt.loop c s n
  | _ => exact accountsAfter_unexpected _ _

/-- Statements account for their tokens, in every room. -/
theorem parser_accounts : ∀ room, AccountsFor 1 (parser room)
  | 0 => statementOf_accounts (Expr.parser_accounts 0) (blockOf_accounts fun _ hp => by cases hp)
  | room + 1 =>
    statementOf_accounts (Expr.parser_accounts (room + 1))
      (blockOf_accounts fun _ hp => Option.some.inj hp ▸ parser_accounts room)

/-- Blocks account for their tokens, in every room. -/
theorem blockParser_accounts : ∀ room, AccountsFor 1 (blockParser room)
  | 0 => blockOf_accounts fun _ hp => by cases hp
  | room + 1 => blockOf_accounts fun _ hp => Option.some.inj hp ▸ parser_accounts room

end Stmt

namespace Program

open FlatScript.Parser

variable {ts : Tokens} {e : ParseError}

/-- An error of some statements accounts for the tokens up to it. -/
theorem statements_accounts (h : statements ts = .error e) :
    ∃ rest, Accounts 1 ts ((.error e, rest) : Except ParseError Program × Tokens) := by
  have hstatement := (Stmt.parser_accounts Expr.maxNesting).terminated
  fun_induction statements ts with
  | case1 => cases h
  | case2 t ts e' rest hrun =>
    obtain rfl := Except.error.inj h
    exact ⟨rest, (hstatement.of_run hrun).pass⟩
  | case3 t ts s rest hrun ss hrest ih => cases h
  | case4 t ts s rest hrun e' hrest ih =>
    obtain rfl := Except.error.inj h
    obtain ⟨rest', hlater⟩ := ih hrest
    exact ⟨rest', (hstatement.of_run hrun).andThen hlater⟩

/-- The line of a boolean sum is that of a sign `+` among the tokens. -/
theorem exists_plus_of_validate {p : Program} {n : Nat} (hst : statements ts = .ok p)
    (hvalid : validate p = .error ⟨.booleanAddition, n⟩) :
    ∃ t ∈ ts, t.val = .plus ∧ t.line = n := by
  have hsum : p.booleanSum? = some n := by
    unfold validate at hvalid
    split at hvalid
    · rename_i m hm
      cases hvalid
      exact hm
    · cases hvalid
  rw [booleanSum?_eq_sums] at hsum
  obtain ⟨sum, hfind, hline⟩ := Option.map_eq_some_iff.1 hsum
  obtain ⟨d, -, hder, -⟩ := statements_eq_ok_iff.1 hst
  have hmem : n ∈ plusLines ts := by
    rw [hder.plusLines_eq]
    exact List.mem_map.2 ⟨sum, List.mem_of_find?_eq_some hfind, hline⟩
  obtain ⟨t, ht, rfl⟩ := List.mem_map.1 hmem
  obtain ⟨ht, hplus⟩ := List.mem_filter.1 ht
  exact ⟨t, ht, of_decide_eq_true hplus, rfl⟩

/-- **Every error of a program stands on the line of one of its tokens**, and one at
their end on that of the last. -/
theorem parse_error_cases (h : parse ts = .error e) :
    (∃ us t expected, ts = us ++ [t] ∧ e = ⟨.endOfInput expected, t.line⟩) ∨
      (∀ expected, e.val ≠ .endOfInput expected) ∧ ∃ t ∈ ts, t.line = e.line := by
  rcases parse_cases ts with ⟨e', hst, hparse⟩ | ⟨p, n, hst, hvalid, hparse⟩ | ⟨p, -, -, hparse⟩
  · obtain rfl := Except.error.inj (h.symm.trans hparse)
    obtain ⟨rest, haccounts⟩ := statements_accounts hst
    cases haccounts with
    | unexpected consumed t rest =>
      exact .inr ⟨by simp, t, List.mem_append_right consumed List.mem_cons_self, rfl⟩
    | @ended _ expected =>
      -- The placeholder on line 0 is replaced: there is a last token, since no tokens parse.
      have hne : ts ≠ [] := by
        rintro rfl
        simp [statements] at hst
      obtain ⟨us, t, rfl⟩ := (List.eq_nil_or_concat ts).resolve_left hne
      rw [List.concat_eq_append, lastLine_append (by simp) us]
      exact .inl ⟨us, t, expected, rfl, rfl⟩
    | @tooDeep t consumed rest ht hdeep =>
      exact .inr ⟨by simp, t, List.mem_append_left rest ht, rfl⟩
  · obtain rfl := Except.error.inj (h.symm.trans hparse)
    obtain ⟨t, ht, -, hline⟩ := exists_plus_of_validate hst hvalid
    exact .inr ⟨by simp, t, ht, hline⟩
  · rw [h] at hparse
    cases hparse

/-- **Every answer names the tokens that it comes from.**  With any room, the parsers of
expressions, sums, products, statements and blocks consume at least one token for a
result; an unexpected token is the last one consumed; at the end of the tokens none are
left; and what is too deep is so at a consumed parenthesis, brace, sign or operator.  A
program whose tokens end too early has a last token, on whose line the error stands, and
so every error stands on the line of a token. -/
theorem parse_accounts (room : Nat) (ts : Tokens) :
    (Accounts 1 ts ((Expr.parser room).run ts) ∧ Accounts 1 ts ((Expr.additive room).run ts) ∧
      Accounts 1 ts ((Expr.multiplicative room).run ts) ∧
        Accounts 1 ts ((Stmt.parser room).run ts) ∧
          Accounts 1 ts ((Stmt.blockParser room).run ts)) ∧
      (∀ expected n, parse ts = .error ⟨.endOfInput expected, n⟩ →
        ∃ us t, ts = us ++ [t] ∧ t.line = n) ∧
      ∀ e, parse ts = .error e → ∃ t ∈ ts, t.line = e.line := by
  have hunary := Expr.unary_accounts room
  refine ⟨⟨Expr.parser_accounts room ts, Expr.sumsOf_accounts hunary ts,
    Expr.productsOf_accounts hunary ts, Stmt.parser_accounts room ts,
    Stmt.blockParser_accounts room ts⟩, fun expected n h => ?_, fun e h => ?_⟩
  · rcases parse_error_cases h with ⟨us, t, expected', hts, he⟩ | ⟨hval, -⟩
    · exact ⟨us, t, hts, (congrArg Located.line he).symm⟩
    · exact absurd rfl (hval expected)
  · rcases parse_error_cases h with ⟨us, t, expected, rfl, rfl⟩ | ⟨-, hline⟩
    · exact ⟨t, by simp, rfl⟩
    · exact hline

/-- A loop whose tokens end after a sign on line 3: the error of the program stands
there.  Without room for a block, the statement is refused before that, for its brace on
line 2. -/
theorem parse_accounts_cutOff :
    let ts := tokensOf "while (x < 2)\n\x7b print(x\n-"
    (parse ts = .error ⟨.endOfInput "an expression", 3⟩ ∧ (∃ us t, ts = us ++ [t] ∧ t.line = 3) ∧
        ∃ t ∈ ts, t.line = 3) ∧
      (Stmt.parser 0).run ts = (.error ⟨.tooDeep, 2⟩, ts.drop 7) ∧
        Accounts 1 ts ((Stmt.parser 0).run ts) := by
  intro ts
  have hparse : parse ts = .error ⟨.endOfInput "an expression", 3⟩ := by with_unfolding_all rfl
  obtain ⟨⟨-, -, -, hstatement, -⟩, hended, hline⟩ := parse_accounts 0 ts
  exact ⟨⟨hparse, hended _ _ hparse, hline _ hparse⟩, by with_unfolding_all rfl, hstatement⟩

end Program
end FlatScript
