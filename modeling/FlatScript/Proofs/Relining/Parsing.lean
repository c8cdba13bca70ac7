/-
# Parsing renumbered tokens

A parser of renumbered tokens answers as it does on the tokens themselves, with
the same tree or the same error on renumbered lines, and leaves the same tokens
(`Parser.Follows`).  One rule for each way to build a parser leads from single
tokens to whole programs (`Program.parse_map_reline`).

The rules keep to more than that: a parser with more room answers as one with
less, wherever that one does not run out of room.  `more` says whether the
second parser of `Follows` may have more room than the first.
-/

import FlatScript.Program
import FlatScript.Proofs.Relining

namespace FlatScript

/-- The error on its renumbered line.  An error at the end of the tokens has no
line yet, which stays so. -/
def ParseError.renumber (f : Nat → Nat) (e : ParseError) : ParseError :=
  match e.val with
  | .endOfInput _ => e
  | _ => Located.reline f e

/-- An error is placed at the end of the input before or after it is renumbered. -/
theorem ParseError.atEndOfInput_renumber (f : Nat → Nat) (e : ParseError) (n : Nat) :
    atEndOfInput (e.renumber f) (f n) = Located.reline f (atEndOfInput e n) := by
  obtain ⟨fault, k⟩ := e
  cases fault <;> rfl

theorem ParseError.renumber_id (e : ParseError) : e.renumber id = e := by
  obtain ⟨fault, k⟩ := e
  cases fault <;> rfl

namespace Parser

variable {α β γ δ : Type} {more : Prop} {f : Nat → Nat} {g : α → β} {h : γ → δ}

/-- The answer of a parser, its lines renumbered and its result changed by `g`. -/
def relined (f : Nat → Nat) (g : α → β) :
    Except ParseError α × Tokens → Except ParseError β × Tokens
  | (.ok a, rest) => (.ok (g a), rest.map (Located.reline f))
  | (.error e, rest) => (.error (e.renumber f), rest.map (Located.reline f))

/-- The second answer is the first one, renumbered, or the first parser ran out of
the room of which the second may have more. -/
def Agrees (more : Prop) (f : Nat → Nat) (g : α → β) (x : Except ParseError α × Tokens)
    (y : Except ParseError β × Tokens) : Prop :=
  y = relined f g x ∨ more ∧ ∃ n rest, x = (.error ⟨.tooDeep, n⟩, rest)

/-- What agrees with a result is that result, renumbered. -/
theorem Agrees.of_ok {a : α} {rest : Tokens} {y : Except ParseError β × Tokens}
    (hy : Agrees more f g (.ok a, rest) y) : y = (.ok (g a), rest.map (Located.reline f)) := by
  refine hy.resolve_right ?_
  rintro ⟨-, n, last, hdeep⟩
  cases hdeep

/-- What agrees with an error is that error, renumbered, or had more room. -/
theorem Agrees.of_error {e : ParseError} {rest : Tokens} {y : Except ParseError β × Tokens}
    (hy : Agrees more f g (.error e, rest) y) :
    y = (.error (e.renumber f), rest.map (Located.reline f)) ∨ more ∧ ∃ n, e = ⟨.tooDeep, n⟩ := by
  refine hy.imp_right ?_
  rintro ⟨hmore, n, last, hdeep⟩
  exact ⟨hmore, n, Except.error.inj (Prod.mk.inj hdeep).1⟩

/-- `Follows more f g p q`: the parser `q` answers on renumbered tokens as `p` does
on the tokens. -/
def Follows (more : Prop) (f : Nat → Nat) (g : α → β) (p : Parser α) (q : Parser β) : Prop :=
  ∀ ts, Agrees more f g (p.run ts) (q.run (ts.map (Located.reline f)))

/-- A parser that follows another has its results, renumbered. -/
theorem Follows.run_of_ok {p : Parser α} {q : Parser β} {ts rest : Tokens} {a : α}
    (hp : Follows more f g p q) (hrun : p.run ts = (.ok a, rest)) :
    q.run (ts.map (Located.reline f)) = (.ok (g a), rest.map (Located.reline f)) := by
  have hagrees := hp ts
  rw [hrun] at hagrees
  exact hagrees.of_ok

/-- A parser that follows another has its errors, renumbered, or more room. -/
theorem Follows.run_of_error {p : Parser α} {q : Parser β} {ts rest : Tokens} {e : ParseError}
    (hp : Follows more f g p q) (hrun : p.run ts = (.error e, rest)) :
    q.run (ts.map (Located.reline f)) = (.error (e.renumber f), rest.map (Located.reline f)) ∨
      more ∧ ∃ n, e = ⟨.tooDeep, n⟩ := by
  have hagrees := hp ts
  rw [hrun] at hagrees
  exact hagrees.of_error

theorem follows_pure (a : α) : Follows more f g (pure a) (pure (g a)) :=
  fun _ => .inl rfl

theorem follows_fail (e : ParseError) :
    Follows more f g (fail e) (fail (e.renumber f)) :=
  fun _ => .inl rfl

/-- Parsers follow each other one after the other. -/
theorem Follows.bind {p : Parser α} {q : Parser β} {k : α → Parser γ} {k' : β → Parser δ}
    (hp : Follows more f g p q) (hk : ∀ a, Follows more f h (k a) (k' (g a))) :
    Follows more f h (p >>= k) (q >>= k') := by
  intro ts
  rw [run_bind, run_bind]
  cases hrun : p.run ts with
  | mk answer rest =>
    cases answer with
    | ok a =>
      rw [hp.run_of_ok hrun]
      exact hk a rest
    | error e =>
      rcases hp.run_of_error hrun with hq | ⟨hmore, n, rfl⟩
      · rw [hq]
        exact .inl rfl
      · exact .inr ⟨hmore, n, rest, rfl⟩

theorem follows_next? : Follows more f (Option.map (Located.reline f)) next? next? := by
  intro ts
  left
  simp [next?, relined, List.map_tail]

theorem follows_peek? : Follows more f (Option.map (Located.reline f)) peek? peek? := by
  intro ts
  left
  simp [peek?, relined]

/-- An expected token does not depend on lines. -/
theorem follows_expect (t : Token) : Follows more f f (expect t) (expect t) := by
  intro ts
  left
  rw [run_expect, run_expect]
  cases ts with
  | nil => rfl
  | cons u rest =>
    dsimp only [List.map_cons]
    by_cases hu : u.val = t
    · rw [if_pos hu]
      exact if_pos hu
    · rw [if_neg hu]
      exact if_neg hu

theorem Follows.terminated {p : Parser α} {q : Parser β} (hp : Follows more f g p q) :
    Follows more f g (terminated p) (terminated q) :=
  hp.bind fun a => (follows_expect .semicolon).bind fun _ => follows_pure a

/-- Parsers of what is nested one level further in, if there is room for it. -/
inductive FollowsInside (more : Prop) (f : Nat → Nat) (g : α → β) :
    Option (Parser α) → Option (Parser β) → Prop where
  | inside {p : Parser α} {q : Parser β} (hp : Follows more f g p q) :
      FollowsInside more f g (some p) (some q)
  | noRoom : FollowsInside more f g none none
  | moreRoom (hmore : more) (q? : Option (Parser β)) : FollowsInside more f g none q?

namespace FollowsInside

variable {p? : Option (Parser α)} {q? : Option (Parser β)}

/-- What follows inside still does when both are changed alike. -/
theorem map {k : Parser α → Parser γ} {k' : Parser β → Parser δ}
    (hp : FollowsInside more f g p? q?)
    (hk : ∀ {p q}, Follows more f g p q → Follows more f h (k p) (k' q)) :
    FollowsInside more f h (p?.map k) (q?.map k') := by
  cases hp with
  | inside hp => exact .inside (hk hp)
  | noRoom => exact .noRoom
  | moreRoom hmore q? => exact .moreRoom hmore _

/-- What follows inside follows, but for the nesting that only one has room for. -/
theorem nested (hp : FollowsInside more f g p? q?) (n : Nat) :
    Follows more f g (nested n p?) (nested (f n) q?) := by
  cases hp with
  | inside hp => exact hp
  | noRoom => exact follows_fail ⟨.tooDeep, n⟩
  | moreRoom hmore q? => exact fun ts => .inr ⟨hmore, n, ts, rfl⟩

end FollowsInside
end Parser

namespace Expr

open FlatScript.Parser

variable {more : Prop} {f : Nat → Nat} {p q : Parser Expr}

/-- A chain of renumbered operands goes on as before: the height of a node does not
depend on its lines. -/
theorem chainFrom_agrees (accepts : Operator → Bool) (hp : Follows more f (reline f) p q)
    (left : Expr) (height : Nat) (ts : Tokens) :
    Agrees more f (reline f) (chainFrom accepts p left height ts)
      (chainFrom accepts q (left.reline f) height (ts.map (Located.reline f))) := by
  fun_induction chainFrom accepts p left height ts with
  | case1 left height =>
    rw [chainFrom_eq accepts q]
    exact .inl rfl
  | case2 left height t rest hop =>
    rw [chainFrom_eq accepts q]
    simp only [List.map_cons, Located.val_reline, hop]
    exact .inl rfl
  | case3 left height t rest op hop ha e after hrun =>
    rw [chainFrom_eq accepts q]
    simp only [List.map_cons, Located.val_reline, hop, if_pos ha]
    rcases hp.run_of_error hrun with hq | ⟨hmore, n, rfl⟩
    · rw [hq]
      exact .inl rfl
    · exact .inr ⟨hmore, n, after, rfl⟩
  | case4 left height t rest op hop ha right after hrun taller hh =>
    have hq := hp.run_of_ok hrun
    have hh' : maxHeight < max height right.height + 1 := hh
    rw [chainFrom_eq accepts q]
    simp only [List.map_cons, Located.val_reline, hop, if_pos ha, hq, height_reline]
    exact .inl (if_pos hh')
  | case5 left height t rest op hop ha right after hrun taller hh ih =>
    have hq := hp.run_of_ok hrun
    have hh' : ¬ maxHeight < max height right.height + 1 := hh
    rw [chainFrom_eq accepts q]
    simp only [List.map_cons, Located.val_reline, hop, if_pos ha, hq, height_reline, if_neg hh']
    exact ih
  | case6 left height t rest op hop ha =>
    rw [chainFrom_eq accepts q]
    simp only [List.map_cons, Located.val_reline, hop, if_neg ha]
    exact .inl rfl

theorem chain_follows (accepts : Operator → Bool) (hp : Follows more f (reline f) p q) :
    Follows more f (reline f) (chain accepts p) (chain accepts q) := by
  refine hp.bind fun left ts => ?_
  show Agrees more f (reline f) _ (chainFrom accepts q _ (left.reline f).height _)
  rw [height_reline]
  exact chainFrom_agrees accepts hp left left.height ts

theorem productsOf_follows (hp : Follows more f (reline f) p q) :
    Follows more f (reline f) (productsOf p) (productsOf q) :=
  chain_follows isFactor hp

theorem sumsOf_follows (hp : Follows more f (reline f) p q) :
    Follows more f (reline f) (sumsOf p) (sumsOf q) :=
  chain_follows isTerm (productsOf_follows hp)

theorem comparisonsOf_follows (hp : Follows more f (reline f) p q) :
    Follows more f (reline f) (comparisonsOf p) (comparisonsOf q) :=
  chain_follows Operator.isComparison (sumsOf_follows hp)

/-- One level of signs and parentheses. -/
theorem unaryOf_follows {p? q? : Option (Parser Expr)}
    (hp : FollowsInside more f (reline f) p? q?) :
    Follows more f (reline f) (unaryOf p?) (unaryOf q?) := by
  refine follows_next?.bind fun found => ?_
  cases found with
  | none => exact follows_fail _
  | some t =>
    obtain ⟨val, n⟩ := t
    cases val with
    | minus => exact (hp.nested n).bind fun e => follows_pure (Expr.negate e n)
    | leftParen =>
      exact ((hp.map comparisonsOf_follows).nested n).bind fun e =>
        (follows_expect .rightParen).bind fun _ => follows_pure e
    | integer k => exact follows_pure (Expr.literal (.integer k) n)
    | real x => exact follows_pure (Expr.literal (.real x) n)
    | bool b => exact follows_pure (Expr.literal (.bool b) n)
    | str s => exact follows_pure (Expr.literal (.str s) n)
    | identifier name => exact follows_pure (Expr.var name n)
    | _ => exact follows_fail _

/-- **The parser of expressions follows.** -/
theorem unary_follows : ∀ {room room' : Nat}, room ≤ room' → (room < room' → more) →
    Follows more f (reline f) (unary room) (unary room')
  | 0, 0, _, _ => unaryOf_follows .noRoom
  | 0, room' + 1, _, hmore => unaryOf_follows (.moreRoom (hmore (Nat.succ_pos room')) _)
  | _ + 1, _ + 1, hle, hmore =>
    unaryOf_follows (.inside (unary_follows (Nat.le_of_succ_le_succ hle)
      fun hlt => hmore (Nat.succ_lt_succ hlt)))

/-- Expressions follow in the same room, or in more. -/
theorem parser_follows {room room' : Nat} (hle : room ≤ room') (hmore : room < room' → more) :
    Follows more f (reline f) (parser room) (parser room') :=
  comparisonsOf_follows (unary_follows hle hmore)

end Expr

namespace Stmt

open FlatScript.Parser

variable {more : Prop} {f : Nat → Nat}

/-- The statements up to a brace agree if each of them does. -/
theorem bodyFrom_agrees {p q : Parser Stmt} (hp : Follows more f (reline f) p q) (ts : Tokens) :
    Agrees more f (relineAll f) (bodyFrom p ts) (bodyFrom q (ts.map (Located.reline f))) := by
  fun_induction bodyFrom p ts with
  | case1 ts e after hrun =>
    rw [bodyFrom_eq q]
    rcases hp.terminated.run_of_error hrun with hq | ⟨hmore, n, rfl⟩
    · rw [hq]
      exact .inl rfl
    · exact .inr ⟨hmore, n, after, rfl⟩
  | case2 ts s hrun =>
    rw [bodyFrom_eq q, hp.terminated.run_of_ok hrun]
    exact .inl rfl
  | case3 ts s t after hrun hbrace =>
    rw [bodyFrom_eq q, hp.terminated.run_of_ok hrun]
    exact .inl (if_pos hbrace)
  | case4 ts s t after hrun hbrace ss rest hrest ih =>
    rw [hrest, List.map_cons] at ih
    rw [bodyFrom_eq q, hp.terminated.run_of_ok hrun, List.map_cons]
    dsimp only
    rw [ih.of_ok]
    exact .inl (if_neg hbrace)
  | case5 ts s t after hrun hbrace e rest hrest ih =>
    rw [hrest, List.map_cons] at ih
    rw [bodyFrom_eq q, hp.terminated.run_of_ok hrun, List.map_cons]
    dsimp only
    rcases ih.of_error with hq | ⟨hmore, n, rfl⟩
    · rw [hq]
      exact .inl (if_neg hbrace)
    · exact .inr ⟨hmore, n, rest, rfl⟩

theorem body_follows {p q : Parser Stmt} (hp : Follows more f (reline f) p q) :
    Follows more f (relineAll f) (body p) (body q) :=
  bodyFrom_agrees hp

theorem blockOf_follows {p? q? : Option (Parser Stmt)}
    (hp : FollowsInside more f (reline f) p? q?) :
    Follows more f (reline f) (blockOf p?) (blockOf q?) :=
  (follows_expect .leftBrace).bind fun n =>
    ((hp.map body_follows).nested n).bind fun ss => follows_pure (Stmt.block ss n)

theorem conditionOf_follows {p q : Parser Expr} (hp : Follows more f (Expr.reline f) p q) :
    Follows more f (Expr.reline f) (conditionOf p) (conditionOf q) :=
  (follows_expect .leftParen).bind fun _ => hp.bind fun e =>
    (follows_expect .rightParen).bind fun _ => follows_pure e

theorem statementOf_follows {p q : Parser Expr} {b b' : Parser Stmt}
    (hp : Follows more f (Expr.reline f) p q) (hb : Follows more f (reline f) b b') :
    Follows more f (reline f) (statementOf p b) (statementOf q b') := by
  refine follows_next?.bind fun found => ?_
  cases found with
  | none => exact follows_fail _
  | some t =>
    obtain ⟨val, n⟩ := t
    cases val with
    | printWord => exact (conditionOf_follows hp).bind fun e => follows_pure (Stmt.print e n)
    | identifier name =>
      exact (follows_expect .equals).bind fun _ => hp.bind fun e =>
        follows_pure (Stmt.assign name e n)
    | ifWord =>
      refine (conditionOf_follows hp).bind fun c => hb.bind fun s =>
        follows_peek?.bind fun after => ?_
      cases after with
      | none => exact follows_pure (Stmt.ifThen c s n)
      | some u =>
        obtain ⟨val', m⟩ := u
        cases val' with
        | elseWord =>
          exact follows_next?.bind fun _ => hb.bind fun t => follows_pure (Stmt.ifElse c s t n)
        | _ => exact follows_pure (Stmt.ifThen c s n)
    | whileWord =>
      exact (conditionOf_follows hp).bind fun c => hb.bind fun s => follows_pure (Stmt.loop c s n)
    | _ => exact follows_fail _

/-- **The parser of statements follows.** -/
theorem parser_follows : ∀ {room room' : Nat}, room ≤ room' → (room < room' → more) →
    Follows more f (reline f) (parser room) (parser room')
  | 0, 0, hle, hmore =>
    statementOf_follows (Expr.parser_follows hle hmore) (blockOf_follows .noRoom)
  | 0, room' + 1, hle, hmore =>
    statementOf_follows (Expr.parser_follows hle hmore)
      (blockOf_follows (.moreRoom (hmore (Nat.succ_pos room')) _))
  | _ + 1, _ + 1, hle, hmore =>
    statementOf_follows (Expr.parser_follows hle hmore)
      (blockOf_follows (.inside (parser_follows (Nat.le_of_succ_le_succ hle)
        fun hlt => hmore (Nat.succ_lt_succ hlt))))

/-- Blocks follow in the same room, or in more. -/
theorem blockParser_follows : ∀ {room room' : Nat}, room ≤ room' → (room < room' → more) →
    Follows more f (reline f) (blockParser room) (blockParser room')
  | 0, 0, _, _ => blockOf_follows .noRoom
  | 0, room' + 1, _, hmore => blockOf_follows (.moreRoom (hmore (Nat.succ_pos room')) _)
  | _ + 1, _ + 1, hle, hmore =>
    blockOf_follows (.inside (parser_follows (Nat.le_of_succ_le_succ hle)
      fun hlt => hmore (Nat.succ_lt_succ hlt)))

end Stmt

namespace Expr

/-- The boolean sum of an expression moves with its line. -/
theorem booleanSum?_reline (f : Nat → Nat) (e : Expr) :
    (e.reline f).booleanSum? = e.booleanSum?.map f := by
  induction e with
  | literal v n => rfl
  | var x n => rfl
  | negate e n ih => exact ih
  | binary op l r n ihl ihr =>
    simp only [reline, booleanSum?, ihl, ihr, isBoolLiteral_reline, Option.orElse_eq_orElse,
      Option.orElse_eq_or, Option.map_or]
    split <;> rfl

end Expr

namespace Stmt

mutual

theorem booleanSum?_reline (f : Nat → Nat) :
    ∀ s : Stmt, (s.reline f).booleanSum? = s.booleanSum?.map f
  | .print e _ => e.booleanSum?_reline f
  | .assign _ e _ => e.booleanSum?_reline f
  | .ifThen c s _ => by
    simp only [reline, booleanSum?, c.booleanSum?_reline, booleanSum?_reline f s,
      Option.orElse_eq_orElse, Option.orElse_eq_or, Option.map_or]
  | .ifElse c s t _ => by
    simp only [reline, booleanSum?, c.booleanSum?_reline, booleanSum?_reline f s,
      booleanSum?_reline f t, Option.orElse_eq_orElse,
      Option.orElse_eq_or, Option.map_or]
  | .loop c s _ => by
    simp only [reline, booleanSum?, c.booleanSum?_reline, booleanSum?_reline f s,
      Option.orElse_eq_orElse, Option.orElse_eq_or, Option.map_or]
  | .block ss _ => booleanSums?_relineAll f ss

theorem booleanSums?_relineAll (f : Nat → Nat) :
    ∀ ss : List Stmt, booleanSums? (relineAll f ss) = (booleanSums? ss).map f
  | [] => rfl
  | s :: ss => by
    simp only [relineAll, booleanSums?, booleanSum?_reline f s, booleanSums?_relineAll f ss,
      Option.orElse_eq_orElse, Option.orElse_eq_or, Option.map_or]

end

end Stmt

namespace Program

/-- **Renumbered tokens are the renumbered statements**, or fail in the same way. -/
theorem statements_map_reline (f : Nat → Nat) (ts : Tokens) :
    statements (ts.map (Located.reline f)) =
      match statements ts with
      | .ok p => .ok (p.reline f)
      | .error e => .error (ParseError.renumber f e) := by
  have hstep : Parser.Follows False f (Stmt.reline f)
      (Parser.terminated (Stmt.parser Expr.maxNesting))
      (Parser.terminated (Stmt.parser Expr.maxNesting)) :=
    (Stmt.parser_follows (Nat.le_refl _) fun h => absurd h (Nat.lt_irrefl _)).terminated
  fun_induction statements ts with
  | case1 =>
    rw [List.map_nil, statements]
    rfl
  | case2 t ts e rest hrun =>
    have hq := (hstep.run_of_error hrun).resolve_right fun h => h.1
    rw [List.map_cons] at hq ⊢
    rw [statements_cons, hq]
  | case3 t ts s rest hrun ss hrest ih =>
    have hq := hstep.run_of_ok hrun
    rw [List.map_cons] at hq ⊢
    rw [hrest] at ih
    rw [statements_cons, hq]
    simp only [ih]
    rfl
  | case4 t ts s rest hrun e hrest ih =>
    have hq := hstep.run_of_ok hrun
    rw [List.map_cons] at hq ⊢
    rw [hrest] at ih
    rw [statements_cons, hq]
    simp only [ih]

/-- The last line is renumbered with the tokens. -/
theorem lastLine_map_reline (f : Nat → Nat) {ts : Tokens} (hne : ts ≠ []) :
    lastLine (ts.map (Located.reline f)) = f (lastLine ts) := by
  obtain ⟨us, t, rfl⟩ := (List.eq_nil_or_concat ts).resolve_left hne
  simp [lastLine]

/-- A program is refused on other lines for the same boolean sum. -/
theorem validate_reline (f : Nat → Nat) (p : Program) :
    validate (p.reline f) =
      match validate p with
      | .ok _ => .ok ()
      | .error e => .error (Located.reline f e) := by
  have hsum : (p.reline f).booleanSum? = p.booleanSum?.map f := Stmt.booleanSums?_relineAll f p
  rw [validate, validate, hsum]
  cases p.booleanSum? with
  | none => rfl
  | some n => rfl

/-- **Renumbered tokens are parsed to the renumbered program**, or to the same error
on its renumbered line. -/
theorem parse_map_reline (f : Nat → Nat) (ts : Tokens) :
    parse (ts.map (Located.reline f)) =
      match parse ts with
      | .ok p => .ok (p.reline f)
      | .error e => .error (Located.reline f e) := by
  rw [parse, parse, statements_map_reline]
  cases hst : statements ts with
  | error e =>
    have hne : ts ≠ [] := by
      rintro rfl
      simp [statements] at hst
    dsimp only
    rw [lastLine_map_reline f hne, ParseError.atEndOfInput_renumber]
  | ok p =>
    dsimp only
    rw [validate_reline]
    cases validate p with
    | ok _ => rfl
    | error e => rfl

/-- **Tokens further down are a program when they are one where they stand**, the
same one further down. -/
theorem parse_shift_iff {k : Nat} {ts : Tokens} {p : Program} :
    parse (ts.map (Located.shift k)) = .ok p ↔ ∃ q, parse ts = .ok q ∧ p = q.reline (· + k) := by
  have hshift : parse (ts.map (Located.shift k)) = _ := parse_map_reline (· + k) ts
  rw [hshift]
  cases parse ts with
  | ok q => simp [eq_comm]
  | error e => simp

end Program
end FlatScript
