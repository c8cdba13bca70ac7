/-
# Parsers of tokens

A parser takes a list of tokens and answers with a result, or with an error,
and in both cases with the tokens that it has not consumed.  Those are always a
suffix of what it was given (`Parser.suffix`), which is what lets a repetition
that consumes a token in each round come to an end.

An error at the end of the tokens stands on line 0: the parser of a whole
program knows a better line and puts it there.
-/

import FlatScript.Token.Scan

namespace FlatScript

/-- Tokens on their lines, as a parser meets them. -/
abbrev Tokens := List (Located Token)

/-- A parser: a result or an error, and the tokens that are left. -/
structure Parser (α : Type) where
  run : Tokens → Except ParseError α × Tokens
  suffix : ∀ ts, (run ts).2 <:+ ts

namespace Parser

variable {α β : Type}

/-- No parser leaves more tokens than it is given. -/
theorem length_le (p : Parser α) (ts : Tokens) : (p.run ts).2.length ≤ ts.length :=
  (p.suffix ts).length_le

/-- Succeeds with `a`, consuming nothing. -/
def succeed (a : α) : Parser α where
  run ts := (.ok a, ts)
  suffix ts := List.suffix_refl ts

/-- Fails with `e`, consuming nothing. -/
def fail (e : ParseError) : Parser α where
  run ts := (.error e, ts)
  suffix ts := List.suffix_refl ts

/-- Runs `p`, then what `f` makes of its result on the tokens that are left. -/
def andThen (p : Parser α) (f : α → Parser β) : Parser β where
  run ts :=
    match p.run ts with
    | (.ok a, rest) => (f a).run rest
    | (.error e, rest) => (.error e, rest)
  suffix ts := by
    have hp := p.suffix ts
    split
    · rename_i a rest h
      rw [h] at hp
      exact ((f a).suffix rest).trans hp
    · rename_i e rest h
      rwa [h] at hp

instance : Monad Parser where
  pure := succeed
  bind := andThen

@[simp] theorem run_pure (a : α) (ts : Tokens) : (pure a : Parser α).run ts = (.ok a, ts) := rfl

@[simp] theorem run_fail (e : ParseError) (ts : Tokens) :
    (fail e : Parser α).run ts = (.error e, ts) := rfl

theorem run_bind (p : Parser α) (f : α → Parser β) (ts : Tokens) :
    (p >>= f).run ts =
      match p.run ts with
      | (.ok a, rest) => (f a).run rest
      | (.error e, rest) => (.error e, rest) := rfl

/-- A sequence succeeds when both of its parsers do, the second on the tokens
that the first leaves. -/
theorem run_bind_eq_ok_iff {p : Parser α} {f : α → Parser β} {ts rest : Tokens} {b : β} :
    (p >>= f).run ts = (.ok b, rest) ↔
      ∃ a middle, p.run ts = (.ok a, middle) ∧ (f a).run middle = (.ok b, rest) := by
  rw [run_bind]
  constructor
  · intro h
    split at h
    · rename_i a middle hp
      exact ⟨a, middle, hp, h⟩
    · simp at h
  · rintro ⟨a, middle, hp, hf⟩
    rw [hp]
    exact hf

/-- Consumes the next token, if there is one. -/
def next? : Parser (Option (Located Token)) where
  run ts := (.ok ts.head?, ts.tail)
  suffix ts := ts.tail_suffix

/-- Looks at the next token, if there is one, and leaves it. -/
def peek? : Parser (Option (Located Token)) where
  run ts := (.ok ts.head?, ts)
  suffix ts := List.suffix_refl ts

/-- The error of finding a token, or the end of the tokens, where `expected`
should start. -/
def unexpected (found : Option (Located Token)) (expected : String) : ParseError :=
  match found with
  | some t => ⟨.unexpectedToken t.val.text expected, t.line⟩
  | none => ⟨.endOfInput expected, 0⟩

/-- Consumes the next token, which must be `t`, and gives its line. -/
def expect (t : Token) : Parser Nat := do
  let found ← next?
  match found with
  | some u => if u.val = t then pure u.line else fail (unexpected found t.text)
  | none => fail (unexpected found t.text)

/-- Runs a parser of something nested that opened on `line`; without a parser
there is no room for it. -/
def nested (line : Nat) : Option (Parser α) → Parser α
  | some p => p
  | none => fail ⟨.tooDeep, line⟩

/-- Runs `p`, then consumes a semicolon. -/
def terminated (p : Parser α) : Parser α := do
  let a ← p
  let _ ← expect .semicolon
  pure a

/-- What an expected token makes of the tokens: its line, or an error about the one that
stands there, which is gone in both cases. -/
theorem run_expect (t : Token) (ts : Tokens) :
    (expect t).run ts =
      match ts with
      | u :: rest =>
        if u.val = t then (.ok u.line, rest) else (.error (unexpected (some u) t.text), rest)
      | [] => (.error (unexpected none t.text), []) := by
  cases ts with
  | nil => rfl
  | cons u rest =>
    simp only [expect, run_bind, next?, List.head?_cons, List.tail_cons]
    by_cases h : u.val = t <;> simp [h]

/-- An expected token is found exactly when it stands first. -/
theorem run_expect_eq_ok_iff {t : Token} {ts rest : Tokens} {n : Nat} :
    (expect t).run ts = (.ok n, rest) ↔ ts = ⟨t, n⟩ :: rest := by
  rw [run_expect]
  cases ts with
  | nil => simp
  | cons u us =>
    obtain ⟨val, line⟩ := u
    by_cases h : val = t <;> simp [h]

/-- Something nested is parsed exactly when there is room for it. -/
theorem run_nested_eq_ok_iff {n : Nat} {p? : Option (Parser α)} {ts rest : Tokens} {a : α} :
    (nested n p?).run ts = (.ok a, rest) ↔ ∃ p, p? = some p ∧ p.run ts = (.ok a, rest) := by
  cases p? <;> simp [nested]

/-- A terminated parser succeeds exactly when a semicolon stands after what it
parses. -/
theorem run_terminated_eq_ok_iff {p : Parser α} {ts rest : Tokens} {a : α} :
    (terminated p).run ts = (.ok a, rest) ↔
      ∃ n, p.run ts = (.ok a, ⟨.semicolon, n⟩ :: rest) := by
  rw [terminated, run_bind_eq_ok_iff]
  constructor
  · rintro ⟨b, middle, hp, h⟩
    obtain ⟨n, after, hn, hb⟩ := run_bind_eq_ok_iff.1 h
    rw [run_expect_eq_ok_iff] at hn
    obtain ⟨rfl, rfl⟩ : b = a ∧ after = rest := by simpa using hb
    exact ⟨n, by rw [hp, hn]⟩
  · rintro ⟨n, hp⟩
    exact ⟨a, _, hp, run_bind_eq_ok_iff.2 ⟨n, rest, run_expect_eq_ok_iff.2 rfl, rfl⟩⟩

/-- A parser with a semicolon after it consumes at least that. -/
theorem length_lt_of_terminated {p : Parser α} {ts rest : Tokens} {a : α}
    (h : (terminated p).run ts = (.ok a, rest)) : rest.length < ts.length := by
  obtain ⟨n, hp⟩ := run_terminated_eq_ok_iff.1 h
  have hle := p.length_le ts
  rw [hp, List.length_cons] at hle
  omega

end Parser
end FlatScript
