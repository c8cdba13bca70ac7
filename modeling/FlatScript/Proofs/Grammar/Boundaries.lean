/-
# Where a program can be cut

A semicolon inside a statement stands inside a block, so more braces are open
there than closed.  Hence a semicolon with no brace open ends a statement of the
program itself, and the program can be cut after it: `Program.parse_append`
gives the two programs on either side.  Any two programs can be joined again
(`Program.parse_join`).

`Guarded d ts` is what the tokens of a statement satisfy, read from left to
right with `d` braces open: no brace is closed that was not opened, and a
semicolon needs an open brace.
-/

import FlatScript.Proofs.Grammar.Program

namespace FlatScript

/-- What a token adds to the number of open braces. -/
def Token.brace : Token → Int
  | .leftBrace => 1
  | .rightBrace => -1
  | _ => 0

/-- How many more braces the tokens open than they close. -/
def braceDepth : Tokens → Int
  | [] => 0
  | t :: ts => t.val.brace + braceDepth ts

@[simp] theorem braceDepth_nil : braceDepth [] = 0 := rfl

@[simp] theorem braceDepth_cons (t : Located Token) (ts : Tokens) :
    braceDepth (t :: ts) = t.val.brace + braceDepth ts := rfl

@[simp] theorem braceDepth_append (ts us : Tokens) :
    braceDepth (ts ++ us) = braceDepth ts + braceDepth us := by
  induction ts with
  | nil => simp
  | cons t ts ih => simp [ih, Int.add_assoc]

/-- With `d` braces open before the tokens, none is closed that was not opened,
and every semicolon stands inside an open brace. -/
def Guarded : Int → Tokens → Prop
  | _, [] => True
  | d, t :: ts => (t.val = .semicolon → 0 < d) ∧ 0 ≤ d + t.val.brace ∧ Guarded (d + t.val.brace) ts

/-- The second part of guarded tokens starts with the braces that the first leaves open. -/
theorem guarded_append_iff {d : Int} {ts us : Tokens} :
    Guarded d (ts ++ us) ↔ Guarded d ts ∧ Guarded (d + braceDepth ts) us := by
  induction ts generalizing d with
  | nil => simp [Guarded]
  | cons t ts ih => simp only [List.cons_append, Guarded, ih, braceDepth_cons, and_assoc,
      Int.add_assoc]

/-- More open braces before them guard tokens as well. -/
theorem Guarded.mono {d d' : Int} {ts : Tokens} (h : Guarded d ts) (hd : d ≤ d') :
    Guarded d' ts := by
  induction ts generalizing d d' with
  | nil => trivial
  | cons t ts ih =>
    obtain ⟨hsemi, hle, hrest⟩ := h
    exact ⟨fun ht => Int.lt_of_lt_of_le (hsemi ht) hd, by omega, ih hrest (by omega)⟩

/-- A semicolon at the end of guarded tokens has an open brace before it. -/
theorem Guarded.braceDepth_pos {d : Int} {ts : Tokens} {n : Nat}
    (h : Guarded d (ts ++ [⟨.semicolon, n⟩])) : 0 < d + braceDepth ts :=
  (guarded_append_iff.1 h).2.1 rfl

/-- Guarded tokens that close all the braces they open. -/
structure Sealed (d : Int) (ts : Tokens) : Prop where
  guarded : Guarded d ts
  depth : braceDepth ts = 0

/-- Sealed tokens one after the other are sealed. -/
theorem Sealed.append {d : Int} {ts us : Tokens} (h : Sealed d ts) (h' : Sealed d us) :
    Sealed d (ts ++ us) := by
  refine ⟨guarded_append_iff.2 ⟨h.guarded, ?_⟩, ?_⟩
  · rw [h.depth, Int.add_zero]
    exact h'.guarded
  · rw [braceDepth_append, h.depth, h'.depth, Int.add_zero]

/-- Braces around sealed tokens guard the semicolons among them. -/
theorem Sealed.braced {ts : Tokens} (h : Sealed 1 ts) (k m : Nat) : Sealed 0 (braced k m ts) := by
  refine ⟨⟨by simp, by simp [Token.brace], guarded_append_iff.2 ⟨h.guarded, ?_⟩⟩, ?_⟩
  · rw [h.depth]
    exact ⟨by simp, by simp [Token.brace], trivial⟩
  · simp [FlatScript.braced, h.depth, Token.brace]

/-- More open braces before them do not unseal tokens. -/
theorem Sealed.mono {d d' : Int} {ts : Tokens} (h : Sealed d ts) (hd : d ≤ d') : Sealed d' ts :=
  ⟨h.guarded.mono hd, h.depth⟩

/-- The tokens that an expression or the head of a statement is made of: neither
braces nor semicolons. -/
def Plain (ts : Tokens) : Prop :=
  ∀ t ∈ ts, t.val.brace = 0 ∧ t.val ≠ .semicolon

theorem Plain.cons {t : Located Token} {ts : Tokens} (h : Plain ts) (hb : t.val.brace = 0)
    (hs : t.val ≠ .semicolon) : Plain (t :: ts) :=
  List.forall_mem_cons.2 ⟨⟨hb, hs⟩, h⟩

/-- Plain tokens have no braces to close and no semicolons to guard. -/
theorem Plain.sealed {ts : Tokens} (h : Plain ts) : Sealed 0 ts := by
  induction ts with
  | nil => exact ⟨trivial, rfl⟩
  | cons t ts ih =>
    obtain ⟨⟨hb, hs⟩, hts⟩ := List.forall_mem_cons.1 h
    obtain ⟨hguarded, hdepth⟩ := ih hts
    refine ⟨⟨fun hsemi => absurd hsemi hs, by simp [hb], by simpa [hb] using hguarded⟩, ?_⟩
    rw [braceDepth_cons, hb, hdepth, Int.add_zero]

/-- An expression has neither braces nor semicolons. -/
theorem Expr.Derives.plain {tier : Tier} {d : Nat} {ts : Tokens} {e : Expr}
    (h : Derives tier d ts e) : Plain ts := by
  induction h with
  | @literal t v hv =>
    intro u hu
    obtain rfl := List.mem_singleton.1 hu
    obtain ⟨val, n⟩ := u
    cases val <;> simp [Token.literal?] at hv <;> exact ⟨rfl, by simp⟩
  | name x n =>
    intro u hu
    obtain rfl := List.mem_singleton.1 hu
    exact ⟨rfl, by simp⟩
  | group k m _ ih =>
    intro u hu
    simp only [parenthesized, List.mem_cons, List.mem_append, List.not_mem_nil, or_false] at hu
    rcases hu with rfl | hu | rfl
    · exact ⟨rfl, by simp⟩
    · exact ih u hu
    · exact ⟨rfl, by simp⟩
  | negation n _ ih => exact List.forall_mem_cons.2 ⟨⟨rfl, by simp⟩, ih⟩
  | operand _ _ ih => exact ih
  | @operator tier _ _ _ _ _ _ _ _ t _ hop _ _ ihl ihr =>
    refine List.forall_mem_append.2 ⟨ihl, List.forall_mem_cons.2 ⟨?_, ihr⟩⟩
    have htoken := (Tier.operator?_eq_some_iff.1 hop).1
    obtain ⟨val, n⟩ := t
    cases val <;> simp [Token.operator?] at htoken <;> exact ⟨rfl, by simp⟩

/-- An expression in parentheses is plain. -/
theorem Expr.Derives.plain_parenthesized {tier : Tier} {d : Nat} {ts : Tokens} {e : Expr}
    (h : Derives tier d ts e) (k m : Nat) : Plain (parenthesized k m ts) := by
  refine List.forall_mem_cons.2 ⟨⟨rfl, by simp⟩, List.forall_mem_append.2 ⟨h.plain, ?_⟩⟩
  exact List.forall_mem_singleton.2 ⟨rfl, by simp⟩

namespace Phrase

/-- How many braces are open around the statements of a phrase: those of a list
stand between its braces. -/
def outside : Phrase → Int
  | .statement _ | .block _ => 0
  | .statements _ => 1

end Phrase

namespace Derives

/-- **The tokens of a phrase close all braces that they open, and every semicolon
among them stands in an open brace.** -/
theorem sealed {d : Nat} {ts : Tokens} {f : Phrase} (h : Derives d ts f) :
    Sealed f.outside ts := by
  induction h with
  | print n k m he =>
    exact ((he.plain_parenthesized k m).cons rfl (by simp)).sealed
  | assign x n k he =>
    have hp : Plain (⟨.equals, k⟩ :: _) := he.plain.cons rfl (by simp)
    exact (hp.cons rfl (by simp)).sealed
  | ifThen n k m hc _ ih =>
    have hp : Plain (⟨.ifWord, n⟩ :: _) := (hc.plain_parenthesized k m).cons rfl (by simp)
    exact hp.sealed.append ih
  | ifElse n k m j hc _ _ ih ih' =>
    have hp : Plain (⟨.ifWord, n⟩ :: _) := (hc.plain_parenthesized k m).cons rfl (by simp)
    have he : Plain [⟨.elseWord, j⟩] := by simp [Plain, Token.brace]
    exact hp.sealed.append (ih.append (he.sealed.append ih'))
  | loop n k m hc _ ih =>
    have hp : Plain (⟨.whileWord, n⟩ :: _) := (hc.plain_parenthesized k m).cons rfl (by simp)
    exact hp.sealed.append ih
  | block n m _ _ ih => exact ih.braced n m
  | none => exact ⟨trivial, rfl⟩
  | next n _ _ ih ihs =>
    have hsemi : Sealed 1 [⟨.semicolon, n⟩] := ⟨⟨by simp, by simp [Token.brace], trivial⟩, rfl⟩
    exact (ih.mono Int.one_nonneg).append (hsemi.append ihs)

/-- No statements are no tokens at all, and others end with a semicolon. -/
theorem eq_nil_or_concat {d : Nat} {ts : Tokens} {ss : List Stmt}
    (h : Derives d ts (.statements ss)) :
    ts = [] ∧ ss = [] ∨ ss ≠ [] ∧ ∃ us n, ts = us ++ [⟨.semicolon, n⟩] := by
  induction ss generalizing d ts with
  | nil =>
    cases h
    exact .inl ⟨rfl, rfl⟩
  | cons s ss ih =>
    cases h with
    | @next _ _ us vs _ _ n hs hss =>
      refine .inr ⟨List.cons_ne_nil _ _, ?_⟩
      rcases ih hss with ⟨rfl, -⟩ | ⟨-, ws, m, rfl⟩
      · exact ⟨us, n, rfl⟩
      · exact ⟨us ++ ⟨.semicolon, n⟩ :: ws, m, by simp⟩

/-- Statements after statements are statements. -/
theorem append {d d' : Nat} {ts us : Tokens} {ss ss' : List Stmt}
    (h : Derives d ts (.statements ss)) (h' : Derives d' us (.statements ss')) :
    Derives (max d d') (ts ++ us) (.statements (ss ++ ss')) := by
  induction ss generalizing d ts with
  | nil =>
    cases h
    rwa [Nat.zero_max]
  | cons s ss ih =>
    cases h with
    | next n hs hss =>
      rw [Nat.max_assoc, List.append_assoc, List.cons_append]
      exact .next n hs (ih hss)

/-- **Statements can be cut after every semicolon that has no brace open.** -/
theorem split {d : Nat} {us vs : Tokens} {ss : List Stmt} (n : Nat)
    (h : Derives d (us ++ [⟨.semicolon, n⟩] ++ vs) (.statements ss)) (hdepth : braceDepth us ≤ 0) :
    ∃ d₁ d₂ ss₁ ss₂, d₁ ≤ d ∧ d₂ ≤ d ∧ ss = ss₁ ++ ss₂ ∧
      Derives d₁ (us ++ [⟨.semicolon, n⟩]) (.statements ss₁) ∧ Derives d₂ vs (.statements ss₂) := by
  induction ss generalizing d us with
  | nil =>
    generalize hts : us ++ [⟨.semicolon, n⟩] ++ vs = ts at h
    cases h
    simp at hts
  | cons s ss ih =>
    generalize hts : us ++ [⟨.semicolon, n⟩] ++ vs = ts at h
    cases h with
    | @next d d' as bs _ _ m hs hss =>
      obtain ⟨hguarded, has⟩ := hs.sealed
      rw [List.append_assoc, List.singleton_append] at hts
      -- The semicolon stands in the first statement, ends it, or stands behind it.
      rcases List.append_eq_append_iff.1 hts with ⟨cs, rfl, hcs⟩ | ⟨cs, rfl, hcs⟩
      · cases cs with
        | nil =>
          obtain ⟨rfl, rfl⟩ : n = m ∧ vs = bs := by simpa using hcs
          refine ⟨max d 0, d', [s], ss, by omega, by omega, rfl, ?_, hss⟩
          simpa using Derives.next n hs .none
        | cons t cs =>
          obtain ⟨rfl, -⟩ := List.cons.inj hcs
          rw [← List.singleton_append, ← List.append_assoc] at hguarded
          have hpos := (guarded_append_iff.1 hguarded).1.braceDepth_pos
          simp only [Phrase.outside] at hpos
          omega
      · cases cs with
        | nil =>
          obtain ⟨rfl, rfl⟩ : m = n ∧ bs = vs := by simpa using hcs
          refine ⟨max d 0, d', [s], ss, by omega, by omega, rfl, ?_, hss⟩
          simpa using Derives.next m hs .none
        | cons t cs =>
          obtain ⟨rfl, rfl⟩ := List.cons.inj hcs
          rw [braceDepth_append, has, braceDepth_cons] at hdepth
          have hcsdepth : braceDepth cs ≤ 0 := by simpa [Token.brace] using hdepth
          obtain ⟨d₁, d₂, ss₁, ss₂, hd₁, hd₂, rfl, h₁, h₂⟩ := ih (by simpa using hss) hcsdepth
          refine ⟨max d d₁, d₂, s :: ss₁, ss₂, by omega, by omega, rfl, ?_, h₂⟩
          simpa using Derives.next m hs h₁

end Derives

namespace Program

/-- **A program can be cut after every semicolon that has no brace open**: both
parts parse, and their statements together are the program's. -/
theorem parse_append {us vs : Tokens} {n : Nat} {p : Program}
    (h : parse (us ++ [⟨.semicolon, n⟩] ++ vs) = .ok p) (hdepth : braceDepth us ≤ 0) :
    ∃ p₁ p₂, p = p₁ ++ p₂ ∧ parse (us ++ [⟨.semicolon, n⟩]) = .ok p₁ ∧ parse vs = .ok p₂ := by
  obtain ⟨hst, hsum⟩ := parse_eq_ok_iff.1 h
  obtain ⟨d, hd, hder, hlow⟩ := statements_eq_ok_iff.1 hst
  obtain ⟨d₁, d₂, p₁, p₂, hd₁, hd₂, rfl, h₁, h₂⟩ := hder.split n hdepth
  have hnodes : nodes (p₁ ++ p₂) = nodes p₁ ++ nodes p₂ := Stmt.nodesOf_append p₁ p₂
  rw [hnodes] at hlow hsum
  obtain ⟨hlow₁, hlow₂⟩ := Expr.low_append_iff.1 hlow
  obtain ⟨hsum₁, hsum₂⟩ := List.forall_mem_append.1 hsum
  exact ⟨p₁, p₂, rfl,
    parse_eq_ok_iff.2 ⟨statements_eq_ok_iff.2 ⟨d₁, by omega, h₁, hlow₁⟩, hsum₁⟩,
    parse_eq_ok_iff.2 ⟨statements_eq_ok_iff.2 ⟨d₂, by omega, h₂, hlow₂⟩, hsum₂⟩⟩

/-- **Programs can be joined**: the tokens of two programs in a row are the
statements of both. -/
theorem parse_join {ts us : Tokens} {p q : Program} (hp : parse ts = .ok p)
    (hq : parse us = .ok q) : parse (ts ++ us) = .ok (p ++ q) := by
  obtain ⟨hst, hsum⟩ := parse_eq_ok_iff.1 hp
  obtain ⟨hst', hsum'⟩ := parse_eq_ok_iff.1 hq
  obtain ⟨d, hd, hder, hlow⟩ := statements_eq_ok_iff.1 hst
  obtain ⟨d', hd', hder', hlow'⟩ := statements_eq_ok_iff.1 hst'
  have hnodes : nodes (p ++ q) = nodes p ++ nodes q := Stmt.nodesOf_append p q
  refine parse_eq_ok_iff.2 ⟨statements_eq_ok_iff.2 ⟨_, ?_, hder.append hder', ?_⟩, ?_⟩
  · exact Nat.max_le.2 ⟨hd, hd'⟩
  · rw [hnodes]
    exact Expr.low_append_iff.2 ⟨hlow, hlow'⟩
  · rw [hnodes]
    exact List.forall_mem_append.2 ⟨hsum, hsum'⟩

/-- The tokens of a program close all braces that they open. -/
theorem braceDepth_of_parse {ts : Tokens} {p : Program} (h : parse ts = .ok p) :
    braceDepth ts = 0 := by
  obtain ⟨d, -, hder, -⟩ := statements_eq_ok_iff.1 (parse_eq_ok_iff.1 h).1
  exact hder.sealed.depth

/-- An empty program has no tokens at all, and the last token of any other is a
semicolon. -/
theorem eq_nil_or_concat_of_parse {ts : Tokens} {p : Program} (h : parse ts = .ok p) :
    ts = [] ∧ p = [] ∨ p ≠ [] ∧ ∃ us n, ts = us ++ [⟨.semicolon, n⟩] := by
  obtain ⟨d, -, hder, -⟩ := statements_eq_ok_iff.1 (parse_eq_ok_iff.1 h).1
  exact hder.eq_nil_or_concat

end Program
end FlatScript
