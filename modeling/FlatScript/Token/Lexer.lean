/-
# The lexer

A lexer takes tokens off a source, one after the other.  It knows the slice that it
took last, what is left after it, and a line.  The line is counted in two places
only, in runs of newlines and in strings:

| slice | what comes of it | line |
| --- | --- | --- |
| newlines | nothing, the lexer goes on | one more for each |
| blanks | nothing, the lexer goes on | as before |
| string | a token | one more for each newline in it |
| any other token | that token | as before |
| digits that are too large | a refusal | as before |
| anything else | a refusal | as before |

`Lexer.take` is this table.  `Lexer.item?` makes an item of what comes next: a token
stands on the line that the lexer has counted up to, but a string on that of its
opening quote, and a refused slice is named in its fault.

An opening quote is an attempt at a string.  If no other quote follows, the attempt
has run to the end of the source, and all of that is the slice.  Only the quote is at
fault, so the lexer starts again just behind it, on the line that it had
(`Lexer.resumeAfter`).  An item takes at least one character off the source, and so
there is a last one (`Lexer.length_of_item?`).
-/

import FlatScript.Token.Segment

namespace FlatScript

/-- A token, or text that is none, on its line. -/
abbrev Item := Located (Except LexFault Token)

/-- Why a slice is no token. -/
inductive Refusal where
  /-- No rule matches. -/
  | illegalCharacter
  /-- A run of digits above the largest integer. -/
  | integerTooLarge
  /-- A literal with a point that rounds to no finite float. -/
  | realTooLarge
deriving DecidableEq

/-- The number of newlines in a text. -/
def Segment.newlines (cs : List Char) : Nat :=
  cs.count '\n'

/-- A lexer on its way through a source. -/
structure Lexer where
  /-- The text that it took last. -/
  slice : List Char
  /-- What is left of the source. -/
  rest : List Char
  /-- The line that it has counted up to. -/
  line : Nat

namespace Lexer

open Segment (munch newlines)

/-- The lexer at the start of a source. -/
def start (source : List Char) (line : Nat) : Lexer :=
  ⟨[], source, line⟩

/-- Takes a slice off a source that starts with `c`.  Layout comes to nothing. -/
def take (line : Nat) (c : Char) (rest : List Char) : Option (Except Refusal Token) × Lexer :=
  let slice := (munch c rest).1.text
  let after := (munch c rest).2
  match (munch c rest).1.reading with
  | .ok .newline => (none, ⟨slice, after, line + slice.length⟩)
  | .ok .blank => (none, ⟨slice, after, line⟩)
  | .ok (.str s) => (some (.ok (.str s)), ⟨slice, after, line + newlines slice⟩)
  | .ok t => (some (.ok t), ⟨slice, after, line⟩)
  | .error (.integerTooLarge _) => (some (.error .integerTooLarge), ⟨slice, after, line⟩)
  | .error (.realTooLarge _) => (some (.error .realTooLarge), ⟨slice, after, line⟩)
  | .error (.illegalCharacter _) =>
    -- The attempt at a string has looked for its closing quote up to the end.
    if c = '"' then (some (.error .illegalCharacter), ⟨c :: rest, [], line⟩)
    else (some (.error .illegalCharacter), ⟨slice, after, line⟩)

/-- A slice and what is left behind it are the source. -/
theorem take_append (line : Nat) (c : Char) (rest : List Char) :
    (take line c rest).2.slice ++ (take line c rest).2.rest = c :: rest := by
  unfold take
  dsimp only
  split
  case h_7 =>
    split
    · exact List.append_nil _
    · exact Segment.munch_append c rest
  all_goals exact Segment.munch_append c rest

/-- No slice is empty. -/
theorem take_slice_ne_nil (line : Nat) (c : Char) (rest : List Char) :
    (take line c rest).2.slice ≠ [] := by
  unfold take
  dsimp only
  split
  case h_7 =>
    split
    · exact List.cons_ne_nil _ _
    · exact Segment.munch_text_ne_nil c rest
  all_goals exact Segment.munch_text_ne_nil c rest

/-- The next token or refusal, layout skipped. -/
def next? (line : Nat) (source : List Char) : Option (Except Refusal Token × Lexer) :=
  match source with
  | [] => none
  | c :: rest =>
    match _h : take line c rest with
    | (none, lx) => next? lx.line lx.rest
    | (some r, lx) => some (r, lx)
termination_by source.length
decreasing_by
  have happend := congrArg List.length (take_append line c rest)
  have hpos := List.length_pos_iff.2 (take_slice_ne_nil line c rest)
  simp only [_h, List.length_append] at happend hpos
  omega

/-- Layout at the front of a source is skipped. -/
theorem next?_cons (line : Nat) (c : Char) (rest : List Char) :
    next? line (c :: rest) =
      match take line c rest with
      | (none, lx) => next? lx.line lx.rest
      | (some r, lx) => some (r, lx) := by
  rw [next?]
  split
  · rename_i htake
    rw [htake]
  · rename_i htake
    rw [htake]

/-- **A slice and what is left behind it are at the end of the source**, and no slice
is empty. -/
theorem suffix_of_next? {line : Nat} {source : List Char} {r : Except Refusal Token}
    {lx : Lexer} (h : next? line source = some (r, lx)) :
    lx.slice ≠ [] ∧ lx.slice ++ lx.rest <:+ source := by
  fun_induction next? line source with
  | case1 => cases h
  | case2 line c rest skipped htake ih =>
    obtain ⟨hne, hsuffix⟩ := ih h
    have happend := take_append line c rest
    rw [htake] at happend
    exact ⟨hne, hsuffix.trans (happend ▸ List.suffix_append _ _)⟩
  | case3 line c rest r' lx' htake =>
    obtain ⟨rfl, rfl⟩ := Prod.mk.inj (Option.some.inj h)
    have happend := take_append line c rest
    have hne := take_slice_ne_nil line c rest
    rw [htake] at happend hne
    exact ⟨hne, happend ▸ List.suffix_refl _⟩

/-- Starts again behind the first character of the slice, on the same line. -/
def resumeAfter (lx : Lexer) : Lexer :=
  start (lx.slice.tail ++ lx.rest) lx.line

/-- The next item, and the lexer behind it. -/
def item? (lx : Lexer) : Option (Item × Lexer) :=
  match next? lx.line lx.rest with
  | none => none
  | some (.ok (.str s), lx') => some (⟨.ok (.str s), lx'.line - newlines s.toList⟩, lx')
  | some (.ok t, lx') => some (⟨.ok t, lx'.line⟩, lx')
  | some (.error .integerTooLarge, lx') =>
    some (⟨.error (.integerTooLarge (String.ofList lx'.slice)), lx'.line⟩, lx')
  | some (.error .realTooLarge, lx') =>
    some (⟨.error (.realTooLarge (String.ofList lx'.slice)), lx'.line⟩, lx')
  | some (.error .illegalCharacter, lx') =>
    match lx'.slice with
    | [] => none
    | c :: more =>
      some (⟨.error (.illegalCharacter c), lx'.line⟩,
        if more.isEmpty then lx' else lx'.resumeAfter)

/-- **An item takes at least one character off the source.** -/
theorem length_of_item? {lx lx' : Lexer} {i : Item} (h : lx.item? = some (i, lx')) :
    lx'.rest.length < lx.rest.length := by
  have hshorter : ∀ {r : Except Refusal Token} {next : Lexer},
      next? lx.line lx.rest = some (r, next) →
        next.rest.length < lx.rest.length ∧ next.resumeAfter.rest.length < lx.rest.length := by
    intro r next hnext
    obtain ⟨hne, hsuffix⟩ := suffix_of_next? hnext
    have hle := hsuffix.length_le
    have hpos := List.length_pos_iff.2 hne
    rw [List.length_append] at hle
    simp only [resumeAfter, start, List.length_append, List.length_tail]
    omega
  unfold item? at h
  split at h
  case h_1 => cases h
  case h_6 hnext =>
    split at h
    · cases h
    · obtain ⟨-, rfl⟩ := Prod.mk.inj (Option.some.inj h)
      split
      · exact (hshorter hnext).1
      · exact (hshorter hnext).2
  all_goals
    rename_i hnext
    obtain ⟨-, rfl⟩ := Prod.mk.inj (Option.some.inj h)
    exact (hshorter hnext).1

/-- All items from here to the end of the source. -/
def items (lx : Lexer) : List Item :=
  match _h : lx.item? with
  | none => []
  | some (i, lx') => i :: items lx'
termination_by lx.rest.length
decreasing_by exact length_of_item? _h

/-- The items are the next one and those behind it. -/
theorem items_eq (lx : Lexer) :
    lx.items =
      match lx.item? with
      | none => []
      | some (i, lx') => i :: lx'.items := by
  rw [items]
  split
  · rename_i hitem
    rw [hitem]
  · rename_i hitem
    rw [hitem]

end Lexer
end FlatScript
