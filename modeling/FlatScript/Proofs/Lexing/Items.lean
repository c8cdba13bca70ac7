/-
# The items of a source, segment by segment

The lexer counts lines on its way, and only where a newline can be: in runs of
newlines and in strings, whose lines it takes back again for the token.  It may have
to start again behind a quote.  None of that shows in the items.  They are those of
the segments of the source that are not layout, each on the line on which its segment
starts (`Segment.items`), and that is what the lexer gives (`tokenize_eq`).

| segment | newlines in it | the lexer's count |
| --- | --- | --- |
| newlines | all of it | the length of the slice |
| string | those between the quotes | the newlines of the slice |
| anything else | none | nothing |

A lexer in front of a segment that is layout goes on as if it stood behind it
(`Lexer.next?_of_layout`); in front of any other, it gives the item of that segment
and stands behind it (`Lexer.exists_item?`).  Its items follow by induction over the
segments.
-/

import FlatScript.Proofs.Lexing.Munch
import FlatScript.Token.Scan

namespace FlatScript

/-- The text that a fault is about. -/
def LexFault.text : LexFault → List Char
  | .illegalCharacter c => [c]
  | .integerTooLarge literal => literal.toList
  | .realTooLarge literal => literal.toList

namespace Segment

/-- Whether the segment only separates others. -/
def isLayout (s : Segment) : Bool :=
  match s.reading with
  | .ok t => t.isLayout
  | .error _ => false

/-- The items of a list of segments, the first of which starts on `line`. -/
def items (line : Nat) : List Segment → List Item
  | [] => []
  | s :: rest =>
    let later := items (line + newlines s.text) rest
    if s.isLayout then later else ⟨s.reading, line⟩ :: later

/-- Items of segments in two lists: the second list starts as many lines further
down as the first has newlines. -/
theorem items_append (line : Nat) (ss ts : List Segment) :
    items line (ss ++ ts) =
      items line ss ++ items (line + newlines (ss.map Segment.text).flatten) ts := by
  induction ss generalizing line with
  | nil => rfl
  | cons s rest ih =>
    have hn : line + newlines ((s :: rest).map Segment.text).flatten =
        line + newlines s.text + newlines (rest.map Segment.text).flatten := by
      simp [newlines, Nat.add_assoc]
    rw [List.cons_append, items, items, ih, hn]
    split <;> rfl

/-- Starting `k` lines further down moves every item by `k` lines. -/
theorem items_shift (line k : Nat) (ss : List Segment) :
    items (line + k) ss = (items line ss).map (Located.shift k) := by
  induction ss generalizing line with
  | nil => rfl
  | cons s rest ih =>
    have hk : line + k + newlines s.text = line + newlines s.text + k := by omega
    rw [items, items, hk, ih]
    split <;> rfl

/-- A word is no string. -/
theorem ofWord_ne_str (word b : String) : Token.ofWord word ≠ .str b := by
  unfold Token.ofWord
  repeat' split
  all_goals simp

/-- **Where the newlines of a segment are**: in a run of newlines, all of it, and
between the quotes of a string. -/
theorem newlines_of_munches {source after : List Char} {s : Segment} (h : Munches source s after) :
    (s.reading = .ok .newline ∧ newlines s.text = s.text.length) ∨
      (∃ b, s.reading = .ok (.str b) ∧ newlines s.text = newlines b.toList) ∨
        s.reading ≠ .ok .newline ∧ (∀ b, s.reading ≠ .ok (.str b)) ∧ newlines s.text = 0 := by
  cases h with
  | @string body after hb => exact .inr (.inl ⟨_, rfl, by simp [newlines]⟩)
  | openQuote => exact .inr (.inr ⟨by simp, by simp, rfl⟩)
  | @real w f after hw hf hwd hfd ha =>
    have hwhole : '\n' ∉ w := not_mem_of_forall hwd rfl
    have hfraction : '\n' ∉ f := not_mem_of_forall hfd rfl
    have hn : newlines (w ++ '.' :: f) = 0 :=
      List.count_eq_zero.2 (by simp [hwhole, hfraction])
    rcases readReal_cases w f with ⟨x, -, hx⟩ | hx <;> simp [hn, hx]
  | @integer w after hw hwd ha hp =>
    have hn : newlines w = 0 := List.count_eq_zero.2 (not_mem_of_forall hwd rfl)
    rcases readInteger_cases w with ⟨k, hk⟩ | hk <;> simp [hn, hk]
  | @word c w after hc hw ha =>
    have hall : ∀ x ∈ c :: w, isWordRest x = true :=
      List.forall_mem_cons.2 ⟨isWordRest_of_isWordStart hc, hw⟩
    have hlayout := isLayout_ofWord (String.ofList (c :: w))
    refine .inr (.inr ⟨fun heq => ?_, fun b heq => ?_, ?_⟩)
    · rw [Except.ok.inj heq] at hlayout
      cases hlayout
    · exact ofWord_ne_str _ b (Except.ok.inj heq)
    · exact List.count_eq_zero.2 (not_mem_of_forall hall rfl)
  | @newlines w after hw ha =>
    refine .inl ⟨rfl, ?_⟩
    exact List.count_eq_length.2 (List.forall_mem_cons.2 ⟨rfl, fun x hx => (hw x hx).symm⟩)
  | @gaps c w after hc hw ha =>
    have hall : ∀ x ∈ c :: w, isGap x = true := List.forall_mem_cons.2 ⟨hc, hw⟩
    have hn : newlines (c :: w) = 0 := List.count_eq_zero.2 (not_mem_of_forall hall rfl)
    exact .inr (.inr ⟨by simp, by simp, hn⟩)
  | equalEqual => exact .inr (.inr ⟨by simp, by simp, rfl⟩)
  | bangEqual => exact .inr (.inr ⟨by simp, by simp, rfl⟩)
  | @sign c t after ht ha =>
    unfold Token.ofSign? at ht
    split at ht <;> cases ht <;> exact .inr (.inr ⟨by simp, by simp, rfl⟩)
  | @illegal c after h =>
    have hn : newlines [c] = 0 := List.count_eq_zero.2 (by simpa using h.newline.symm)
    exact .inr (.inr ⟨by simp, by simp, hn⟩)

/-- A fault is about the text of its segment, which has no newline. -/
theorem Munches.text_of_fault {source after : List Char} {s : Segment} {fault : LexFault}
    (h : Munches source s after) (hs : s.reading = .error fault) :
    s.text = fault.text ∧ '\n' ∉ s.text := by
  cases h with
  | openQuote =>
    cases hs
    exact ⟨rfl, by simp⟩
  | @real w f after hw hf hwd hfd ha =>
    rcases readReal_cases w f with ⟨x, -, hx⟩ | hx
    · simp [hx] at hs
    · obtain rfl := Except.error.inj (hx.symm.trans hs)
      have hwhole : '\n' ∉ w := not_mem_of_forall hwd rfl
      have hfraction : '\n' ∉ f := not_mem_of_forall hfd rfl
      exact ⟨by simp [LexFault.text], by simp [hwhole, hfraction]⟩
  | @integer w after hw hwd ha hp =>
    rcases readInteger_cases w with ⟨k, hk⟩ | hk
    · simp [hk] at hs
    · obtain rfl := Except.error.inj (hk.symm.trans hs)
      exact ⟨by simp [LexFault.text], not_mem_of_forall hwd rfl⟩
  | @illegal c after h =>
    cases hs
    exact ⟨rfl, by simpa using h.newline.symm⟩
  | string | word | newlines | gaps | equalEqual | bangEqual | sign => cases hs

end Segment

namespace Lexer

open Segment

variable {source after : List Char} {s : Segment} {line : Nat}

/-- A source that a segment is taken off is not empty. -/
theorem exists_cons_of_munches (h : Munches source s after) : ∃ c rest, source = c :: rest := by
  obtain ⟨c, w, htext⟩ := List.exists_cons_of_ne_nil h.text_ne_nil
  exact ⟨c, w ++ after, by rw [h.source_eq, htext, List.cons_append]⟩

/-- **A lexer in front of layout goes on as if it stood behind it.** -/
theorem next?_of_layout (h : Munches source s after) (hs : s.isLayout = true) (line : Nat) :
    next? line source = next? (line + newlines s.text) after := by
  obtain ⟨c, rest, rfl⟩ := exists_cons_of_munches h
  have hcount := newlines_of_munches h
  rw [next?_cons, take, h.munch_eq]
  unfold isLayout at hs
  cases hread : s.reading with
  | error fault => simp [hread] at hs
  | ok t =>
    rw [hread] at hs hcount
    cases t with
    | newline => simp_all
    | blank => simp_all
    | _ => cases hs

/-- **A lexer in front of any other segment gives its item**, on the line that it has
counted up to, and stands behind it with the newlines of the segment counted. -/
theorem exists_item? (h : Munches source s after) (hs : s.isLayout = false)
    (slice : List Char) (line : Nat) :
    ∃ lx, item? ⟨slice, source, line⟩ = some (⟨s.reading, line⟩, lx) ∧ lx.rest = after ∧
      lx.line = line + newlines s.text := by
  obtain ⟨c, rest, rfl⟩ := exists_cons_of_munches h
  have hcount := newlines_of_munches h
  unfold isLayout at hs
  simp only [item?, next?_cons, take, h.munch_eq]
  cases hread : s.reading with
  | ok t =>
    rw [hread] at hs hcount
    cases t with
    | str b =>
      have hn : newlines s.text = newlines b.toList := by simpa using hcount
      exact ⟨⟨s.text, after, line + newlines s.text⟩, by simp [hn], rfl, rfl⟩
    | newline => cases hs
    | blank => cases hs
    | _ =>
      have hn : newlines s.text = 0 := by simpa using hcount
      exact ⟨_, rfl, rfl, hn ▸ rfl⟩
  | error fault =>
    obtain ⟨htext, hnewline⟩ := h.text_of_fault hread
    have hn : newlines s.text = 0 := List.count_eq_zero.2 hnewline
    rw [hn]
    cases fault with
    | integerTooLarge literal =>
      exact ⟨⟨s.text, after, line⟩, by simp [htext, LexFault.text], rfl, rfl⟩
    | realTooLarge literal =>
      exact ⟨⟨s.text, after, line⟩, by simp [htext, LexFault.text], rfl, rfl⟩
    | illegalCharacter q =>
      rw [LexFault.text] at htext
      obtain ⟨rfl, rfl⟩ : c = q ∧ rest = after := by
        have hsource := h.source_eq
        rw [htext] at hsource
        exact List.cons.inj hsource
      by_cases hquote : c = '"'
      · -- An unclosed quote has the whole source as its slice; the lexer goes back to it.
        simp only [if_pos hquote]
        cases rest with
        | nil => exact ⟨⟨[c], [], line⟩, rfl, rfl, rfl⟩
        | cons d ds => exact ⟨start (d :: ds ++ []) line, rfl, List.append_nil _, rfl⟩
      · simp only [if_neg hquote, htext]
        exact ⟨⟨[c], rest, line⟩, rfl, rfl, rfl⟩

/-- **The items of a lexer are those of the segments in front of it.** -/
theorem items_eq_items_cut (lx : Lexer) : lx.items = Segment.items lx.line (cut lx.rest) := by
  obtain ⟨slice, source, line⟩ := lx
  show items ⟨slice, source, line⟩ = Segment.items line (cut source)
  induction hlength : source.length using Nat.strong_induction_on generalizing slice source line with
  | _ n ih =>
    subst hlength
    cases source with
    | nil =>
      rw [items_eq, item?, next?, cut]
      rfl
    | cons c rest =>
      have hm := munches_munch c rest
      have hshorter := munch_length c rest
      rw [hm.cut_eq, Segment.items]
      cases hs : (munch c rest).1.isLayout with
      | true =>
        have hnext := next?_of_layout hm hs line
        have hrest := ih _ hshorter slice (munch c rest).2
          (line + newlines (munch c rest).1.text) rfl
        rw [items_eq, item?, hnext]
        rw [items_eq, item?] at hrest
        exact hrest
      | false =>
        obtain ⟨lx, hitem, hrest, hline⟩ := exists_item? hm hs slice line
        rw [items_eq, hitem]
        obtain ⟨slice', rest', line'⟩ := lx
        obtain rfl : rest' = (munch c rest).2 := hrest
        obtain rfl : line' = line + newlines (munch c rest).1.text := hline
        exact congrArg _ (ih _ hshorter slice' _ _ rfl)

end Lexer

/-- **The items of a source are those of its segments**, the first of which starts on
line 1. -/
theorem tokenize_eq (source : String) :
    tokenize source = Segment.items 1 (Segment.cut source.toList) :=
  Lexer.items_eq_items_cut (.start source.toList 1)

/-- The tokens of a source are those of its segments. -/
theorem tokensOf_eq (source : String) :
    tokensOf source = (Segment.items 1 (Segment.cut source.toList)).filterMap Item.token? := by
  rw [tokensOf, tokenize_eq]

/-- The faults of a source are those of its segments. -/
theorem lexErrorsOf_eq (source : String) :
    lexErrorsOf source = (Segment.items 1 (Segment.cut source.toList)).filterMap Item.error? := by
  rw [lexErrorsOf, tokenize_eq]

end FlatScript
