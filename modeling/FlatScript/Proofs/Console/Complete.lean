/-
# When a text is complete

The console decides from the characters of its buffer whether it can run: it
counts braces outside of strings and looks at the last character that is not
blank.  Both agree with the tokens of the buffer (`isComplete_iff`).

| characters | tokens |
| --- | --- |
| the scan ends outside of a string | the number of quotes is even |
| its depth | opening less closing braces |
| the last character that is not blank | the last token |

The scan is followed segment by segment: outside of a string, a segment changes
the depth by what its token opens and closes, and nothing else.
-/

import FlatScript.Console.Repl
import FlatScript.Proofs.Grammar.Boundaries
import FlatScript.Proofs.Lexing.Lines
import Mathlib.Data.List.Induction

namespace FlatScript

namespace Segment

/-- What a segment adds to the number of open braces. -/
def brace (s : Segment) : Int :=
  match s.reading with
  | .ok t => t.brace
  | .error _ => 0

/-- How many more braces the segments open than they close. -/
def braces : List Segment → Int
  | [] => 0
  | s :: ss => s.brace + braces ss

/-- A segment opens and closes what its token does. -/
theorem brace_of_ok {s : Segment} {t : Token} (h : s.reading = .ok t) : s.brace = t.brace := by
  simp [brace, h]

/-- A fault opens and closes nothing. -/
theorem brace_of_error {s : Segment} {e : LexFault} (h : s.reading = .error e) : s.brace = 0 := by
  simp [brace, h]

/-- No word is a brace. -/
theorem brace_ofWord (w : String) : (Token.ofWord w).brace = 0 := by
  unfold Token.ofWord
  repeat' split
  all_goals rfl

/-- Layout and faults open and close nothing, so the tokens of segments have the
braces of the segments. -/
theorem braceDepth_items (line : Nat) (ss : List Segment) :
    braceDepth ((items line ss).filterMap Item.token?) = braces ss := by
  induction ss generalizing line with
  | nil => rfl
  | cons s ss ih =>
    rw [items, braces]
    cases hs : s.reading with
    | error e =>
      have hl : s.isLayout = false := by simp [isLayout, hs]
      rw [hl, if_neg Bool.false_ne_true, List.filterMap_cons_none rfl, ih, brace_of_error hs,
        Int.zero_add]
    | ok t =>
      cases hl : s.isLayout with
      | true =>
        have ht : t.brace = 0 := by
          cases t <;> first
            | rfl
            | simp [isLayout, hs, Token.isLayout] at hl
        simp [ih, brace_of_ok hs, ht]
      | false =>
        have hi : Item.token? ⟨.ok t, line⟩ = some ⟨t, line⟩ := rfl
        rw [if_neg Bool.false_ne_true, List.filterMap_cons_some hi, braceDepth_cons, ih,
          brace_of_ok hs]

end Segment

namespace Console
namespace Balance

open Segment

/-- Characters that are neither quotes nor braces do not change the balance. -/
theorem foldl_step_of_inert {w : List Char} (b : Balance)
    (h : ∀ x ∈ w, x ≠ '"' ∧ x ≠ '{' ∧ x ≠ '}') : w.foldl step b = b := by
  induction w generalizing b with
  | nil => rfl
  | cons x w ih =>
    obtain ⟨⟨hq, hl, hr⟩, hw⟩ := List.forall_mem_cons.1 h
    have hx : step b x = b := by simp [step, hq, hl, hr]
    rw [List.foldl_cons, hx, ih b hw]

/-- The characters of a class that has neither quotes nor braces. -/
theorem inert_of_class {p : Char → Bool} {w : List Char} (hw : ∀ x ∈ w, p x = true)
    (hq : p '"' = false) (hl : p '{' = false) (hr : p '}' = false) :
    ∀ x ∈ w, x ≠ '"' ∧ x ≠ '{' ∧ x ≠ '}' := by
  intro x hx
  refine ⟨?_, ?_, ?_⟩ <;> rintro rfl
  · exact not_mem_of_forall hw hq hx
  · exact not_mem_of_forall hw hl hx
  · exact not_mem_of_forall hw hr hx

/-- Inside of a string only a quote counts. -/
theorem foldl_step_of_inString {w : List Char} {b : Balance} (hb : b.inString = true)
    (h : '"' ∉ w) : w.foldl step b = b := by
  induction w with
  | nil => rfl
  | cons x w ih =>
    obtain ⟨hx, hw⟩ := not_or.1 (mt List.mem_cons.2 h)
    have hstep : step b x = b := by simp [step, Ne.symm hx, hb]
    rw [List.foldl_cons, hstep, ih hw]

/-- The characters of every segment but strings and braces are inert. -/
theorem inert_or_brace {source after : List Char} {s : Segment} (h : Munches source s after)
    (hq : s.reading ≠ .error (.illegalCharacter '"')) :
    (∃ body, '"' ∉ body ∧ s.text = '"' :: body ++ ['"'] ∧ s.brace = 0) ∨
      (s.text = ['{'] ∧ s.brace = 1) ∨ (s.text = ['}'] ∧ s.brace = -1) ∨
        ((∀ x ∈ s.text, x ≠ '"' ∧ x ≠ '{' ∧ x ≠ '}') ∧ s.brace = 0) := by
  cases h with
  | @string body after hb => exact .inl ⟨body, hb, rfl, rfl⟩
  | openQuote => exact absurd rfl hq
  | @real w f after hw hf hwd hfd ha =>
    refine .inr (.inr (.inr ⟨?_, ?_⟩))
    · have hpoint : ∀ x ∈ ['.'], x ≠ '"' ∧ x ≠ '{' ∧ x ≠ '}' := by simp
      exact List.forall_mem_append.2 ⟨inert_of_class hwd rfl rfl rfl,
        List.forall_mem_append.2 ⟨hpoint, inert_of_class hfd rfl rfl rfl⟩⟩
    · rcases readReal_cases w f with ⟨x, -, h⟩ | h <;> simp [brace, h, Token.brace]
  | @integer w after hw hwd ha hp =>
    refine .inr (.inr (.inr ⟨inert_of_class hwd rfl rfl rfl, ?_⟩))
    rcases readInteger_cases w with ⟨k, h⟩ | h <;> simp [brace, h, Token.brace]
  | @word c w after hc hw ha =>
    have hall : ∀ x ∈ c :: w, isWordRest x = true :=
      List.forall_mem_cons.2 ⟨isWordRest_of_isWordStart hc, hw⟩
    exact .inr (.inr (.inr ⟨inert_of_class hall rfl rfl rfl, brace_ofWord _⟩))
  | @newlines w after hw ha =>
    have hall : ∀ x ∈ '\n' :: w, (x == '\n') = true :=
      List.forall_mem_cons.2 ⟨rfl, fun x hx => beq_iff_eq.2 (hw x hx)⟩
    exact .inr (.inr (.inr ⟨inert_of_class hall rfl rfl rfl, rfl⟩))
  | @gaps c w after hc hw ha =>
    have hall : ∀ x ∈ c :: w, isGap x = true := List.forall_mem_cons.2 ⟨hc, hw⟩
    exact .inr (.inr (.inr ⟨inert_of_class hall rfl rfl rfl, rfl⟩))
  | equalEqual => exact .inr (.inr (.inr ⟨by simp, rfl⟩))
  | bangEqual => exact .inr (.inr (.inr ⟨by simp, rfl⟩))
  | @sign c t after ht ha =>
    unfold Token.ofSign? at ht
    split at ht <;> cases ht <;> simp [brace, Token.brace]
  | @illegal c after h =>
    have hne : ∀ x, Token.ofSign? x ≠ none → c ≠ x := by
      rintro x hx rfl
      exact hx h.sign
    refine .inr (.inr (.inr ⟨List.forall_mem_singleton.2 ?_, rfl⟩))
    exact ⟨h.quote, hne _ (by decide), hne _ (by decide)⟩

/-- **A segment changes the depth by the braces of its token**, unless it is the
opening quote of a string without an end. -/
theorem foldl_step_munches {source after : List Char} {s : Segment} (h : Munches source s after)
    (hq : s.reading ≠ .error (.illegalCharacter '"')) (d : Int) :
    s.text.foldl step ⟨d, false⟩ = ⟨d + s.brace, false⟩ := by
  rcases inert_or_brace h hq with ⟨body, hb, htext, hs⟩ | ⟨htext, hs⟩ | ⟨htext, hs⟩ | ⟨hinert, hs⟩
  · have hbody : body.foldl step ⟨d, true⟩ = ⟨d, true⟩ := foldl_step_of_inString rfl hb
    simp [htext, hs, step, hbody]
  · simp [htext, hs, step]
  · simp [htext, hs, step, Int.sub_eq_add_neg]
  · rw [foldl_step_of_inert _ hinert, hs, Int.add_zero]

/-- The scan of a text in which no string stays open. -/
theorem foldl_step_eq {cs : List Char} (h : cs.count '"' % 2 = 0) (d : Int) :
    cs.foldl step ⟨d, false⟩ = ⟨d + braces (cut cs), false⟩ := by
  fun_induction cut cs generalizing d with
  | case1 => simp [braces]
  | case2 c rest ih =>
    have hm := munches_munch c rest
    obtain ⟨hq, heven⟩ := hm.even_quotes h
    rw [hm.source_eq, List.foldl_append, foldl_step_munches hm hq, ih heven, braces, Int.add_assoc]

/-- Each quote leaves a string or enters one. -/
theorem inString_foldl_step (cs : List Char) (b : Balance) :
    (cs.foldl step b).inString = (b.inString ^^ decide (cs.count '"' % 2 = 1)) := by
  induction cs generalizing b with
  | nil => simp
  | cons c cs ih =>
    rw [List.foldl_cons, ih]
    by_cases hc : c = '"'
    · subst hc
      rw [List.count_cons_self]
      rcases Nat.mod_two_eq_zero_or_one (cs.count '"') with h | h <;>
        simp [step, h, Nat.add_mod]
    · rw [List.count_cons_of_ne hc]
      congr 1
      simp only [step, if_neg hc]
      repeat' split
      all_goals rfl

/-- The scan ends outside of a string when the number of quotes is even. -/
theorem inString_of (cs : List Char) : (of cs).inString = false ↔ cs.count '"' % 2 = 0 := by
  rw [of, inString_foldl_step]
  rcases Nat.mod_two_eq_zero_or_one (cs.count '"') with h | h <;> simp [h]

/-- **Its depth is that of the tokens**, if no string stays open. -/
theorem depth_of {source : String} (h : source.toList.count '"' % 2 = 0) :
    (of source.toList).depth = braceDepth (tokensOf source) := by
  rw [of, foldl_step_eq h, tokensOf_eq, braceDepth_items, Int.zero_add]

end Balance
end Console

namespace Text

/-- Blanks at the end of a text are trimmed away. -/
theorem trimEnd_append_of_blank (cs : List Char) {w : List Char}
    (hw : ∀ x ∈ w, blank.contains x = true) : trimEnd (cs ++ w) = trimEnd cs := by
  have hw' : ∀ x ∈ w.reverse, blank.contains x = true := fun x hx => hw x (List.mem_reverse.1 hx)
  rw [trimEnd, List.reverse_append, List.dropWhile_append_of_pos hw', trimEnd]

/-- A text that does not end in a blank is left as it is. -/
theorem trimEnd_concat {x : Char} (cs : List Char) (hx : blank.contains x = false) :
    trimEnd (cs ++ [x]) = cs ++ [x] := by
  simp [trimEnd, hx]

/-- The blanks of ASCII come before its letters and digits, all others after. -/
theorem blank_contains_eq_false {c : Char} (hlow : 0x20 < c.toNat) (hhigh : c.toNat < 0x85) :
    blank.contains c = false := by
  have hranges : ∀ r ∈ blank.ranges, r.2 ≤ 0x20 ∨ 0x85 ≤ r.1 := by decide
  refine List.any_eq_false.2 fun r hr => ?_
  rcases hranges r hr with h | h <;> simp <;> omega

/-- The characters of words and numbers are not blank. -/
theorem blank_contains_of_isWordRest {c : Char} (h : Segment.isWordRest c = true) :
    blank.contains c = false := by
  have hcases : (c.isAlpha = true ∨ c.isDigit = true) ∨ c = '_' := by
    simpa only [Segment.isWordRest, Char.isAlphanum, Bool.or_eq_true, beq_iff_eq] using h
  rcases hcases with (halpha | hdigit) | rfl
  · have hrange := Segment.toNat_of_isAlpha halpha
    exact blank_contains_eq_false (by omega) (by omega)
  · have hrange := Segment.toNat_of_isDigit hdigit
    exact blank_contains_eq_false (by omega) (by omega)
  · decide

end Text

namespace Segment

/-- The end of a segment tells layout, which is blank, from all other segments,
and semicolons from all others. -/
def Telling (s : Segment) : Prop :=
  (s.isLayout = true ∧ ∀ x ∈ s.text, Text.blank.contains x = true) ∨
    (s.isLayout = false ∧ ∃ w x, s.text = w ++ [x] ∧ Text.blank.contains x = false ∧
      (x = ';' ↔ s.reading = .ok .semicolon))

/-- The end of a word, digits among them, tells it from layout and semicolons. -/
theorem telling_of_word {w : List Char} {r : Except LexFault Token} (hne : w ≠ [])
    (hw : ∀ x ∈ w, isWordRest x = true) (hl : isLayout ⟨w, r⟩ = false)
    (hr : r ≠ .ok .semicolon) : Telling ⟨w, r⟩ := by
  obtain ⟨v, x, rfl⟩ := (List.eq_nil_or_concat w).resolve_left hne
  have hx : isWordRest x = true := hw x (by simp)
  refine .inr ⟨hl, v, x, by simp, Text.blank_contains_of_isWordRest hx, ?_⟩
  refine iff_of_false ?_ hr
  rintro rfl
  exact absurd hx (by decide)

theorem ofWord_ne_semicolon (word : String) : Token.ofWord word ≠ .semicolon := by
  unfold Token.ofWord
  repeat' split
  all_goals simp

/-- **Every segment that is read as a token tells by its end what it is.** -/
theorem Munches.telling {source after : List Char} {s : Segment} {t : Token}
    (h : Munches source s after) (hs : s.reading = .ok t) : Telling s := by
  have hdigit : ∀ {x : Char}, x.isDigit = true → isWordRest x = true := by
    intro x hx
    simp [isWordRest, Char.isAlphanum, hx]
  cases h with
  | @string body after hb =>
    exact .inr ⟨rfl, '"' :: body, '"', rfl, by decide, by simp⟩
  | openQuote => cases hs
  | @real w f after hw hf hwd hfd ha =>
    obtain ⟨v, x, rfl⟩ := (List.eq_nil_or_concat f).resolve_left hf
    have hx : isWordRest x = true := hdigit (hfd x (by simp))
    rcases readReal_cases w (v.concat x) with ⟨y, -, hy⟩ | hy <;> rw [hy] at hs ⊢
    · refine .inr ⟨rfl, w ++ '.' :: v, x, by simp, Text.blank_contains_of_isWordRest hx, ?_⟩
      refine iff_of_false ?_ (by simp)
      rintro rfl
      exact absurd hx (by decide)
    · cases hs
  | @integer w after hw hwd ha hp =>
    rcases readInteger_cases w with ⟨k, hk⟩ | hk <;> rw [hk] at hs ⊢
    · exact telling_of_word hw (fun x hx => hdigit (hwd x hx)) rfl (by simp)
    · cases hs
  | @word c w after hc hw ha =>
    refine telling_of_word (List.cons_ne_nil _ _)
      (List.forall_mem_cons.2 ⟨isWordRest_of_isWordStart hc, hw⟩) (isLayout_ofWord _) ?_
    simpa using ofWord_ne_semicolon _
  | @newlines w after hw ha =>
    refine .inl ⟨rfl, List.forall_mem_cons.2 ⟨by decide, fun x hx => ?_⟩⟩
    rw [hw x hx]
    decide
  | @gaps c w after hc hw ha =>
    have hblank : ∀ x ∈ c :: w, isGap x = true := List.forall_mem_cons.2 ⟨hc, hw⟩
    refine .inl ⟨rfl, fun x hx => ?_⟩
    have hx' : x = ' ' ∨ x = '\t' ∨ x = '\r' := by simpa [isGap, or_assoc] using hblank x hx
    rcases hx' with rfl | rfl | rfl <;> decide
  | equalEqual => exact .inr ⟨rfl, ['='], '=', rfl, by decide, by simp⟩
  | bangEqual => exact .inr ⟨rfl, ['!'], '=', rfl, by decide, by simp⟩
  | @sign c u after hu ha =>
    unfold Token.ofSign? at hu
    split at hu <;> cases hu <;> exact .inr ⟨rfl, [], _, rfl, by decide, by simp⟩
  | illegal => cases hs

/-- A scan has no faults when every segment is read as a token. -/
theorem filterMap_error?_items_eq_nil_iff (line : Nat) {ss : List Segment} :
    (items line ss).filterMap Item.error? = [] ↔ ∀ s ∈ ss, ∃ t, s.reading = .ok t := by
  induction ss generalizing line with
  | nil => simp [items]
  | cons s ss ih =>
    rw [items, List.forall_mem_cons, ← ih (line + newlines s.text)]
    cases hs : s.reading with
    | error e => simp [isLayout, hs, Item.error?]
    | ok t =>
      cases hl : s.isLayout with
      | true => simp
      | false => simp [Item.error?]

/-- A scan without faults has no tokens when every segment is layout. -/
theorem filterMap_token?_items_eq_nil_iff (line : Nat) {ss : List Segment}
    (h : ∀ s ∈ ss, ∃ t, s.reading = .ok t) :
    (items line ss).filterMap Item.token? = [] ↔ ∀ s ∈ ss, s.isLayout = true := by
  induction ss generalizing line with
  | nil => simp [items]
  | cons s ss ih =>
    obtain ⟨⟨t, ht⟩, hss⟩ := List.forall_mem_cons.1 h
    rw [items, List.forall_mem_cons, ← ih (line + newlines s.text) hss]
    cases hl : s.isLayout with
    | true => simp
    | false => simp [Item.token?, ht]

/-- Text that reads without a fault has an even number of quotes. -/
theorem even_quotes_of_readings {cs : List Char} (h : ∀ s ∈ cut cs, ∃ t, s.reading = .ok t) :
    cs.count '"' % 2 = 0 := by
  fun_induction cut cs with
  | case1 => rfl
  | case2 c rest ih =>
    obtain ⟨⟨t, ht⟩, hrest⟩ := List.forall_mem_cons.1 h
    have hm := munches_munch c rest
    have hcount : (c :: rest).count '"' = _ := congrArg (List.count '"') hm.source_eq
    rw [List.count_append] at hcount
    have htail := ih hrest
    rcases hm.count_quote with ⟨-, hc⟩ | ⟨hq, -, -⟩
    · omega
    · rw [ht] at hq
      cases hq

/-- Outside of strings, a colon is no part of any token. -/
theorem Munches.colon_not_mem {source after : List Char} {s : Segment} {t : Token}
    (h : Munches source s after) (hs : s.reading = .ok t) (hq : '"' ∉ s.text) :
    ':' ∉ s.text := by
  rcases h.ordinary with ⟨body, -, rfl⟩ | ⟨c, rfl, -⟩ | ⟨-, hall⟩
  · simp at hq
  · cases hs
  · exact not_mem_of_forall hall rfl

/-- The last character that is not blank is a semicolon when the last token is
one. -/
theorem getLast?_trimEnd_eq_semicolon_iff (line : Nat) {ss : List Segment}
    (h : ∀ s ∈ ss, Telling s) (hok : ∀ s ∈ ss, ∃ t, s.reading = .ok t) :
    (Text.trimEnd (ss.map text).flatten).getLast? = some ';' ↔
      ∃ us n, (items line ss).filterMap Item.token? = us ++ [⟨.semicolon, n⟩] := by
  induction ss using List.reverseRecOn with
  | nil => simp [items, Text.trimEnd]
  | append_singleton ss s ih =>
    obtain ⟨hss, hs⟩ := List.forall_mem_append.1 h
    obtain ⟨hokss, hoks⟩ := List.forall_mem_append.1 hok
    obtain ⟨t, ht⟩ := List.forall_mem_singleton.1 hoks
    rw [items_append, List.map_append, List.flatten_append, List.map_singleton,
      List.flatten_singleton, List.filterMap_append]
    rcases List.forall_mem_singleton.1 hs with ⟨hl, hblank⟩ | ⟨hl, w, x, htext, hx, hsemi⟩
    · rw [Text.trimEnd_append_of_blank _ hblank, ih hss hokss]
      simp [items, hl]
    · rw [htext, ← List.append_assoc, Text.trimEnd_concat _ hx]
      simp only [items, hl, ht, Bool.false_eq_true, if_false, List.filterMap_cons,
        List.filterMap_nil, Item.token?, List.getLast?_concat, Option.some.injEq]
      rw [hsemi, ht]
      constructor
      · rintro ⟨⟩
        exact ⟨_, _, rfl⟩
      · rintro ⟨us, n, heq⟩
        have hlast := List.append_inj_right' heq rfl
        simpa using congrArg Located.val (List.cons.inj hlast).1

end Segment

section Faultless

variable {source : String} (h : lexErrorsOf source = [])
include h

/-- Without faults, every segment is read as a token, and its end is telling. -/
theorem forall_mem_cut_of_lexErrorsOf :
    (∀ s ∈ Segment.cut source.toList, ∃ t, s.reading = .ok t) ∧
      ∀ s ∈ Segment.cut source.toList, s.Telling := by
  rw [lexErrorsOf_eq] at h
  have hok := (Segment.filterMap_error?_items_eq_nil_iff 1).1 h
  refine ⟨hok, fun s hs => ?_⟩
  obtain ⟨t, ht⟩ := hok s hs
  obtain ⟨_, _, hm⟩ := Segment.exists_munches_of_mem_cut hs
  exact hm.telling ht

/-- Without faults, the quotes of a source come in pairs. -/
theorem even_quotes_of_lexErrorsOf : source.toList.count '"' % 2 = 0 :=
  Segment.even_quotes_of_readings (forall_mem_cut_of_lexErrorsOf h).1

/-- A text without faults has no tokens when it is blank. -/
theorem tokensOf_eq_nil_iff :
    tokensOf source = [] ↔ ∀ x ∈ source.toList, Text.blank.contains x = true := by
  obtain ⟨hok, htelling⟩ := forall_mem_cut_of_lexErrorsOf h
  rw [← Segment.flatten_cut source.toList, tokensOf_eq,
    Segment.filterMap_token?_items_eq_nil_iff 1 hok]
  simp only [List.mem_flatten, List.mem_map]
  constructor
  · rintro hlayout x ⟨_, ⟨s, hs, rfl⟩, hx⟩
    rcases htelling s hs with ⟨-, hblank⟩ | ⟨hl, -⟩
    · exact hblank x hx
    · rw [hlayout s hs] at hl
      cases hl
  · intro hblank s hs
    rcases htelling s hs with ⟨hl, -⟩ | ⟨-, w, x, htext, hx, -⟩
    · exact hl
    · have hx' := hblank x ⟨_, ⟨s, hs, rfl⟩, by simp [htext]⟩
      rw [hx] at hx'
      cases hx'

/-- A text without faults and without strings has no colons. -/
theorem colon_not_mem_of_lexErrorsOf (hq : '"' ∉ source.toList) : ':' ∉ source.toList := by
  obtain ⟨hok, -⟩ := forall_mem_cut_of_lexErrorsOf h
  rw [← Segment.flatten_cut source.toList] at hq ⊢
  simp only [List.mem_flatten, List.mem_map, not_exists, not_and] at hq ⊢
  rintro _ ⟨s, hs, rfl⟩
  obtain ⟨t, ht⟩ := hok s hs
  obtain ⟨_, _, hm⟩ := Segment.exists_munches_of_mem_cut hs
  exact hm.colon_not_mem ht (hq _ ⟨s, hs, rfl⟩)

end Faultless

namespace Console

/-- **A text is complete**, with faults or without, when no string is open, no more
braces are opened than closed, and the last character that is not blank is a
semicolon. -/
theorem isComplete_eq_true_iff {source : String} :
    isComplete source = true ↔ source.toList.count '"' % 2 = 0 ∧
      braceDepth (tokensOf source) ≤ 0 ∧
        (Text.trimEnd source.toList).getLast? = some ';' := by
  simp only [isComplete, Bool.and_eq_true, decide_eq_true_eq, Bool.not_eq_true', beq_iff_eq,
    Balance.inString_of]
  constructor
  · rintro ⟨⟨hdepth, heven⟩, hsemi⟩
    exact ⟨heven, Balance.depth_of heven ▸ hdepth, hsemi⟩
  · rintro ⟨heven, hdepth, hsemi⟩
    exact ⟨⟨Balance.depth_of heven ▸ hdepth, heven⟩, hsemi⟩

/-- **A text without faults is complete when its tokens are**: no string is open,
no more braces are opened than closed, and a semicolon is the last token. -/
theorem isComplete_iff {source : String} (h : lexErrorsOf source = []) :
    isComplete source = true ↔ source.toList.count '"' % 2 = 0 ∧
      braceDepth (tokensOf source) ≤ 0 ∧
        ∃ us n, tokensOf source = us ++ [⟨.semicolon, n⟩] := by
  obtain ⟨hok, htelling⟩ := forall_mem_cut_of_lexErrorsOf h
  have hlast := Segment.getLast?_trimEnd_eq_semicolon_iff 1 htelling hok
  rw [Segment.flatten_cut, ← tokensOf_eq] at hlast
  rw [isComplete_eq_true_iff, hlast]

/-- No string is open at the end of a complete text. -/
theorem even_quotes_of_isComplete {source : String} (h : isComplete source = true) :
    source.toList.count '"' % 2 = 0 :=
  (isComplete_eq_true_iff.1 h).1

end Console
end FlatScript
