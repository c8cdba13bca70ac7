/-
# The console's scan and the scanner

The console counts quotes and braces character by character, before anything is
read as tokens.  On every text, with faults or without, its count is that of the
tokens (`balance_agrees`):

| the console's scan | the scanner |
| --- | --- |
| ends in a string | one fault, for a quote that nothing closes |
| ends outside of strings | no such fault |
| its depth, outside of strings | opening braces less closing ones |
| the last character that is not blank is a semicolon | so is the last token |

Not every fault shows in the last row: text that is blank to the console can be
illegal to the scanner.  The other way round, a fault after the last semicolon
makes the console wait.  That is the only way in which a whole program can be
incomplete (`isComplete_iff_of_parse`).
-/

import FlatScript.Proofs.Console.Complete
import FlatScript.Proofs.Lexing.Recovery

namespace FlatScript

namespace Segment

/-- **An open quote is reported once, and only when the number of quotes is odd.** -/
theorem count_openQuote (cs : List Char) :
    ((cut cs).filterMap fault?).count (.illegalCharacter '"') = cs.count '"' % 2 := by
  fun_induction cut cs with
  | case1 => rfl
  | case2 c rest ih =>
    have hm := munches_munch c rest
    have hcount : (c :: rest).count '"' = _ := congrArg (List.count '"') hm.source_eq
    rw [List.count_append] at hcount
    rcases hm.count_quote with ⟨hq, hc⟩ | ⟨hq, hc, ha⟩
    · have hhead : (munch c rest).1.fault? ≠ some (.illegalCharacter '"') :=
        mt fault?_eq_some_iff.1 hq
      have hskip : (((munch c rest).1 :: cut (munch c rest).2).filterMap fault?).count
          (.illegalCharacter '"') =
            ((cut (munch c rest).2).filterMap fault?).count (.illegalCharacter '"') := by
        rw [List.filterMap_cons]
        cases hf : (munch c rest).1.fault? with
        | none => rfl
        | some fault =>
          refine List.count_cons_of_ne ?_
          rintro rfl
          exact hhead hf
      omega
    · rw [List.filterMap_cons_some (fault?_eq_some_iff.2 hq), List.count_cons_self]
      omega

/-- A run of digits ends with a character that is neither blank nor a semicolon. -/
theorem exists_concat_of_digits {w : List Char} (hne : w ≠ [])
    (hw : ∀ x ∈ w, x.isDigit = true) :
    ∃ v x, w = v ++ [x] ∧ Text.blank.contains x = false ∧ x ≠ ';' := by
  obtain ⟨v, x, rfl⟩ := (List.eq_nil_or_concat w).resolve_left hne
  have hx : x.isDigit = true := hw x (by simp)
  have hrest : isWordRest x = true := by simp [isWordRest, Char.isAlphanum, hx]
  refine ⟨v, x, by simp, Text.blank_contains_of_isWordRest hrest, ?_⟩
  rintro rfl
  exact absurd hx (by decide)

/-- **A fault is blank, or it ends with a character that is not**, and never with a
semicolon. -/
theorem Munches.end_of_fault {source after : List Char} {s : Segment} {fault : LexFault}
    (h : Munches source s after) (hs : s.reading = .error fault) :
    (∀ x ∈ s.text, Text.blank.contains x = true) ∨
      ∃ w x, s.text = w ++ [x] ∧ Text.blank.contains x = false ∧ x ≠ ';' := by
  cases h with
  | openQuote => exact .inr ⟨[], '"', rfl, by decide, by decide⟩
  | @real w f after hw hf hwd hfd ha =>
    obtain ⟨v, x, rfl, hblank, hsemi⟩ := exists_concat_of_digits hf hfd
    exact .inr ⟨w ++ '.' :: v, x, by simp, hblank, hsemi⟩
  | integer hw hwd ha hp => exact .inr (exists_concat_of_digits hw hwd)
  | @illegal c after h =>
    cases hblank : Text.blank.contains c with
    | true => exact .inl (List.forall_mem_singleton.2 hblank)
    | false =>
      refine .inr ⟨[], c, rfl, hblank, ?_⟩
      rintro rfl
      exact absurd h.sign (by decide)
  | string | word | newlines | gaps | equalEqual | bangEqual | sign => cases hs

/-- A segment is blank and adds no token, or it ends with a character that is not
blank, and with a semicolon only if it is one. -/
theorem Munches.blank_or_concat {source after : List Char} {s : Segment}
    (h : Munches source s after) :
    ((∀ x ∈ s.text, Text.blank.contains x = true) ∧
        ∀ line, (items line [s]).filterMap Item.token? = []) ∨
      ∃ w x, s.text = w ++ [x] ∧ Text.blank.contains x = false ∧
        (x = ';' → s.reading = .ok .semicolon) := by
  cases hs : s.reading with
  | ok t =>
    rcases h.telling hs with ⟨hl, hblank⟩ | ⟨-, w, x, htext, hx, hsemi⟩
    · exact .inl ⟨hblank, fun line => by simp [items, hl]⟩
    · exact .inr ⟨w, x, htext, hx, fun h => hs ▸ hsemi.1 h⟩
  | error fault =>
    rcases h.end_of_fault hs with hblank | ⟨w, x, htext, hx, hne⟩
    · exact .inl ⟨hblank, fun line => by simp [items, isLayout, hs, Item.token?]⟩
    · exact .inr ⟨w, x, htext, hx, fun h => absurd h hne⟩

/-- **If the last character that is not blank is a semicolon, so is the last
token**, whatever faults there are. -/
theorem exists_semicolon_of_trimEnd (line : Nat) {ss : List Segment}
    (h : ∀ s ∈ ss, ∃ source after, Munches source s after)
    (hlast : (Text.trimEnd (ss.map text).flatten).getLast? = some ';') :
    ∃ us n, (items line ss).filterMap Item.token? = us ++ [⟨.semicolon, n⟩] := by
  induction ss using List.reverseRecOn with
  | nil => simp [Text.trimEnd] at hlast
  | append_singleton ss s ih =>
    obtain ⟨hss, hs⟩ := List.forall_mem_append.1 h
    obtain ⟨source, after, hm⟩ := List.forall_mem_singleton.1 hs
    rw [List.map_append, List.flatten_append, List.map_singleton, List.flatten_singleton] at hlast
    rw [items_append, List.filterMap_append]
    rcases hm.blank_or_concat with ⟨hblank, htokens⟩ | ⟨w, x, htext, hx, hsemi⟩
    · rw [Text.trimEnd_append_of_blank _ hblank] at hlast
      rw [htokens, List.append_nil]
      exact ih hss hlast
    · rw [htext, ← List.append_assoc, Text.trimEnd_concat _ hx, List.getLast?_concat] at hlast
      have hreading := hsemi (Option.some.inj hlast)
      have hlayout : s.isLayout = false := by simp [isLayout, hreading, Token.isLayout]
      simp only [items, hlayout, hreading, Bool.false_eq_true, if_false, List.filterMap_cons,
        List.filterMap_nil, Item.token?]
      exact ⟨_, _, rfl⟩

end Segment

/-- The faults of a source count its open quotes. -/
theorem count_openQuote_lexErrorsOf (source : String) :
    ((lexErrorsOf source).map Located.val).count (.illegalCharacter '"') =
      source.toList.count '"' % 2 := by
  rw [lexErrorsOf_eq, Segment.map_val_filterMap_error?_items, Segment.count_openQuote]

/-- A source that ends in a semicolon, but for blanks, ends in the token. -/
theorem exists_semicolon_of_trimEnd {source : String}
    (h : (Text.trimEnd source.toList).getLast? = some ';') :
    ∃ us n, tokensOf source = us ++ [⟨.semicolon, n⟩] := by
  rw [← Segment.flatten_cut source.toList] at h
  rw [tokensOf_eq]
  exact Segment.exists_semicolon_of_trimEnd 1
    (fun s hs => Segment.exists_munches_of_mem_cut hs) h

/-- How many more braces are opened than closed, by counting both. -/
theorem braceDepth_eq (ts : Tokens) :
    braceDepth ts =
      (ts.map Located.val).count .leftBrace - (ts.map Located.val).count .rightBrace := by
  induction ts with
  | nil => rfl
  | cons t ts ih =>
    obtain ⟨val, n⟩ := t
    rw [braceDepth_cons, ih]
    cases val <;> simp [Token.brace] <;> omega

/-- What trimming leaves last is the last character that is not blank. -/
theorem Text.getLast?_trimEnd (cs : List Char) :
    (trimEnd cs).getLast? = (cs.filter fun x => !blank.contains x).getLast? := by
  rw [trimEnd, List.getLast?_reverse, ← List.head?_reverse, ← List.filter_reverse,
    List.head?_filter, List.find?_eq_head?_dropWhile_not]
  simp only [Bool.not_not]

namespace Console

/-- **The console's scan agrees with the scanner**, on every text.  It ends in a
string exactly when the scanner finds a quote that nothing closes, which it then
reports once.  If it ends outside of strings, its depth is the number of opening
less that of closing braces among the tokens.  So the last token of a complete
text is a semicolon, and no more braces are opened than closed. -/
theorem balance_agrees (source : String) :
    ((Balance.of source.toList).inString = true ↔
        .illegalCharacter '"' ∈ (lexErrorsOf source).map Located.val) ∧
      ((Balance.of source.toList).inString = true →
        ((lexErrorsOf source).map Located.val).count (.illegalCharacter '"') = 1) ∧
      ((Balance.of source.toList).inString = false →
        (Balance.of source.toList).depth =
          (((tokensOf source).map Located.val).count .leftBrace : Int) -
            ((tokensOf source).map Located.val).count .rightBrace) ∧
      (isComplete source = true →
        ((tokensOf source).map Located.val).getLast? = some .semicolon ∧
          ((tokensOf source).map Located.val).count .leftBrace ≤
            ((tokensOf source).map Located.val).count .rightBrace) := by
  have hcount := count_openQuote_lexErrorsOf source
  have hscan : (Balance.of source.toList).inString = false ↔ source.toList.count '"' % 2 = 0 :=
    Balance.inString_of source.toList
  have hodd : (Balance.of source.toList).inString = true ↔ source.toList.count '"' % 2 = 1 := by
    rw [← Bool.not_eq_false, hscan]
    omega
  refine ⟨?_, fun h => hcount.trans (hodd.1 h), fun h => ?_, fun h => ?_⟩
  · rw [hodd, ← List.count_pos_iff, hcount]
    omega
  · rw [Balance.depth_of (hscan.1 h), braceDepth_eq]
  · obtain ⟨-, hdepth, hlast⟩ := isComplete_eq_true_iff.1 h
    obtain ⟨us, n, hus⟩ := exists_semicolon_of_trimEnd hlast
    rw [braceDepth_eq] at hdepth
    refine ⟨?_, by omega⟩
    rw [hus, List.map_append, List.map_singleton, List.getLast?_concat]

/-- A text with a brace in a string, an oversized literal and two illegal characters
is complete, the last of them being blank.  With an open string after it, it ends in
that string. -/
theorem balance_agrees_faulty :
    let a := "s = \"\x7b\"; while (s) \x7b n = 99999999999999999999; @ \x7d;\u00a0"
    let b := a ++ "print(\"\x7d"
    ((lexErrorsOf a).map Located.val = [.integerTooLarge "99999999999999999999",
        .illegalCharacter '@', .illegalCharacter '\u00a0'] ∧ isComplete a = true ∧
      ((tokensOf a).map Located.val).getLast? = some .semicolon) ∧
      (Balance.of b.toList).inString = true ∧
        ((lexErrorsOf b).map Located.val).count (.illegalCharacter '"') = 1 := by
  intro a b
  have ha : isComplete a = true := by decide +kernel
  have hb : (Balance.of b.toList).inString = true := by decide +kernel
  obtain ⟨-, -, -, hcomplete⟩ := balance_agrees a
  obtain ⟨-, honce, -, -⟩ := balance_agrees b
  exact ⟨⟨by decide +kernel, ha, (hcomplete ha).1⟩, hb, honce hb⟩

/-- **The console never keeps waiting on a finished program.**  The text of a
program is complete when no quote in it is open and the last character that is
not blank is a semicolon.  So it is when it has no faults and the program is not
empty. -/
theorem isComplete_iff_of_parse {source : String} {p : Program}
    (hp : (Parsed.ofSource source).result = .ok p) :
    (isComplete source = true ↔
        .illegalCharacter '"' ∉ (lexErrorsOf source).map Located.val ∧
          (source.toList.filter fun x => !Text.blank.contains x).getLast? = some ';') ∧
      (p ≠ [] → lexErrorsOf source = [] → isComplete source = true) := by
  rw [Parsed.result_ofSource] at hp
  have hdepth : braceDepth (tokensOf source) ≤ 0 := Int.le_of_eq (Program.braceDepth_of_parse hp)
  have hquotes : .illegalCharacter '"' ∉ (lexErrorsOf source).map Located.val ↔
      source.toList.count '"' % 2 = 0 := by
    rw [← List.count_eq_zero, count_openQuote_lexErrorsOf]
  refine ⟨?_, fun hne hlex => ?_⟩
  · rw [isComplete_eq_true_iff, hquotes, Text.getLast?_trimEnd]
    exact and_congr_right fun _ => and_iff_right hdepth
  · have hlast := (Program.eq_nil_or_concat_of_parse hp).resolve_left fun h => hne h.2
    exact (isComplete_iff hlex).2 ⟨even_quotes_of_lexErrorsOf hlex, hdepth, hlast.2⟩

/-- A program with braces and a semicolon in a string: an illegal blank at its end
does no harm, and any other fault there makes the console wait. -/
theorem isComplete_iff_of_parse_faulty :
    let a := "if (true) \x7b s = \"\x7d;\"; \x7d;\u00a0\n"
    let b := a ++ "?\n"
    (∃ p, (Parsed.ofSource a).result = .ok p ∧ p ≠ [] ∧ lexErrorsOf a ≠ [] ∧
        isComplete a = true) ∧
      ∃ p, (Parsed.ofSource b).result = .ok p ∧ p ≠ [] ∧ isComplete b = false := by
  intro a b
  have hparse : ∀ s : String,
      (Parsed.ofSource s).result.toOption.map List.isEmpty = some false →
      ∃ p, (Parsed.ofSource s).result = .ok p ∧ p ≠ [] := by
    intro s hs
    cases hp : (Parsed.ofSource s).result with
    | ok p =>
      rw [hp] at hs
      exact ⟨p, rfl, by simpa [Except.toOption] using hs⟩
    | error e => simp [hp, Except.toOption] at hs
  obtain ⟨p, hp, hne⟩ := hparse a (by decide +kernel)
  obtain ⟨q, hq, hne'⟩ := hparse b (by decide +kernel)
  refine ⟨⟨p, hp, hne, by decide +kernel, ?_⟩, q, hq, hne', ?_⟩
  · exact (isComplete_iff_of_parse hp).1.2 ⟨by decide +kernel, by decide +kernel⟩
  · have hlast : ¬ (b.toList.filter fun x => !Text.blank.contains x).getLast? = some ';' := by
      decide +kernel
    exact Bool.eq_false_iff.2 fun h => hlast ((isComplete_iff_of_parse hq).1.1 h).2

end Console
end FlatScript
