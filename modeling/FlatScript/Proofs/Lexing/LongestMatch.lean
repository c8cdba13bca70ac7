/-
# The scanner takes the longest match

The scanner cuts a source as the rules say and reads the pieces as they say
(`tokenize_longest_match`): there is exactly one way to cut a source by longest
matches, nothing of the source is lost in it, and the scan has one item for each
piece that is not layout.

A text `v` that some rule matches, at the front of a source, is no longer than
the segment that the scanner takes off (`Rule.Matches.exists_munches`): what is
taken off grows `v` as far as its rule allows, and a number also past its point.
-/

import FlatScript.Proofs.Lexing.Items
import FlatScript.Proofs.Lexing.Rules
import Mathlib.Data.List.Forall2

namespace FlatScript

namespace Segment

/-- The segment is a single character that starts no rule. -/
def Illegal (s : Segment) : Prop :=
  ∃ c, s.reading = .error (.illegalCharacter c)

theorem not_illegal_of_ok {w : List Char} {t : Token} : ¬ Illegal ⟨w, .ok t⟩ := by
  rintro ⟨c, h⟩
  cases h

theorem not_illegal_readInteger (text w : List Char) : ¬ Illegal ⟨text, readInteger w⟩ := by
  rintro ⟨c, h⟩
  rcases readInteger_cases w with ⟨k, hk⟩ | hk <;> simp [hk] at h

theorem not_illegal_readReal (text w f : List Char) : ¬ Illegal ⟨text, readReal w f⟩ := by
  rintro ⟨c, h⟩
  rcases readReal_cases w f with ⟨x, -, hx⟩ | hx <;> simp [hx] at h

/-- Only one segment can be taken off a source. -/
theorem Munches.unique {source after after' : List Char} {s s' : Segment}
    (h : Munches source s after) (h' : Munches source s' after') : s = s' ∧ after = after' := by
  cases source with
  | nil => exact absurd (List.append_eq_nil_iff.1 h.source_eq.symm).1 h.text_ne_nil
  | cons c rest => exact Prod.mk.inj (h.munch_eq.symm.trans h'.munch_eq)

theorem isWordStart_iff {c : Char} : isWordStart c = true ↔ c.isAlpha = true ∨ c = '_' := by
  simp [isWordStart]

theorem isWordRest_iff {c : Char} : isWordRest c = true ↔ c.isAlphanum = true ∨ c = '_' := by
  simp [isWordRest]

theorem isGap_iff {c : Char} : isGap c = true ↔ c = ' ' ∨ c = '\t' ∨ c = '\r' := by
  simp [isGap, or_assoc]

/-- Characters of a class, and those of the class that follow them, are a run of
the class that stops. -/
theorem exists_run (p : Char → Bool) {w : List Char} (hw : ∀ x ∈ w, p x = true)
    (rest : List Char) :
    ∃ w' after, w ++ rest = w ++ w' ++ after ∧ (∀ x ∈ w ++ w', p x = true) ∧ Stops p after := by
  refine ⟨rest.takeWhile p, rest.dropWhile p, ?_, ?_, stops_dropWhile p rest⟩
  · rw [List.append_assoc, List.takeWhile_append_dropWhile]
  · exact List.forall_mem_append.2 ⟨hw, forall_mem_takeWhile p rest⟩

end Segment

open Segment

/-- A literal is a word, or a sign of two characters, or one of one character. -/
theorem cases_of_mem_literals {text : String} {t : Token} (h : (text, t) ∈ literals) :
    (∃ c w, text.toList = c :: w ∧ isWordStart c = true ∧ ∀ x ∈ w, isWordRest x = true) ∨
      text.toList = ['=', '='] ∨ text.toList = ['!', '='] ∨
        ∃ c, text.toList = [c] ∧ Token.ofSign? c = some t := by
  simp only [literals, List.mem_cons, Prod.mk.injEq, List.not_mem_nil, or_false] at h
  rcases h with ⟨rfl, rfl⟩ | ⟨rfl, rfl⟩ | ⟨rfl, rfl⟩ | ⟨rfl, rfl⟩ | ⟨rfl, rfl⟩ | ⟨rfl, rfl⟩ |
    ⟨rfl, rfl⟩ | ⟨rfl, rfl⟩ | h
  iterate 6 exact .inl ⟨_, _, rfl, by decide, List.all_eq_true.1 rfl⟩
  · exact .inr (.inl rfl)
  · exact .inr (.inr (.inl rfl))
  · refine .inr (.inr (.inr ?_))
    rcases h with ⟨rfl, rfl⟩ | ⟨rfl, rfl⟩ | ⟨rfl, rfl⟩ | ⟨rfl, rfl⟩ | ⟨rfl, rfl⟩ | ⟨rfl, rfl⟩ |
      ⟨rfl, rfl⟩ | ⟨rfl, rfl⟩ | ⟨rfl, rfl⟩ | ⟨rfl, rfl⟩ | ⟨rfl, rfl⟩ | ⟨rfl, rfl⟩
    all_goals exact ⟨_, rfl, rfl⟩

/-- Where a word matches, the scanner takes at least as much, and legally. -/
theorem munches_word_of_matches {c : Char} {w : List Char} (hc : isWordStart c = true)
    (hw : ∀ x ∈ w, isWordRest x = true) (rest : List Char) :
    ∃ s after, Munches (c :: w ++ rest) s after ∧ (c :: w).length ≤ s.text.length ∧
      ¬ s.Illegal := by
  obtain ⟨w', after, hsource, hall, hstop⟩ := exists_run isWordRest hw rest
  rw [List.cons_append, hsource]
  exact ⟨_, after, .word hc hall hstop, by simp, not_illegal_of_ok⟩

/-- **What a rule matches at the front of a source is no longer than the segment
that the scanner takes off there.** -/
theorem Rule.Matches.exists_munches {r : Rule} {v : List Char} (h : r.Matches v)
    (rest : List Char) :
    ∃ s after, Munches (v ++ rest) s after ∧ v.length ≤ s.text.length ∧ ¬ s.Illegal := by
  cases h with
  | @literal text t h =>
    rcases cases_of_mem_literals h with ⟨c, w, hv, hc, hw⟩ | hv | hv | ⟨c, hv, ht⟩ <;> rw [hv]
    · exact munches_word_of_matches hc hw rest
    · exact ⟨_, _, .equalEqual, le_rfl, not_illegal_of_ok⟩
    · exact ⟨_, _, .bangEqual, le_rfl, not_illegal_of_ok⟩
    · by_cases hlong : c = '=' ∧ ∃ after, rest = '=' :: after
      · obtain ⟨rfl, after, rfl⟩ := hlong
        exact ⟨_, _, .equalEqual, by simp, not_illegal_of_ok⟩
      · refine ⟨_, _, .sign ht fun hc x hx => ?_, le_rfl, not_illegal_of_ok⟩
        refine decide_eq_false fun hx' => hlong ⟨hc, ?_⟩
        obtain ⟨after, rfl⟩ := List.head?_eq_some_iff.1 hx
        exact ⟨after, by rw [hx']⟩
  | @string body hb =>
    have hm : Munches ('"' :: (body ++ '"' :: rest)) _ rest := .string hb
    have hsource : '"' :: (body ++ '"' :: rest) = '"' :: (body ++ ['"']) ++ rest := by simp
    rw [hsource] at hm
    exact ⟨_, rest, hm, by simp, not_illegal_of_ok⟩
  | @real w f hw hf hwd hfd =>
    obtain ⟨f', after, hsource, hall, hstop⟩ := exists_run Char.isDigit hfd rest
    have hm := Munches.real hw (by simp [hf]) hwd hall hstop
    rw [← hsource] at hm
    exact ⟨_, after, by simpa using hm, by simp, not_illegal_readReal _ _ _⟩
  | integer hw hwd =>
    obtain ⟨w', after, hsource, hall, hstop⟩ := exists_run Char.isDigit hwd rest
    have hm := munches_number (by simp [hw]) hall hstop
    rw [← hsource] at hm
    refine ⟨_, _, hm, ?_, ?_⟩
    · unfold number
      split
      · split <;> simp
      · simp
    · unfold number
      split
      · split
        · exact not_illegal_readReal _ _ _
        · exact not_illegal_readInteger _ _
      · exact not_illegal_readInteger _ _
  | identifier hc hw =>
    exact munches_word_of_matches (isWordStart_iff.2 hc)
      (fun x hx => isWordRest_iff.2 (hw x hx)) rest
  | newlines hw h =>
    cases v with
    | nil => exact absurd rfl hw
    | cons c w =>
      have h' : ∀ x ∈ w, decide (x = '\n') = true :=
        fun x hx => decide_eq_true (h x (List.mem_cons_of_mem _ hx))
      obtain ⟨w', after, hsource, hall, hstop⟩ := exists_run (· = '\n') h' rest
      obtain rfl := h c (List.mem_cons_self ..)
      rw [List.cons_append, hsource]
      exact ⟨_, after, .newlines (fun x hx => of_decide_eq_true (hall x hx)) hstop, by simp,
        not_illegal_of_ok⟩
  | blanks hw h =>
    cases v with
    | nil => exact absurd rfl hw
    | cons c w =>
      have h' : ∀ x ∈ w, isGap x = true :=
        fun x hx => isGap_iff.2 (h x (List.mem_cons_of_mem _ hx))
      obtain ⟨w', after, hsource, hall, hstop⟩ := exists_run isGap h' rest
      have hc : isGap c = true := isGap_iff.2 (h c (List.mem_cons_self ..))
      rw [List.cons_append, hsource]
      exact ⟨_, after, .gaps hc hall hstop, by simp, not_illegal_of_ok⟩

/-- Every sign is among the literals of the rules. -/
theorem mem_literals_of_ofSign? {c : Char} {t : Token} (h : Token.ofSign? c = some t) :
    (String.ofList [c], t) ∈ literals := by
  unfold Token.ofSign? at h
  split at h <;> cases h <;> decide

/-- A literal is what the table lists, as characters. -/
theorem matched_of_mem_literals {w : List Char} {t : Token}
    (h : (String.ofList w, t) ∈ literals) : Matched w := by
  have hm : Rule.literal.Matches (String.ofList w).toList := .literal h
  rw [String.toList_ofList] at hm
  exact ⟨_, hm⟩

/-- A segment that is not illegal is matched by a rule. -/
theorem Segment.Munches.matched {source after : List Char} {s : Segment}
    (h : Munches source s after) (hs : ¬ s.Illegal) : Matched s.text := by
  cases h with
  | string hb => exact ⟨_, .string hb⟩
  | openQuote => exact absurd ⟨_, rfl⟩ hs
  | real hw hf hwd hfd ha => exact ⟨_, .real hw hf hwd hfd⟩
  | integer hw hwd ha hp => exact ⟨_, .integer hw hwd⟩
  | word hc hw ha =>
    exact ⟨_, .identifier (isWordStart_iff.1 hc) fun x hx => isWordRest_iff.1 (hw x hx)⟩
  | newlines hw ha =>
    exact ⟨_, .newlines (List.cons_ne_nil _ _) (List.forall_mem_cons.2 ⟨rfl, hw⟩)⟩
  | gaps hc hw ha =>
    refine ⟨_, .blanks (List.cons_ne_nil _ _) (List.forall_mem_cons.2 ⟨isGap_iff.1 hc, ?_⟩)⟩
    exact fun x hx => isGap_iff.1 (hw x hx)
  | equalEqual => exact matched_of_mem_literals (w := ['=', '=']) (t := .equalEqual) (by decide)
  | bangEqual => exact matched_of_mem_literals (w := ['!', '=']) (t := .bangEqual) (by decide)
  | sign ht ha => exact matched_of_mem_literals (mem_literals_of_ofSign? ht)
  | illegal => exact absurd ⟨_, rfl⟩ hs

/-- **No matched text at the front of a source is longer than its first segment**,
and none is there at all if that is illegal. -/
theorem Segment.Munches.longest {source after v : List Char} {s : Segment}
    (h : Munches source s after) (hv : v <+: source) (hm : Matched v) :
    v.length ≤ s.text.length ∧ ¬ s.Illegal := by
  obtain ⟨rest, rfl⟩ := hv
  obtain ⟨r, hr⟩ := hm
  obtain ⟨s', after', h', hle, hs'⟩ := hr.exists_munches rest
  obtain ⟨rfl, -⟩ := h.unique h'
  exact ⟨hle, hs'⟩

/-- An illegal segment is the one character that it names. -/
theorem Segment.Munches.text_of_illegal {source after : List Char} {s : Segment} {c : Char}
    (h : Munches source s after) (hs : s.reading = .error (.illegalCharacter c)) :
    s.text = [c] := by
  rcases h.ordinary with ⟨body, -, rfl⟩ | ⟨d, rfl, -⟩ | ⟨hno, -⟩
  · cases hs
  · cases hs
    rfl
  · exact absurd hs (hno c)

/-- An illegal segment takes one character off. -/
theorem Segment.Munches.rest_of_illegal {c : Char} {rest after : List Char} {s : Segment}
    (h : Munches (c :: rest) s after) (hs : s.Illegal) : s.text = [c] ∧ after = rest := by
  obtain ⟨d, hd⟩ := hs
  have htext := h.text_of_illegal hd
  have hsource := h.source_eq
  rw [htext, List.singleton_append] at hsource
  obtain ⟨rfl, rfl⟩ := List.cons.inj hsource
  exact ⟨htext, rfl⟩

/-- The scanner cuts a source by longest matches. -/
theorem cuts_cut (source : List Char) : Cuts source ((cut source).map text) := by
  fun_induction cut source with
  | case1 => exact .nil
  | case2 c rest ih =>
    have hm := munches_munch c rest
    have hsource := hm.source_eq
    rw [List.map_cons]
    by_cases hs : (munch c rest).1.Illegal
    · obtain ⟨htext, hrest⟩ := hm.rest_of_illegal hs
      rw [htext]
      rw [hrest] at ih ⊢
      exact .unmatched (fun v hv hv' => (hm.longest hv hv').2 hs) ih
    · have hcuts : Cuts ((munch c rest).1.text ++ (munch c rest).2) _ :=
        .matched (hm.matched hs) (fun v hv hv' => ?_) ih
      · rwa [← hsource] at hcuts
      · rw [← hsource] at hv
        exact (hm.longest hv hv').1

/-- **There is no other way to cut a source by longest matches.** -/
theorem Cuts.eq_map_text {source : List Char} {ws : List (List Char)} (h : Cuts source ws) :
    ws = (cut source).map text := by
  induction h with
  | nil => simp [cut]
  | @matched w rest ws hw hlongest _ ih =>
    cases hsource : w ++ rest with
    | nil =>
      obtain ⟨s, after, hm, -⟩ := hw.choose_spec.exists_munches rest
      rw [hsource] at hm
      exact absurd (List.append_eq_nil_iff.1 hm.source_eq.symm).1 hm.text_ne_nil
    | cons c cs =>
      have hm := munches_munch c cs
      rw [← hsource] at hm
      obtain ⟨hle, hs⟩ := hm.longest (List.prefix_append w rest) hw
      have hge := hlongest _ (hm.source_eq ▸ List.prefix_append _ _) (hm.matched hs)
      obtain ⟨htext, hrest⟩ := List.append_inj hm.source_eq (Nat.le_antisymm hle hge)
      rw [← hsource, hm.cut_eq, List.map_cons, ← htext, ← hrest, ih]
  | @unmatched c rest ws hnone _ ih =>
    have hm := munches_munch c rest
    have hs : (munch c rest).1.Illegal := by
      by_contra hs
      exact hnone _ (hm.source_eq ▸ List.prefix_append _ _) (hm.matched hs)
    obtain ⟨htext, hrest⟩ := hm.rest_of_illegal hs
    rw [hm.cut_eq, List.map_cons, htext, hrest, ih]

/-- A literal by itself is one segment, its token. -/
theorem munches_of_mem_literals {text : String} {t : Token} (h : (text, t) ∈ literals) :
    Munches text.toList ⟨text.toList, .ok t⟩ [] := by
  simp only [literals, List.mem_cons, Prod.mk.injEq, List.not_mem_nil, or_false] at h
  rcases h with ⟨rfl, rfl⟩ | ⟨rfl, rfl⟩ | ⟨rfl, rfl⟩ | ⟨rfl, rfl⟩ | ⟨rfl, rfl⟩ | ⟨rfl, rfl⟩ |
    ⟨rfl, rfl⟩ | ⟨rfl, rfl⟩ | ⟨rfl, rfl⟩ | ⟨rfl, rfl⟩ | ⟨rfl, rfl⟩ | ⟨rfl, rfl⟩ | ⟨rfl, rfl⟩ |
    ⟨rfl, rfl⟩ | ⟨rfl, rfl⟩ | ⟨rfl, rfl⟩ | ⟨rfl, rfl⟩ | ⟨rfl, rfl⟩ | ⟨rfl, rfl⟩ | ⟨rfl, rfl⟩
  all_goals exact munches_munch _ _

/-- A word that is no literal is an identifier. -/
theorem ofWord_eq_identifier {word : String} (h : ∀ t, (word, t) ∉ literals) :
    Token.ofWord word = .identifier word := by
  have hne : ∀ {other : String} {t : Token}, (other, t) ∈ literals → word ≠ other := by
    rintro _ t hm rfl
    exact h t hm
  rw [Token.ofWord, if_neg (hne (t := .bool true) (by decide)),
    if_neg (hne (t := .bool false) (by decide)), if_neg (hne (t := .ifWord) (by decide)),
    if_neg (hne (t := .elseWord) (by decide)), if_neg (hne (t := .whileWord) (by decide)),
    if_neg (hne (t := .printWord) (by decide))]

/-- Digits up to the largest integer are read as their number. -/
theorem readInteger_eq_ok_iff {w : List Char} {k : Int64} :
    readInteger w = .ok (.integer k) ↔ k.toInt = decimal w := by
  have hdecimal : Nat.ofDigitChars 10 w 0 = decimal w := rfl
  simp only [readInteger, hdecimal]
  split
  · rename_i hlt
    have hof : (Int64.ofNat (decimal w)).toInt = decimal w := Int64.toInt_ofNat_of_lt hlt
    constructor
    · rintro ⟨⟩
      exact hof
    · intro hk
      rw [Int64.toInt_inj.1 (hk.trans hof.symm)]
  · rename_i hge
    have hk := Int64.toInt_lt k
    have hbound : Value.integerBound = 2 ^ 63 := rfl
    constructor
    · rintro ⟨⟩
    · intro hk'
      omega

/-- Digits beyond the largest integer are too large. -/
theorem readInteger_eq_error_iff {w : List Char} :
    readInteger w = .error (.integerTooLarge (String.ofList w)) ↔ largestInteger < decimal w := by
  have hdecimal : Nat.ofDigitChars 10 w 0 = decimal w := rfl
  have hbound : Value.integerBound = largestInteger + 1 := rfl
  simp only [readInteger, hdecimal]
  split
  · simp only [reduceCtorEq, false_iff]
    omega
  · simp only [true_iff]
    omega

theorem readReal_of_finite {w f : List Char} (h : (nearest w f).isFinite = true) :
    readReal w f = .ok (.real (nearest w f)) :=
  if_pos h

theorem readReal_of_infinite {w f : List Char} (h : (nearest w f).isFinite = false) :
    readReal w f = .error (.realTooLarge (String.ofList (w ++ '.' :: f))) :=
  if_neg (ne_true_of_eq_false h)

/-- What a piece is read as, the scanner reads it as, when the piece is all of the
source. -/
theorem Reads.munches {w : List Char} {r : Except LexFault Token} (h : Reads w r) :
    Munches w ⟨w, r⟩ [] := by
  have hinteger : ∀ {w : List Char}, Rule.integer.Matches w →
      Munches w ⟨w, readInteger w⟩ [] := by
    rintro w ⟨⟩
    rename_i hw hwd
    have hm : Munches (w ++ []) _ [] := .integer hw hwd (by simp [Stops]) (by simp)
    rwa [List.append_nil] at hm
  have hreal : ∀ {w f : List Char}, Rule.integer.Matches w → Rule.integer.Matches f →
      Munches (w ++ '.' :: f) ⟨w ++ '.' :: f, readReal w f⟩ [] := by
    rintro w f ⟨⟩ ⟨⟩
    rename_i hw hwd hf hfd
    have hm : Munches (w ++ '.' :: (f ++ [])) _ [] := .real hw hf hwd hfd (by simp [Stops])
    rwa [List.append_nil] at hm
  cases h with
  | literal h => exact munches_of_mem_literals h
  | identifier hw hno =>
    cases hw with
    | @identifier c w hc hw =>
      have hm : Munches (c :: (w ++ [])) _ [] :=
        .word (isWordStart_iff.2 hc) (fun x hx => isWordRest_iff.2 (hw x hx)) (by simp [Stops])
      rwa [List.append_nil, ofWord_eq_identifier hno] at hm
  | string hb => exact .string hb
  | integer hw hk => exact readInteger_eq_ok_iff.2 hk ▸ hinteger hw
  | integerTooLarge hw hlarge => exact readInteger_eq_error_iff.2 hlarge ▸ hinteger hw
  | real hw hf hx => exact readReal_of_finite hx ▸ hreal hw hf
  | realTooLarge hw hf hx => exact readReal_of_infinite hx ▸ hreal hw hf
  | @illegal c hno =>
    obtain ⟨⟨text, reading⟩, after, hm⟩ : ∃ s after, Munches [c] s after :=
      ⟨_, _, munches_munch c []⟩
    obtain ⟨rfl, -⟩ | ⟨rfl, rfl⟩ := List.append_eq_singleton_iff.1 hm.source_eq.symm
    · exact absurd rfl hm.text_ne_nil
    have hs : Illegal ⟨[c], reading⟩ := by
      by_contra hs
      exact hno (hm.matched hs)
    obtain ⟨d, rfl⟩ := hs
    obtain rfl : c = d := by simpa using hm.text_of_illegal rfl
    exact hm

/-- A piece is read in one way only. -/
theorem Reads.unique {w : List Char} {r r' : Except LexFault Token} (h : Reads w r)
    (h' : Reads w r') : r = r' :=
  congrArg Segment.reading (h.munches.unique h'.munches).1

/-- **The scanner reads its segments as the rules say.** -/
theorem Segment.Munches.reads {source after : List Char} {s : Segment}
    (h : Munches source s after) (hs : s.isLayout = false) : Reads s.text s.reading := by
  have hillegal : ∀ {c : Char}, s.reading = .error (.illegalCharacter c) → ¬ Matched [c] := by
    intro c hc hm
    have hprefix : [c] <+: source := by
      rw [h.source_eq, h.text_of_illegal hc]
      exact List.prefix_append _ _
    exact (h.longest hprefix hm).2 ⟨c, hc⟩
  cases h with
  | string hb => exact .string hb
  | openQuote => exact .illegal (hillegal rfl)
  | @real w f after hw hf hwd hfd ha =>
    cases hx : (nearest w f).isFinite with
    | true => exact readReal_of_finite hx ▸ .real (.integer hw hwd) (.integer hf hfd) hx
    | false => exact readReal_of_infinite hx ▸ .realTooLarge (.integer hw hwd) (.integer hf hfd) hx
  | @integer w after hw hwd ha hp =>
    rcases readInteger_cases w with ⟨k, hk⟩ | hk
    · exact hk ▸ .integer (.integer hw hwd) (readInteger_eq_ok_iff.1 hk)
    · exact hk ▸ .integerTooLarge (.integer hw hwd) (readInteger_eq_error_iff.1 hk)
  | @word c w after hc hw ha =>
    have hm : Rule.identifier.Matches (c :: w) :=
      .identifier (isWordStart_iff.1 hc) fun x hx => isWordRest_iff.1 (hw x hx)
    by_cases hliteral : ∃ t, (String.ofList (c :: w), t) ∈ literals
    · obtain ⟨t, ht⟩ := hliteral
      have hreads : Reads (String.ofList (c :: w)).toList (.ok t) := .literal ht
      have hword : Munches (c :: (w ++ [])) _ [] := .word hc hw (by simp [Stops])
      rw [String.toList_ofList] at hreads
      rw [List.append_nil] at hword
      have heq := (hreads.munches.unique hword).1
      exact (Segment.mk.inj heq).2 ▸ hreads
    · have hno : ∀ t, (String.ofList (c :: w), t) ∉ literals := fun t ht => hliteral ⟨t, ht⟩
      exact ofWord_eq_identifier hno ▸ .identifier hm hno
  | newlines => cases hs
  | gaps => cases hs
  | equalEqual => exact @Reads.literal "==" .equalEqual (by decide)
  | bangEqual => exact @Reads.literal "!=" .bangEqual (by decide)
  | @sign c t after ht ha =>
    have hreads : Reads (String.ofList [c]).toList (.ok t) := .literal (mem_literals_of_ofSign? ht)
    rwa [String.toList_ofList] at hreads
  | illegal => exact .illegal (hillegal rfl)

theorem isWhitespace_iff {c : Char} : c.isWhitespace = true ↔ c = '\n' ∨ isGap c = true := by
  simp only [Char.isWhitespace, Bool.or_eq_true, decide_eq_true_eq, isGap_iff]
  constructor
  · rintro (((h | h) | h) | h) <;> simp [h]
  · rintro (h | h | h | h) <;> simp [h]

/-- The characters of a class without layout are not layout. -/
theorem isWhitespace_eq_false_of_class {p : Char → Bool} {x : Char} (hx : p x = true)
    (hn : p '\n' = false) (hs : p ' ' = false) (ht : p '\t' = false) (hr : p '\r' = false) :
    x.isWhitespace = false := by
  refine Bool.eq_false_iff.2 fun h => ?_
  rcases isWhitespace_iff.1 h with rfl | hg
  · exact absurd hx (ne_true_of_eq_false hn)
  · rcases isGap_iff.1 hg with rfl | rfl | rfl
    · exact absurd hx (ne_true_of_eq_false hs)
    · exact absurd hx (ne_true_of_eq_false ht)
    · exact absurd hx (ne_true_of_eq_false hr)

/-- A segment is layout when it is all spaces, tabs, carriage returns and
newlines. -/
theorem Segment.Munches.isLayout_eq {source after : List Char} {s : Segment}
    (h : Munches source s after) : s.isLayout = s.text.all Char.isWhitespace := by
  have hdigits : ∀ {w : List Char}, w ≠ [] → (∀ x ∈ w, x.isDigit = true) →
      w.all Char.isWhitespace = false := by
    intro w hw hwd
    obtain ⟨x, hx⟩ := List.exists_mem_of_ne_nil w hw
    have hx' := isWhitespace_eq_false_of_class (hwd x hx) rfl rfl rfl rfl
    exact List.all_eq_false.2 ⟨x, hx, ne_true_of_eq_false hx'⟩
  cases h with
  | string hb => rfl
  | openQuote => rfl
  | @real w f after hw hf hwd hfd ha =>
    rw [List.all_append, hdigits hw hwd]
    rcases readReal_cases w f with ⟨x, -, hx⟩ | hx <;> simp [isLayout, hx, Token.isLayout]
  | @integer w after hw hwd ha hp =>
    rw [hdigits hw hwd]
    rcases readInteger_cases w with ⟨k, hk⟩ | hk <;> simp [isLayout, hk, Token.isLayout]
  | @word c w after hc hw ha =>
    have hc' := isWhitespace_eq_false_of_class hc rfl rfl rfl rfl
    rw [List.all_cons, hc', Bool.false_and]
    exact isLayout_ofWord _
  | @newlines w after hw ha =>
    have hall : ∀ x ∈ '\n' :: w, x = '\n' := List.forall_mem_cons.2 ⟨rfl, hw⟩
    exact (List.all_eq_true.2 fun x hx => isWhitespace_iff.2 (.inl (hall x hx))).symm
  | @gaps c w after hc hw ha =>
    have hall : ∀ x ∈ c :: w, isGap x = true := List.forall_mem_cons.2 ⟨hc, hw⟩
    exact (List.all_eq_true.2 fun x hx => isWhitespace_iff.2 (.inr (hall x hx))).symm
  | equalEqual => rfl
  | bangEqual => rfl
  | @sign c t after ht ha =>
    unfold Token.ofSign? at ht
    split at ht <;> cases ht <;> rfl
  | @illegal c after h =>
    have hc : c.isWhitespace = false := by
      refine Bool.eq_false_iff.2 fun hc => ?_
      rcases isWhitespace_iff.1 hc with hn | hg
      · exact h.newline hn
      · exact absurd hg (ne_true_of_eq_false h.gap)
    simp [isLayout, hc]

/-- The items of a scan are the readings of the segments that are not layout. -/
theorem map_val_items (line : Nat) (ss : List Segment) :
    (items line ss).map Located.val = (ss.filter fun s => !s.isLayout).map reading := by
  induction ss generalizing line with
  | nil => rfl
  | cons s ss ih =>
    rw [items]
    cases hs : s.isLayout with
    | true => simp [hs, ih]
    | false => simp [hs, ih]

/-- Pieces that are each read in one way are read in one way together. -/
theorem forall₂_reads_iff {ss : List Segment} {rs : List (Except LexFault Token)}
    (h : ∀ s ∈ ss, Reads s.text s.reading) :
    List.Forall₂ Reads (ss.map text) rs ↔ rs = ss.map reading := by
  induction ss generalizing rs with
  | nil => simp
  | cons s ss ih =>
    obtain ⟨hs, hss⟩ := List.forall_mem_cons.1 h
    rw [List.map_cons, List.forall₂_cons_left_iff, List.map_cons]
    constructor
    · rintro ⟨r, rs', hr, hrs, rfl⟩
      rw [hr.unique hs, (ih hss).1 hrs]
    · rintro rfl
      exact ⟨_, _, hs, (ih hss).2 rfl, rfl⟩

/-- **The scanner takes the longest match, and loses nothing.**  There is exactly
one way to cut a source into pieces by longest matches.  The pieces are not
empty, together they are the source, and the scan has, in order, what each piece
that is not layout is read as, and no other item. -/
theorem tokenize_longest_match (source : String) :
    ∃ ws, (∀ vs, Cuts source.toList vs ↔ vs = ws) ∧ ws.flatten = source.toList ∧
      (∀ w ∈ ws, w ≠ []) ∧
        ∀ rs, List.Forall₂ Reads (ws.filter fun w => !w.all Char.isWhitespace) rs ↔
          rs = (tokenize source).map Located.val := by
  have hlayout : ∀ s ∈ cut source.toList, s.isLayout = s.text.all Char.isWhitespace := by
    intro s hs
    obtain ⟨_, _, hm⟩ := exists_munches_of_mem_cut hs
    exact hm.isLayout_eq
  refine ⟨(cut source.toList).map text, ?_, flatten_cut _, ?_, ?_⟩
  · intro vs
    constructor
    · exact fun h => h.eq_map_text
    · rintro rfl
      exact cuts_cut _
  · intro w hw
    obtain ⟨s, hs, rfl⟩ := List.mem_map.1 hw
    exact text_ne_nil_of_mem_cut hs
  · intro rs
    have hfilter : ((cut source.toList).map text).filter (fun w => !w.all Char.isWhitespace) =
        ((cut source.toList).filter fun s => !s.isLayout).map text := by
      rw [List.filter_map]
      refine congrArg _ (List.filter_congr fun s hs => ?_)
      rw [hlayout s hs]
      rfl
    rw [hfilter, tokenize_eq, map_val_items]
    refine forall₂_reads_iff fun s hs => ?_
    obtain ⟨hs, hl⟩ := List.mem_filter.1 hs
    obtain ⟨_, _, hm⟩ := exists_munches_of_mem_cut hs
    exact hm.reads (by simpa using hl)

end FlatScript
