/-
# What one segment can be

`Segment.Munches source s after` lists, case by case, every way in which a
segment `s` can be taken off a source so that `after` is left: the shape of the
text, its reading, and the condition on what follows that makes the segment end
there.  The scanner's `munch` takes a segment off in exactly these ways
(`Segment.munches_munch`, `Segment.Munches.munch_eq`), so the facts about
segments are read off the list, and `munch` need not be opened again.
-/

import FlatScript.Token.Segment
import Mathlib.Data.List.TakeWhile

namespace FlatScript
namespace Segment

/-- A run of characters of a class ends before this text. -/
def Stops (p : Char → Bool) (after : List Char) : Prop :=
  ∀ x ∈ after.head?, p x = false

/-- What is left after a run does not go on with it. -/
theorem stops_dropWhile (p : Char → Bool) (cs : List Char) : Stops p (cs.dropWhile p) := by
  intro x hx
  have h := List.head?_dropWhile_not p cs
  rw [Option.mem_def.1 hx] at h
  simpa using h

theorem forall_mem_takeWhile (p : Char → Bool) (cs : List Char) :
    ∀ x ∈ cs.takeWhile p, p x = true :=
  fun _ hx => List.mem_takeWhile_imp hx

/-- A run ends where what follows stops it. -/
theorem takeWhile_append_of_stops {p : Char → Bool} {w after : List Char}
    (hw : ∀ x ∈ w, p x = true) (h : Stops p after) : (w ++ after).takeWhile p = w := by
  rw [List.takeWhile_append_of_pos hw]
  cases after with
  | nil => simp
  | cons x xs => simp [h x rfl]

/-- What follows a run is what stops it. -/
theorem dropWhile_append_of_stops {p : Char → Bool} {w after : List Char}
    (hw : ∀ x ∈ w, p x = true) (h : Stops p after) : (w ++ after).dropWhile p = after := by
  rw [List.dropWhile_append_of_pos hw]
  cases after with
  | nil => rfl
  | cons x xs => simp [h x rfl]

/-- A character that starts no rule, with the text after it. -/
structure IsIllegal (c : Char) (after : List Char) : Prop where
  quote : c ≠ '"'
  digit : c.isDigit = false
  word : isWordStart c = false
  newline : c ≠ '\n'
  gap : isGap c = false
  sign : Token.ofSign? c = none
  bang : c = '!' → Stops (· = '=') after

/-- `Munches source s after`: the segment `s` can be taken off the source, which
leaves `after`. -/
inductive Munches : List Char → Segment → List Char → Prop where
  | string {body after : List Char} (hb : '"' ∉ body) :
      Munches ('"' :: (body ++ '"' :: after))
        ⟨'"' :: body ++ ['"'], .ok (.str (String.ofList body))⟩ after
  | openQuote {after : List Char} (ha : '"' ∉ after) :
      Munches ('"' :: after) ⟨['"'], .error (.illegalCharacter '"')⟩ after
  | real {w f after : List Char} (hw : w ≠ []) (hf : f ≠ []) (hwd : ∀ x ∈ w, x.isDigit = true)
      (hfd : ∀ x ∈ f, x.isDigit = true) (ha : Stops Char.isDigit after) :
      Munches (w ++ '.' :: (f ++ after)) ⟨w ++ '.' :: f, readReal w f⟩ after
  | integer {w after : List Char} (hw : w ≠ []) (hwd : ∀ x ∈ w, x.isDigit = true)
      (ha : Stops Char.isDigit after) (hp : ∀ cs, after = '.' :: cs → Stops Char.isDigit cs) :
      Munches (w ++ after) ⟨w, readInteger w⟩ after
  | word {c : Char} {w after : List Char} (hc : isWordStart c = true)
      (hw : ∀ x ∈ w, isWordRest x = true) (ha : Stops isWordRest after) :
      Munches (c :: (w ++ after)) ⟨c :: w, .ok (Token.ofWord (String.ofList (c :: w)))⟩ after
  | newlines {w after : List Char} (hw : ∀ x ∈ w, x = '\n') (ha : Stops (· = '\n') after) :
      Munches ('\n' :: (w ++ after)) ⟨'\n' :: w, .ok .newline⟩ after
  | gaps {c : Char} {w after : List Char} (hc : isGap c = true) (hw : ∀ x ∈ w, isGap x = true)
      (ha : Stops isGap after) : Munches (c :: (w ++ after)) ⟨c :: w, .ok .blank⟩ after
  | equalEqual {after : List Char} :
      Munches ('=' :: '=' :: after) ⟨['=', '='], .ok .equalEqual⟩ after
  | bangEqual {after : List Char} :
      Munches ('!' :: '=' :: after) ⟨['!', '='], .ok .bangEqual⟩ after
  | sign {c : Char} {t : Token} {after : List Char} (ht : Token.ofSign? c = some t)
      (ha : c = '=' → Stops (· = '=') after) : Munches (c :: after) ⟨[c], .ok t⟩ after
  | illegal {c : Char} {after : List Char} (h : IsIllegal c after) :
      Munches (c :: after) ⟨[c], .error (.illegalCharacter c)⟩ after

/-- A string is taken to its closing quote, or as an open one. -/
theorem munches_string? {rest after : List Char} {s : Segment}
    (h : string? rest = some (s, after)) : Munches ('"' :: rest) s after := by
  unfold string? at h
  split at h
  · simp at h
  · rename_i q tail hq
    obtain ⟨rfl, rfl⟩ := Prod.mk.inj (Option.some.inj h)
    have hstop := stops_dropWhile (· ≠ '"') rest q (by rw [hq]; rfl)
    obtain rfl : q = '"' := by simpa using hstop
    have hb : '"' ∉ rest.takeWhile (· ≠ '"') := fun hm => by
      simpa using List.mem_takeWhile_imp hm
    have hm : Munches ('"' :: (rest.takeWhile (· ≠ '"') ++ '"' :: tail)) _ tail := .string hb
    rwa [← hq, List.takeWhile_append_dropWhile] at hm

/-- Digits are taken as an integer or, with a fraction, as a real. -/
theorem munches_number {digits rest : List Char} (hne : digits ≠ [])
    (hd : ∀ x ∈ digits, x.isDigit = true) (hrest : Stops Char.isDigit rest) :
    Munches (digits ++ rest) (number digits rest).1 (number digits rest).2 := by
  unfold number
  split
  · rename_i d after
    split
    · rename_i hdigit
      have hf : ∀ x ∈ d :: after.takeWhile Char.isDigit, x.isDigit = true := by
        intro x hx
        rcases List.mem_cons.1 hx with rfl | hx
        · exact hdigit
        · exact List.mem_takeWhile_imp hx
      have hm := Munches.real hne (List.cons_ne_nil _ _) hd hf (stops_dropWhile Char.isDigit after)
      rwa [List.cons_append, List.takeWhile_append_dropWhile] at hm
    · rename_i hdigit
      refine .integer hne hd hrest ?_
      rintro cs hcs x hx
      obtain rfl : d :: after = cs := by simpa using hcs
      obtain rfl : d = x := by simpa using hx
      simpa using hdigit
  · rename_i hshape
    refine .integer hne hd hrest ?_
    rintro cs rfl x hx
    obtain ⟨xs, rfl⟩ := List.head?_eq_some_iff.1 hx
    exact absurd rfl (hshape x xs)

/-- Any other character is taken as a sign or is illegal. -/
theorem munches_sign {c : Char} {rest : List Char} (hq : c ≠ '"') (hd : c.isDigit = false)
    (hw : isWordStart c = false) (hn : c ≠ '\n') (hg : isGap c = false) :
    Munches (c :: rest) (sign c rest).1 (sign c rest).2 := by
  unfold sign
  split
  · exact .equalEqual
  · exact .bangEqual
  · rename_i hequal hbang
    have hstop : ∀ x, x ∈ rest.head? → x = '=' → c ≠ '=' ∧ c ≠ '!' := by
      rintro x hx rfl
      obtain ⟨xs, rfl⟩ := List.head?_eq_some_iff.1 hx
      exact ⟨fun h => hequal xs h rfl, fun h => hbang xs h rfl⟩
    split
    · rename_i t ht
      refine .sign ht fun hc x hx => ?_
      exact decide_eq_false fun hx' => (hstop x hx hx').1 hc
    · rename_i ht
      refine .illegal ⟨hq, hd, hw, hn, hg, ht, fun hc x hx => ?_⟩
      exact decide_eq_false fun hx' => (hstop x hx hx').2 hc

/-- **The scanner takes a segment off in one of the listed ways.** -/
theorem munches_munch (c : Char) (rest : List Char) :
    Munches (c :: rest) (munch c rest).1 (munch c rest).2 := by
  unfold munch
  split
  · rename_i hc
    subst hc
    cases h : string? rest with
    | none =>
      unfold string? at h
      split at h
      · rename_i hnil
        refine .openQuote fun hm => ?_
        simpa using List.dropWhile_eq_nil_iff.1 hnil _ hm
      · simp at h
    | some r => exact munches_string? h
  split
  · rename_i hd
    have hm := munches_number (List.cons_ne_nil _ _)
      (List.forall_mem_cons.2 ⟨hd, forall_mem_takeWhile Char.isDigit rest⟩)
      (stops_dropWhile Char.isDigit rest)
    rwa [List.cons_append, List.takeWhile_append_dropWhile] at hm
  split
  · rename_i hw
    have hm := Munches.word hw (forall_mem_takeWhile isWordRest rest)
      (stops_dropWhile isWordRest rest)
    rwa [List.takeWhile_append_dropWhile] at hm
  split
  · rename_i hn
    subst hn
    have hm := Munches.newlines
      (fun x hx => of_decide_eq_true (forall_mem_takeWhile (· = '\n') rest x hx))
      (stops_dropWhile (· = '\n') rest)
    rwa [List.takeWhile_append_dropWhile] at hm
  split
  · rename_i hg
    have hm := Munches.gaps hg (forall_mem_takeWhile isGap rest)
      (stops_dropWhile isGap rest)
    rwa [List.takeWhile_append_dropWhile] at hm
  · rename_i hq hd hw hn hg
    exact munches_sign hq (by simpa using hd) (by simpa using hw) hn (by simpa using hg)

/-- A character that can start a word can go on one. -/
theorem isWordRest_of_isWordStart {c : Char} (h : isWordStart c = true) : isWordRest c = true := by
  simp only [isWordStart, isWordRest, Char.isAlphanum, Bool.or_eq_true] at h ⊢
  exact h.imp_left .inl

/-- The letters are two ranges of code points. -/
theorem toNat_of_isAlpha {c : Char} (h : c.isAlpha = true) :
    65 ≤ c.toNat ∧ c.toNat ≤ 90 ∨ 97 ≤ c.toNat ∧ c.toNat ≤ 122 := by
  have h' : (decide (c.val ≥ 'A'.val ∧ c.val ≤ 'Z'.val) ||
      (decide (c.val ≥ 'a'.val) && decide (c.val ≤ 'z'.val))) = true := h
  simp only [Bool.or_eq_true, Bool.and_eq_true, decide_eq_true_eq, ge_iff_le,
    UInt32.le_iff_toNat_le] at h'
  exact h'

/-- The digits are one range of code points. -/
theorem toNat_of_isDigit {c : Char} (h : c.isDigit = true) : 48 ≤ c.toNat ∧ c.toNat ≤ 57 := by
  have h' : (decide (c.val ≥ '0'.val) && decide (c.val ≤ '9'.val)) = true := h
  simp only [Bool.and_eq_true, decide_eq_true_eq, ge_iff_le, UInt32.le_iff_toNat_le] at h'
  exact h'

/-- No digit starts a word. -/
theorem isDigit_eq_false_of_isWordStart {c : Char} (h : isWordStart c = true) :
    c.isDigit = false := by
  simp only [isWordStart, Bool.or_eq_true, beq_iff_eq] at h
  refine Bool.eq_false_iff.2 fun hd => ?_
  have hdigit := toNat_of_isDigit hd
  rcases h with h | rfl
  · have halpha := toNat_of_isAlpha h
    omega
  · exact absurd hd (by decide)

/-- A string ends at its next quote. -/
theorem string?_eq_some {body after : List Char} (hb : '"' ∉ body) :
    string? (body ++ '"' :: after) =
      some (⟨'"' :: body ++ ['"'], .ok (.str (String.ofList body))⟩, after) := by
  have hall : ∀ x ∈ body, decide (x ≠ '"') = true := by
    intro x hx
    exact decide_eq_true fun hq => hb (hq ▸ hx)
  have hstop : Stops (· ≠ '"') ('"' :: after) := by simp [Stops]
  simp only [string?, dropWhile_append_of_stops hall hstop, takeWhile_append_of_stops hall hstop]

/-- Digits, a point and digits are a real. -/
theorem number_eq_real {w f after : List Char} (hf : f ≠ []) (hfd : ∀ x ∈ f, x.isDigit = true)
    (ha : Stops Char.isDigit after) :
    number w ('.' :: (f ++ after)) = (⟨w ++ '.' :: f, readReal w f⟩, after) := by
  cases f with
  | nil => exact absurd rfl hf
  | cons d f =>
    obtain ⟨hd, hfd⟩ := List.forall_mem_cons.1 hfd
    rw [List.cons_append, number, if_pos hd, takeWhile_append_of_stops hfd ha,
      dropWhile_append_of_stops hfd ha]

/-- Digits without a fraction are an integer. -/
theorem number_eq_integer {w after : List Char}
    (hp : ∀ cs, after = '.' :: cs → Stops Char.isDigit cs) :
    number w after = (⟨w, readInteger w⟩, after) := by
  unfold number
  split
  · rename_i d tail
    have hd : d.isDigit = false := hp _ rfl d rfl
    rw [if_neg (by simp [hd])]
  · rfl

/-- A source that starts with a digit is munched as a number. -/
theorem munch_digits {c : Char} {w rest : List Char} (hd : ∀ x ∈ c :: w, x.isDigit = true)
    (hrest : Stops Char.isDigit rest) : munch c (w ++ rest) = number (c :: w) rest := by
  obtain ⟨hc, hw⟩ := List.forall_mem_cons.1 hd
  have hq : c ≠ '"' := by rintro rfl; exact absurd hc (by decide)
  rw [munch, if_neg hq, if_pos hc, takeWhile_append_of_stops hw hrest,
    dropWhile_append_of_stops hw hrest]

/-- The characters of one-character signs belong to no other rule. -/
theorem isIllegal_tests_of_ofSign? {c : Char} {t : Token} (h : Token.ofSign? c = some t) :
    c ≠ '"' ∧ c.isDigit = false ∧ isWordStart c = false ∧ c ≠ '\n' ∧ isGap c = false ∧
      c ≠ '!' := by
  unfold Token.ofSign? at h
  split at h <;> first
    | decide
    | simp at h

/-- A character that is not the first of a longer sign is a sign by itself, or
illegal. -/
theorem sign_eq {c : Char} {rest : List Char} (he : c = '=' → Stops (· = '=') rest)
    (hb : c = '!' → Stops (· = '=') rest) :
    sign c rest =
      match Token.ofSign? c with
      | some t => (⟨[c], .ok t⟩, rest)
      | none => (⟨[c], .error (.illegalCharacter c)⟩, rest) := by
  unfold sign
  split
  · simpa using he rfl '=' rfl
  · simpa using hb rfl '=' rfl
  · rfl

/-- **Only one segment can be taken off a source, and the scanner takes it.** -/
theorem Munches.munch_eq {c : Char} {rest : List Char} {s : Segment} {after : List Char}
    (h : Munches (c :: rest) s after) : munch c rest = (s, after) := by
  generalize hsource : c :: rest = source at h
  cases h with
  | string hb =>
    obtain ⟨rfl, rfl⟩ := List.cons.inj hsource
    rw [munch, if_pos rfl, string?_eq_some hb]
    rfl
  | openQuote ha =>
    obtain ⟨rfl, rfl⟩ := List.cons.inj hsource
    have hdrop : rest.dropWhile (· ≠ '"') = [] := by
      refine List.dropWhile_eq_nil_iff.2 fun x hx => ?_
      exact decide_eq_true fun hq => ha (hq ▸ hx)
    have hnone : string? rest = none := by simp only [string?, hdrop]
    rw [munch, if_pos rfl, hnone]
    rfl
  | @real w f after hw hf hwd hfd ha =>
    cases w with
    | nil => exact absurd rfl hw
    | cons d w =>
      rw [List.cons_append] at hsource
      obtain ⟨rfl, rfl⟩ := List.cons.inj hsource
      have hstop : Stops Char.isDigit ('.' :: (f ++ after)) := by
        rintro x hx
        obtain rfl : '.' = x := by simpa using hx
        rfl
      rw [munch_digits hwd hstop, number_eq_real hf hfd ha]
  | @integer w after hw hwd ha hp =>
    cases w with
    | nil => exact absurd rfl hw
    | cons d w =>
      rw [List.cons_append] at hsource
      obtain ⟨rfl, rfl⟩ := List.cons.inj hsource
      rw [munch_digits hwd ha, number_eq_integer hp]
  | word hc hw ha =>
    obtain ⟨rfl, rfl⟩ := List.cons.inj hsource
    have hq : c ≠ '"' := by rintro rfl; exact absurd hc (by decide)
    rw [munch, if_neg hq, if_neg (by simp [isDigit_eq_false_of_isWordStart hc]), if_pos hc,
      takeWhile_append_of_stops hw ha, dropWhile_append_of_stops hw ha]
  | newlines hw ha =>
    obtain ⟨rfl, rfl⟩ := List.cons.inj hsource
    have hall : ∀ x ∈ _, decide (x = '\n') = true := fun x hx => decide_eq_true (hw x hx)
    rw [munch, if_neg (by decide), if_neg (by decide), if_neg (by decide), if_pos rfl,
      takeWhile_append_of_stops hall ha, dropWhile_append_of_stops hall ha]
  | gaps hc hw ha =>
    obtain ⟨rfl, rfl⟩ := List.cons.inj hsource
    have hcases : c = ' ' ∨ c = '\t' ∨ c = '\r' := by simpa [isGap, or_assoc] using hc
    have htests : c ≠ '"' ∧ c.isDigit = false ∧ isWordStart c = false ∧ c ≠ '\n' := by
      rcases hcases with rfl | rfl | rfl <;> decide
    rw [munch, if_neg htests.1, if_neg (by simp [htests.2.1]), if_neg (by simp [htests.2.2.1]),
      if_neg htests.2.2.2, if_pos hc, takeWhile_append_of_stops hw ha,
      dropWhile_append_of_stops hw ha]
  | equalEqual =>
    obtain ⟨rfl, rfl⟩ := List.cons.inj hsource
    rfl
  | bangEqual =>
    obtain ⟨rfl, rfl⟩ := List.cons.inj hsource
    rfl
  | sign ht ha =>
    obtain ⟨rfl, rfl⟩ := List.cons.inj hsource
    obtain ⟨hq, hd, hw, hn, hg, hb⟩ := isIllegal_tests_of_ofSign? ht
    rw [munch, if_neg hq, if_neg (by simp [hd]), if_neg (by simp [hw]), if_neg hn,
      if_neg (by simp [hg]), sign_eq ha fun h => absurd h hb, ht]
  | illegal h =>
    obtain ⟨rfl, rfl⟩ := List.cons.inj hsource
    rw [munch, if_neg h.quote, if_neg (by simp [h.digit]), if_neg (by simp [h.word]),
      if_neg h.newline, if_neg (by simp [h.gap]), sign_eq (fun hc => ?_) h.bang, h.sign]
    subst hc
    exact absurd h.sign (by decide)

/-- A word is never layout. -/
theorem isLayout_ofWord (word : String) : (Token.ofWord word).isLayout = false := by
  unfold Token.ofWord
  repeat' split
  all_goals rfl

/-- Digits are read as an integer, or are too large for one. -/
theorem readInteger_cases (w : List Char) :
    (∃ k, readInteger w = .ok (.integer k)) ∨
      readInteger w = .error (.integerTooLarge (String.ofList w)) := by
  simp only [readInteger]
  split
  · exact .inl ⟨_, rfl⟩
  · exact .inr rfl

/-- Digits around a point are read as a finite float, or are too large for one. -/
theorem readReal_cases (w f : List Char) :
    (∃ x, x.isFinite = true ∧ readReal w f = .ok (.real x)) ∨
      readReal w f = .error (.realTooLarge (String.ofList (w ++ '.' :: f))) := by
  simp only [readReal]
  split
  · rename_i hx
    exact .inl ⟨_, hx, rfl⟩
  · exact .inr rfl

theorem not_mem_of_forall {p : Char → Bool} {w : List Char} {y : Char}
    (hw : ∀ x ∈ w, p x = true) (hy : p y = false) : y ∉ w := by
  intro hm
  rw [hw y hm] at hy
  exact Bool.noConfusion hy

/-- The characters of tokens outside of strings, and of layout. -/
def isOrdinary (c : Char) : Bool :=
  isWordRest c || isGap c || c == '\n' || c == '.' || c == '!' || (Token.ofSign? c).isSome

/-- **A segment is a string, or illegal, or made of ordinary characters.**  A
quote is illegal only if no other follows. -/
theorem Munches.ordinary {source after : List Char} {s : Segment} (h : Munches source s after) :
    (∃ body, '"' ∉ body ∧ s = ⟨'"' :: body ++ ['"'], .ok (.str (String.ofList body))⟩) ∨
      (∃ c, s = ⟨[c], .error (.illegalCharacter c)⟩ ∧ (c = '"' → '"' ∉ after)) ∨
        ((∀ c, s.reading ≠ .error (.illegalCharacter c)) ∧
          ∀ x ∈ s.text, isOrdinary x = true) := by
  have hword : ∀ {x : Char}, isWordRest x = true → isOrdinary x = true := by
    intro x hx
    simp [isOrdinary, hx]
  have hdigit : ∀ {x : Char}, x.isDigit = true → isOrdinary x = true := by
    intro x hx
    exact hword (by simp [isWordRest, Char.isAlphanum, hx])
  cases h with
  | @string body after hb => exact .inl ⟨body, hb, rfl⟩
  | openQuote ha => exact .inr (.inl ⟨_, rfl, fun _ => ha⟩)
  | @real w f after hw hf hwd hfd ha =>
    refine .inr (.inr ⟨?_, ?_⟩)
    · rcases readReal_cases w f with ⟨x, -, hx⟩ | hx <;> simp [hx]
    · refine List.forall_mem_append.2 ⟨fun x hx => hdigit (hwd x hx), ?_⟩
      exact List.forall_mem_cons.2 ⟨rfl, fun x hx => hdigit (hfd x hx)⟩
  | @integer w after hw hwd ha hp =>
    refine .inr (.inr ⟨?_, fun x hx => hdigit (hwd x hx)⟩)
    rcases readInteger_cases w with ⟨k, hk⟩ | hk <;> simp [hk]
  | word hc hw ha =>
    refine .inr (.inr ⟨by simp, List.forall_mem_cons.2 ⟨?_, fun x hx => hword (hw x hx)⟩⟩)
    exact hword (isWordRest_of_isWordStart hc)
  | newlines hw ha =>
    refine .inr (.inr ⟨by simp, List.forall_mem_cons.2 ⟨rfl, fun x hx => ?_⟩⟩)
    rw [hw x hx]
    rfl
  | @gaps c w after hc hw ha =>
    have hall : ∀ x ∈ c :: w, isGap x = true := List.forall_mem_cons.2 ⟨hc, hw⟩
    exact .inr (.inr ⟨by simp, fun x hx => by simp [isOrdinary, hall x hx]⟩)
  | equalEqual => exact .inr (.inr ⟨by simp, List.all_eq_true.1 rfl⟩)
  | bangEqual => exact .inr (.inr ⟨by simp, List.all_eq_true.1 rfl⟩)
  | sign ht ha =>
    exact .inr (.inr ⟨by simp, List.forall_mem_singleton.2 (by simp [isOrdinary, ht])⟩)
  | illegal h => exact .inr (.inl ⟨_, rfl, fun hc => absurd hc h.quote⟩)

/-- A segment and what it leaves are the source. -/
theorem Munches.source_eq {source after : List Char} {s : Segment} (h : Munches source s after) :
    source = s.text ++ after := by
  cases h <;> simp

/-- No segment is empty. -/
theorem Munches.text_ne_nil {source after : List Char} {s : Segment} (h : Munches source s after) :
    s.text ≠ [] := by
  cases h <;> first
    | assumption
    | simp

/-- The first segment of a source, and the segments of what it leaves. -/
theorem Munches.cut_eq {source after : List Char} {s : Segment} (h : Munches source s after) :
    cut source = s :: cut after := by
  cases source with
  | nil => exact absurd (List.append_eq_nil_iff.1 h.source_eq.symm).1 h.text_ne_nil
  | cons c rest => rw [cut, h.munch_eq]

/-- Each segment of a cut was taken by a rule. -/
theorem exists_munches_of_mem_cut {cs : List Char} {s : Segment} (h : s ∈ cut cs) :
    ∃ source after, Munches source s after := by
  fun_induction cut cs with
  | case1 => simp at h
  | case2 c rest ih =>
    rcases List.mem_cons.1 h with rfl | h
    · exact ⟨_, _, munches_munch c rest⟩
    · exact ih h

end Segment
end FlatScript
