/-
# Scanning line by line

A newline outside of a string ends whatever segment stands before it, so a
source can be scanned in two parts, before and after it.  A text with an even
number of quotes leaves no string open; `items_cut_append` says that the items
of such a text, a newline and another text are the items of the two texts, those
of the second as many lines further down as there are newlines before it.

Only the newline itself is no clean cut: a run of newlines is one segment.  That
does not show in the items, because each newline moves the line on by one
(`items_cut_newline`).  So scanning distributes over lines
(`tokenize_distributes`).
-/

import FlatScript.Proofs.Lexing.Items

namespace FlatScript
namespace Segment

/-- A run that stops before a text stops there too when the text goes on with a character
that stops it. -/
theorem Stops.append {p : Char → Bool} {after : List Char} {x : Char} (h : Stops p after)
    (hx : p x = false) (tail : List Char) : Stops p (after ++ x :: tail) := by
  cases after with
  | nil =>
    intro y hy
    obtain rfl : x = y := by simpa using hy
    exact hx
  | cons c cs => exact h

/-- **A newline after a source changes nothing about its first segment**, unless
that is a run of newlines or the opening quote of a string without an end. -/
theorem Munches.append_newline {source after : List Char} {s : Segment}
    (h : Munches source s after) (hn : source.head? ≠ some '\n')
    (hq : s.reading ≠ .error (.illegalCharacter '"')) (tail : List Char) :
    Munches (source ++ '\n' :: tail) s (after ++ '\n' :: tail) := by
  cases h with
  | @string body after hb =>
    have hm : Munches ('"' :: (body ++ '"' :: (after ++ '\n' :: tail))) _ _ := .string hb
    simpa using hm
  | openQuote => exact absurd rfl hq
  | real hw hf hwd hfd ha =>
    have hm := Munches.real hw hf hwd hfd (ha.append (x := '\n') rfl tail)
    simpa using hm
  | @integer w after hw hwd ha hp =>
    have hm := Munches.integer hw hwd (ha.append (x := '\n') rfl tail) ?_
    · simpa using hm
    · intro cs hcs
      cases after with
      | nil => simp at hcs
      | cons x xs =>
        obtain ⟨rfl, rfl⟩ : x = '.' ∧ xs ++ '\n' :: tail = cs := by simpa using hcs
        exact (hp xs rfl).append rfl tail
  | word hc hw ha =>
    have hm := Munches.word hc hw (ha.append (x := '\n') rfl tail)
    simpa using hm
  | newlines => exact absurd rfl hn
  | gaps hc hw ha =>
    have hm := Munches.gaps hc hw (ha.append (x := '\n') rfl tail)
    simpa using hm
  | equalEqual => exact .equalEqual
  | bangEqual => exact .bangEqual
  | sign ht ha => exact .sign ht fun hc => (ha hc).append rfl tail
  | illegal h =>
    exact .illegal { h with bang := fun hc => (h.bang hc).append rfl tail }

/-- A segment has no quote, or the two of a string, or it is the opening quote of
a string without an end. -/
theorem Munches.count_quote {source after : List Char} {s : Segment} (h : Munches source s after) :
    (s.reading ≠ .error (.illegalCharacter '"') ∧
        (s.text.count '"' = 0 ∨ s.text.count '"' = 2)) ∨
      (s.reading = .error (.illegalCharacter '"') ∧ s.text.count '"' = 1 ∧
        after.count '"' = 0) := by
  rcases h.ordinary with ⟨body, hb, rfl⟩ | ⟨c, rfl, hafter⟩ | ⟨hs, hall⟩
  · exact .inl ⟨by simp, .inr (by simp [List.count_eq_zero.2 hb])⟩
  · by_cases hc : c = '"'
    · subst hc
      exact .inr ⟨rfl, rfl, List.count_eq_zero.2 (hafter rfl)⟩
    · exact .inl ⟨by simp [hc], .inl (by simp [hc])⟩
  · exact .inl ⟨hs '"', .inl (List.count_eq_zero.2 (not_mem_of_forall hall rfl))⟩

/-- A text with an even number of quotes leaves none of its strings open, and so
does what is left of it after its first segment. -/
theorem Munches.even_quotes {source after : List Char} {s : Segment} (h : Munches source s after)
    (hs : source.count '"' % 2 = 0) :
    s.reading ≠ .error (.illegalCharacter '"') ∧ after.count '"' % 2 = 0 := by
  rw [h.source_eq, List.count_append] at hs
  rcases h.count_quote with ⟨hq, hc⟩ | ⟨-, hc, ha⟩
  · exact ⟨hq, by omega⟩
  · omega

/-- Newlines only move what follows them. -/
theorem items_cut_newlines (line : Nat) {w after : List Char} (hw : ∀ x ∈ w, x = '\n')
    (ha : Stops (· = '\n') after) :
    items line (cut (w ++ after)) = items (line + w.length) (cut after) := by
  cases w with
  | nil => rfl
  | cons c w =>
    obtain ⟨rfl, hw'⟩ := List.forall_mem_cons.1 hw
    have hn : newlines ('\n' :: w) = ('\n' :: w).length :=
      List.count_eq_length.2 fun x hx => (hw x hx).symm
    rw [List.cons_append, (Munches.newlines hw' ha).cut_eq, items, ← hn]
    rfl

/-- **A newline only moves what comes after it one line down**, also when it
stands in a run of newlines. -/
theorem items_cut_newline (line : Nat) (cs : List Char) :
    items line (cut ('\n' :: cs)) = items (line + 1) (cut cs) := by
  have hw : ∀ x ∈ cs.takeWhile (· = '\n'), x = '\n' :=
    fun x hx => of_decide_eq_true (forall_mem_takeWhile (· = '\n') cs x hx)
  have ha := stops_dropWhile (· = '\n') cs
  have h := items_cut_newlines line (List.forall_mem_cons.2 ⟨rfl, hw⟩) ha
  have h' := items_cut_newlines (line + 1) hw ha
  rw [List.cons_append, List.takeWhile_append_dropWhile] at h
  rw [List.takeWhile_append_dropWhile] at h'
  rw [h, h', List.length_cons]
  congr 1
  omega

/-- **Items of two texts with a newline between them.**  If no string is open at
the newline, they are the items of the first and then those of the second, which
starts on the line after it. -/
theorem items_cut_append (line : Nat) {cs : List Char} (h : cs.count '"' % 2 = 0)
    (ds : List Char) :
    items line (cut (cs ++ '\n' :: ds)) =
      items line (cut cs) ++ items (line + newlines cs + 1) (cut ds) := by
  induction hlen : cs.length using Nat.strongRecOn generalizing cs line with
  | ind n ih =>
    subst hlen
    cases cs with
    | nil => simpa [newlines, cut, items] using items_cut_newline line ds
    | cons c rest =>
      have hm := munches_munch c rest
      by_cases hc : c = '\n'
      · subst hc
        have hline : line + 1 + newlines rest + 1 = line + newlines ('\n' :: rest) + 1 := by
          simp [newlines]
          omega
        rw [List.cons_append, items_cut_newline, items_cut_newline, ← hline]
        exact ih rest.length (by simp) (line + 1) (by simpa using h) rfl
      · obtain ⟨hq, heven⟩ := hm.even_quotes h
        have hline : line + newlines (munch c rest).1.text + newlines (munch c rest).2 =
            line + newlines (c :: rest) := by
          rw [hm.source_eq]
          simp [newlines, Nat.add_assoc]
        have hrest := ih _ (munch_length c rest) (line + newlines (munch c rest).1.text) heven rfl
        rw [(hm.append_newline (by simpa using hc) hq ds).cut_eq, hm.cut_eq, items, items, hrest,
          hline]
        split <;> rfl

end Segment

section Joined

variable {a : String} (h : a.toList.count '"' % 2 = 0) (b : String)
include h

/-- **Two texts with a newline between them are scanned one after the other**, if
no string is open at the newline. -/
theorem tokenize_append :
    tokenize (a ++ "\n" ++ b) = tokenize (a ++ "\n") ++
      (tokenize b).map (Located.shift (Segment.newlines a.toList + 1)) := by
  have hjoin : (a ++ "\n" ++ b).toList = a.toList ++ '\n' :: b.toList := by simp
  have hfirst : (a ++ "\n").toList = a.toList ++ '\n' :: [] := by simp
  have hline : 1 + Segment.newlines a.toList + 1 = 1 + (Segment.newlines a.toList + 1) := by omega
  simp only [tokenize_eq]
  rw [hjoin, hfirst, Segment.items_cut_append 1 h, Segment.items_cut_append 1 h, hline,
    Segment.items_shift]
  simp [Segment.cut, Segment.items]

/-- A newline at the end of a text adds no item. -/
theorem tokenize_newline : tokenize (a ++ "\n") = tokenize a := by
  have hlast : (a ++ "\n").toList = a.toList ++ '\n' :: [] := by simp
  simp only [tokenize_eq]
  rw [hlast, Segment.items_cut_append 1 h]
  simp [Segment.cut, Segment.items]

/-- The tokens of a source cut behind a line, outside of all strings. -/
theorem tokensOf_append :
    tokensOf (a ++ "\n" ++ b) = tokensOf (a ++ "\n") ++
      (tokensOf b).map (Located.shift (Segment.newlines a.toList + 1)) := by
  have hshift : ∀ (k : Nat) (i : Item),
      Item.token? (i.shift k) = (Item.token? i).map (Located.shift k) := by
    rintro k ⟨val, n⟩
    cases val <;> rfl
  rw [tokensOf, tokenize_append h, List.filterMap_append, List.filterMap_map, tokensOf, tokensOf,
    List.map_filterMap]
  simp only [Function.comp_def, hshift]

/-- The faults of a source cut behind a line, outside of all strings. -/
theorem lexErrorsOf_append :
    lexErrorsOf (a ++ "\n" ++ b) = lexErrorsOf (a ++ "\n") ++
      (lexErrorsOf b).map (Located.shift (Segment.newlines a.toList + 1)) := by
  have hshift : ∀ (k : Nat) (i : Item),
      Item.error? (i.shift k) = (Item.error? i).map (Located.shift k) := by
    rintro k ⟨val, n⟩
    cases val <;> rfl
  rw [lexErrorsOf, tokenize_append h, List.filterMap_append, List.filterMap_map, lexErrorsOf,
    lexErrorsOf, List.map_filterMap]
  simp only [Function.comp_def, hshift]

/-- **Scanning distributes over lines.**  If no string is open at the newline between two
texts, the items of both together are those of the first and then those of the second, as
many lines further down as there are newlines before it. -/
theorem tokenize_distributes :
    tokenize (a ++ "\n" ++ b) =
      tokenize a ++ (tokenize b).map (Located.shift (1 + a.toList.count '\n')) := by
  rw [tokenize_append h, tokenize_newline h, Segment.newlines, Nat.add_comm]

end Joined

/-- Faults of three kinds and a string that spans lines before the newline, and another
newline and an open quote after it. -/
theorem tokenize_distributes_faulty :
    let a := "x$ 1.\n\"y\n\" 99999999999999999999\n"
    let b := "\n\"z\n="
    a.toList.count '"' % 2 = 0 ∧
      tokenize (a ++ "\n" ++ b) = tokenize a ++ (tokenize b).map (Located.shift 4) ∧
        (tokenize (a ++ "\n" ++ b)).map Located.line = [1, 1, 1, 1, 2, 3, 6, 6, 7] := by
  intro a b
  have heven : a.toList.count '"' % 2 = 0 := by decide
  have hlines : a.toList.count '\n' = 3 := by decide
  have hjoined := tokenize_distributes heven b
  rw [hlines] at hjoined
  exact ⟨heven, hjoined, by decide +kernel⟩

end FlatScript
