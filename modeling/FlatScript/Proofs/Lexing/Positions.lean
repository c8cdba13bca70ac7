/-
# Items stand on the line of their first character

The items of a scan are, in order, the pieces of the source that are not layout, and each
stands on the line on which its text starts: one more than there are newlines in the
pieces before it (`getElem?_tokenize_iff`).  The pieces are those of the lexical rules, so
the newlines that count are all of those before the text, whether they stand in runs, in
strings that span lines, or after a quote that nothing closes.
-/

import FlatScript.Proofs.Lexing.LongestMatch

namespace FlatScript

namespace Segment

/-- There is one item for each segment that is not layout. -/
theorem length_items (line : Nat) (ss : List Segment) :
    (items line ss).length = (ss.filter fun s => !s.isLayout).length := by
  simpa using congrArg List.length (map_val_items line ss)

/-- The item of a segment comes after as many items as there are segments before it that
are not layout. -/
theorem getElem?_items_append (line : Nat) (us vs : List Segment) {s : Segment}
    (hs : s.isLayout = false) :
    (items line (us ++ s :: vs))[(us.filter fun u => !u.isLayout).length]? =
      some ⟨s.reading, line + newlines (us.map text).flatten⟩ := by
  rw [items_append, ← length_items line us, List.getElem?_append_right (Nat.le_refl _),
    Nat.sub_self, items, hs]
  rfl

/-- Every item is that of a segment. -/
theorem exists_of_getElem?_items {line k : Nat} {ss : List Segment} {i : Item}
    (h : (items line ss)[k]? = some i) :
    ∃ us s vs, ss = us ++ s :: vs ∧ s.isLayout = false ∧
      (us.filter fun u => !u.isLayout).length = k := by
  induction ss generalizing line k with
  | nil => simp [items] at h
  | cons s ss ih =>
    rw [items] at h
    cases hs : s.isLayout with
    | true =>
      simp only [hs, if_true] at h
      obtain ⟨us, s', vs, rfl, hs', hk⟩ := ih h
      exact ⟨s :: us, s', vs, rfl, hs', by simp [hs, hk]⟩
    | false =>
      simp only [hs, Bool.false_eq_true, if_false] at h
      cases k with
      | zero => exact ⟨[], s, ss, rfl, hs, rfl⟩
      | succ k =>
        obtain ⟨us, s', vs, rfl, hs', hk⟩ := ih h
        exact ⟨s :: us, s', vs, rfl, hs', by simp [hs, hk]⟩

end Segment

open Segment

/-- The pieces of a source are its segments, as the rules see them: they agree on which
of them are layout and on what each other one is read as. -/
theorem pieces_of_cut {source : List Char} {us vs : List Segment} {s : Segment}
    (h : cut source = us ++ s :: vs) :
    s.text.all Char.isWhitespace = s.isLayout ∧ (s.isLayout = false → Reads s.text s.reading) ∧
      ((us.map text).filter fun w => !w.all Char.isWhitespace).length =
        (us.filter fun u => !u.isLayout).length := by
  have hmunches : ∀ u ∈ us ++ s :: vs, ∃ before after, Munches before u after := by
    rw [← h]
    exact fun u hu => exists_munches_of_mem_cut hu
  obtain ⟨before, after, hm⟩ := hmunches s (by simp)
  refine ⟨hm.isLayout_eq.symm, hm.reads, ?_⟩
  rw [List.filter_map, List.length_map]
  refine congrArg List.length (List.filter_congr fun u hu => ?_)
  obtain ⟨before, after, hm⟩ := hmunches u (List.mem_append_left _ hu)
  rw [hm.isLayout_eq]
  rfl

/-- The pieces of a source, put together, are the source. -/
theorem Cuts.flatten_eq {source : List Char} {ws : List (List Char)} (h : Cuts source ws) :
    ws.flatten = source := by
  rw [h.eq_map_text, flatten_cut]

/-- **Every item stands on the line of its first character.**  Item `k` of a scan is what
the rules read a piece of the source as, with `k` other pieces before it that are not
layout; its line is one more than there are newlines in the source before that piece.
There are no other items. -/
theorem getElem?_tokenize_iff (source : String) (k : Nat) (i : Item) :
    (tokenize source)[k]? = some i ↔
      ∃ us w vs, Cuts source.toList (us ++ w :: vs) ∧
        source.toList = us.flatten ++ (w ++ vs.flatten) ∧ w.all Char.isWhitespace = false ∧
          (us.filter fun u => !u.all Char.isWhitespace).length = k ∧ Reads w i.val ∧
            i.line = 1 + us.flatten.count '\n' := by
  constructor
  · intro h
    rw [tokenize_eq] at h
    obtain ⟨us, s, vs, hcut, hs, rfl⟩ := exists_of_getElem?_items h
    obtain ⟨hlayout, hreads, hcount⟩ := pieces_of_cut hcut
    have hcuts := cuts_cut source.toList
    rw [hcut, List.map_append, List.map_cons] at hcuts
    rw [hcut, getElem?_items_append 1 us vs hs] at h
    obtain rfl := Option.some.inj h
    refine ⟨_, _, _, hcuts, ?_, hlayout.trans hs, hcount, hreads hs, rfl⟩
    rw [← hcuts.flatten_eq, List.flatten_append, List.flatten_cons]
  · rintro ⟨us, w, vs, hcuts, -, hw, rfl, hread, hline⟩
    -- There is only one way to cut the source, so the pieces are the texts of its segments.
    obtain ⟨us, ss, hcut, rfl, hss⟩ := List.map_eq_append_iff.1 hcuts.eq_map_text.symm
    obtain ⟨s, vs, rfl, rfl, rfl⟩ := List.map_eq_cons_iff.1 hss
    obtain ⟨hlayout, hreads, hcount⟩ := pieces_of_cut hcut
    have hs : s.isLayout = false := hlayout.symm.trans hw
    obtain ⟨val, n⟩ := i
    rw [tokenize_eq, hcut, hcount, getElem?_items_append 1 us vs hs, (hreads hs).unique hread]
    exact congrArg some (congrArg (Located.mk val) hline.symm)

/-- A string that spans three lines, a run of newlines, and a quote that nothing closes
with a newline after it. -/
example : (tokenize "a \"b\n\nc\" d\n\n@ \"e\nf").map Located.line = [1, 1, 3, 5, 5, 5, 6] := by
  decide +kernel

end FlatScript
