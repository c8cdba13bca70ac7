/-
# Faults are read like blanks

The scanner skips what is no token and goes on right after it.  It could as well have
met a space there: a source with a space in place of each fault (`blanked`) has no
faults, and the tokens of the source, on the same lines (`tokensOf_blanked`).  That it is
the source but for these spaces is said of its pieces: the source is cut into them as
the rules say, those that are read as faults are the faults that the scan reports, and
each piece stays or is a space (`exists_pieces_blanked`).

Two things make that so.  A space, next to blanks or not, adds nothing to the items
(`items_cut_gaps`).  And the segments around a fault stay as they were, because a run
that ended before it ends before a space too (`Munches.veiled`).  Only a number looks
further than one character, past a point, but a point that belongs to no number is a
fault itself.
-/

import FlatScript.Proofs.Lexing.LongestMatch

namespace FlatScript

namespace Segment

/-- The fault of a segment that is read as none. -/
def fault? (s : Segment) : Option LexFault :=
  match s.reading with
  | .ok _ => none
  | .error fault => some fault

theorem fault?_eq_some_iff {s : Segment} {fault : LexFault} :
    s.fault? = some fault ↔ s.reading = .error fault := by
  unfold fault?
  cases s.reading <;> simp

/-- The faults of a scan are those of its segments. -/
theorem map_val_filterMap_error?_items (line : Nat) (ss : List Segment) :
    ((items line ss).filterMap Item.error?).map Located.val = ss.filterMap fault? := by
  induction ss generalizing line with
  | nil => rfl
  | cons s ss ih =>
    rw [items, List.filterMap_cons, ← ih (line + newlines s.text), fault?]
    cases hs : s.reading with
    | error fault => simp [isLayout, hs, Item.error?]
    | ok t => cases s.isLayout <;> simp [List.filterMap_cons, Item.error?]

/-- The text of a segment, or a space in place of a fault. -/
def blanked (s : Segment) : List Char :=
  match s.fault? with
  | none => s.text
  | some _ => [' ']

/-- A segment that is read as blanks is a run of them. -/
theorem Munches.isGap_of_blank {source after : List Char} {s : Segment}
    (h : Munches source s after) (hs : s.reading = .ok .blank) : ∀ x ∈ s.text, isGap x = true := by
  cases h with
  | gaps hc hw ha => exact List.forall_mem_cons.2 ⟨hc, hw⟩
  | @real w f after hw hf hwd hfd ha =>
    rcases readReal_cases w f with ⟨x, -, hx⟩ | hx <;> simp [hx] at hs
  | @integer w after hw hwd ha hp =>
    rcases readInteger_cases w with ⟨k, hk⟩ | hk <;> simp [hk] at hs
  | @word c w after hc hw ha =>
    have hlayout := isLayout_ofWord (String.ofList (c :: w))
    rw [Except.ok.inj hs] at hlayout
    cases hlayout
  | @sign c t after ht ha =>
    obtain rfl := Except.ok.inj hs
    unfold Token.ofSign? at ht
    split at ht <;> cases ht
  | string | openQuote | newlines | equalEqual | bangEqual | illegal => cases hs

/-- **Blanks add nothing to the items of what follows them**, also when more blanks
do. -/
theorem items_cut_gaps (line : Nat) {w : List Char} (hw : ∀ x ∈ w, isGap x = true)
    (cs : List Char) : items line (cut (w ++ cs)) = items line (cut cs) := by
  have hrun : ∀ {v after : List Char}, (∀ x ∈ v, isGap x = true) → Stops isGap after →
      items line (cut (v ++ after)) = items line (cut after) := by
    intro v after hv ha
    cases v with
    | nil => rfl
    | cons c v =>
      have hall := List.forall_mem_cons.1 hv
      have hn : newlines (c :: v) = 0 := List.count_eq_zero.2 (not_mem_of_forall hv rfl)
      rw [List.cons_append, (Munches.gaps hall.1 hall.2 ha).cut_eq, items, hn]
      rfl
  obtain ⟨w', after, hsource, hall, hstop⟩ := exists_run isGap hw cs
  have hcs : cs = w' ++ after := by simpa using hsource
  rw [hsource, hrun hall hstop, hcs]
  exact (hrun (List.forall_mem_append.1 hall).2 hstop).symm

/-- `Veiled after after'`: the second text starts with a space, or like the first one
but not with a point. -/
inductive Veiled : List Char → List Char → Prop where
  | nil : Veiled [] []
  | same {c : Char} (hc : c ≠ '.') (rest rest' : List Char) : Veiled (c :: rest) (c :: rest')
  | space (after rest : List Char) : Veiled after (' ' :: rest)

/-- What stops before a text stops before its veiled form, if a space stops it. -/
theorem Veiled.stops {p : Char → Bool} {after after' : List Char} (h : Veiled after after')
    (hp : p ' ' = false) (ha : Stops p after) : Stops p after' := by
  cases h with
  | nil => exact ha
  | same hc rest rest' => exact ha
  | space after rest =>
    intro x hx
    obtain rfl : ' ' = x := by simpa using hx
    exact hp

/-- **A token ends before a space as it ended before a fault**, and so do newlines. -/
theorem Munches.veiled {source after after' : List Char} {s : Segment} {t : Token}
    (h : Munches source s after) (hs : s.reading = .ok t) (ht : t ≠ .blank)
    (hv : Veiled after after') : Munches (s.text ++ after') s after' := by
  cases h with
  | @string body after hb =>
    have hm : Munches ('"' :: (body ++ '"' :: after')) _ _ := .string hb
    simpa using hm
  | openQuote => cases hs
  | real hw hf hwd hfd ha =>
    have hm := Munches.real hw hf hwd hfd (hv.stops rfl ha)
    simpa using hm
  | integer hw hwd ha hp =>
    refine .integer hw hwd (hv.stops rfl ha) ?_
    rintro cs rfl
    cases hv with
    | same hc => exact absurd rfl hc
  | word hc hw ha => exact .word hc hw (hv.stops rfl ha)
  | newlines hw ha => exact .newlines hw (hv.stops rfl ha)
  | gaps => exact absurd (Except.ok.inj hs).symm ht
  | equalEqual => exact .equalEqual
  | bangEqual => exact .bangEqual
  | sign hsign ha => exact .sign hsign fun hc => hv.stops rfl (ha hc)
  | illegal => cases hs

/-- A point that starts a segment is illegal. -/
theorem munches_point (rest : List Char) :
    Munches ('.' :: rest) ⟨['.'], .error (.illegalCharacter '.')⟩ rest :=
  .illegal ⟨by decide, by decide, by decide, by decide, by decide, rfl, fun h => by cases h⟩

/-- A source starts as it did, or with a space, when its faults are blanked. -/
theorem veiled_blanked (cs : List Char) : Veiled cs ((cut cs).flatMap blanked) := by
  cases cs with
  | nil =>
    rw [cut]
    exact .nil
  | cons c rest =>
    have hm := munches_munch c rest
    rw [hm.cut_eq, List.flatMap_cons, blanked, fault?]
    cases hs : (munch c rest).1.reading with
    | error fault => exact .space _ _
    | ok t =>
      have hc : c ≠ '.' := by
        rintro rfl
        obtain ⟨heq, -⟩ := hm.unique (munches_point rest)
        rw [heq] at hs
        cases hs
      obtain ⟨d, w, htext⟩ := List.exists_cons_of_ne_nil hm.text_ne_nil
      have hsource := hm.source_eq
      rw [htext, List.cons_append] at hsource
      obtain ⟨rfl, -⟩ := List.cons.inj hsource
      simp only [htext]
      exact .same hc _ _

/-- **Blanking the faults of a text leaves its tokens**, each on its line. -/
theorem items_cut_blanked (line : Nat) (cs : List Char) :
    items line (cut ((cut cs).flatMap blanked)) =
      (items line (cut cs)).filter fun i => i.val.isOk := by
  fun_induction cut cs generalizing line with
  | case1 => simp [cut, items]
  | case2 c rest ih =>
    have hm := munches_munch c rest
    have hspace : ∀ x ∈ [' '], isGap x = true := List.forall_mem_singleton.2 rfl
    rw [List.flatMap_cons, blanked, fault?, items]
    generalize (munch c rest).1 = s at *
    cases hs : s.reading with
    | error fault =>
      have hn : newlines s.text = 0 := List.count_eq_zero.2 (hm.text_of_fault hs).2
      rw [items_cut_gaps line hspace, ih line, hn]
      simp [isLayout, hs, Except.isOk, Except.toBool]
    | ok t =>
      by_cases ht : t = .blank
      · subst ht
        have hgaps := hm.isGap_of_blank hs
        have hn : newlines s.text = 0 := List.count_eq_zero.2 (not_mem_of_forall hgaps rfl)
        rw [items_cut_gaps line hgaps, ih line, hn]
        simp [isLayout, hs, Token.isLayout]
      · rw [(hm.veiled hs ht (veiled_blanked _)).cut_eq, items, ih]
        cases s.isLayout <;> simp [hs, Except.isOk, Except.toBool]

/-- The texts that the faults of segments are about are the texts of these segments. -/
theorem map_text_filterMap_fault? {ss : List Segment}
    (h : ∀ s ∈ ss, ∃ source after, Munches source s after) :
    (ss.filterMap fault?).map LexFault.text = (ss.filter fun s => s.fault?.isSome).map text := by
  induction ss with
  | nil => rfl
  | cons s ss ih =>
    obtain ⟨⟨source, after, hm⟩, hss⟩ := List.forall_mem_cons.1 h
    rw [List.filterMap_cons, List.filter_cons]
    cases hs : s.fault? with
    | none => simpa using ih hss
    | some fault => simp [ih hss, (hm.text_of_fault (fault?_eq_some_iff.1 hs)).1]

end Segment

/-- The source with a space in place of each fault. -/
def blanked (source : String) : String :=
  String.ofList ((Segment.cut source.toList).flatMap Segment.blanked)

/-- What is blanked in a source is what its faults are about, in order. -/
theorem map_text_lexErrorsOf (source : String) :
    (lexErrorsOf source).map (fun e => e.val.text) =
      ((Segment.cut source.toList).filter fun s => s.fault?.isSome).map Segment.text := by
  have hmunches : ∀ s ∈ Segment.cut source.toList, ∃ source after, Segment.Munches source s after :=
    fun s hs => Segment.exists_munches_of_mem_cut hs
  rw [← Segment.map_text_filterMap_fault? hmunches, ← Segment.map_val_filterMap_error?_items 1,
    List.map_map, lexErrorsOf_eq]
  rfl

/-- A piece of a source, the fault that it is read as, if it is one, and what stands in
its place when the faults are blanked. -/
structure Piece where
  text : List Char
  fault? : Option LexFault
  left : List Char

/-- In place of a fault stands a space, and any other piece stays as it is. -/
def Piece.IsBlanked (p : Piece) : Prop :=
  match p.fault? with
  | some fault => Reads p.text (.error fault) ∧ p.left = [' ']
  | none => (∀ fault, ¬ Reads p.text (.error fault)) ∧ p.left = p.text

/-- A segment as a piece of its source. -/
def Segment.piece (s : Segment) : Piece :=
  ⟨s.text, s.fault?, s.blanked⟩

/-- **A segment is blanked as the rules say**: they read it as the same fault, or as
none. -/
theorem Segment.Munches.isBlanked_piece {source after : List Char} {s : Segment}
    (h : Munches source s after) : s.piece.IsBlanked := by
  unfold Piece.IsBlanked piece blanked
  cases hs : s.fault? with
  | some fault =>
    have hread := fault?_eq_some_iff.1 hs
    have hlayout : s.isLayout = false := by simp [isLayout, hread]
    exact ⟨hread ▸ h.reads hlayout, rfl⟩
  | none =>
    refine ⟨fun fault hfault => ?_, rfl⟩
    have hwhole := hfault.munches
    cases hlayout : s.isLayout with
    | true =>
      -- The rules read no layout as a fault.
      have hall := hwhole.isLayout_eq
      rw [← h.isLayout_eq, hlayout] at hall
      cases hall
    | false =>
      have hread := (h.reads hlayout).unique hfault
      rw [fault?_eq_some_iff.2 hread] at hs
      cases hs

/-- **The blanked text is the source outside of its faults**, with one space for each
fault that is reported. -/
theorem exists_pieces_blanked (source : String) :
    ∃ ps : List Piece, Cuts source.toList (ps.map Piece.text) ∧ (∀ p ∈ ps, p.IsBlanked) ∧
      (lexErrorsOf source).map Located.val = ps.filterMap Piece.fault? ∧
        (blanked source).toList = (ps.map Piece.left).flatten := by
  refine ⟨(Segment.cut source.toList).map Segment.piece, ?_, ?_, ?_, ?_⟩
  · rw [List.map_map]
    exact cuts_cut source.toList
  · intro p hp
    obtain ⟨s, hs, rfl⟩ := List.mem_map.1 hp
    obtain ⟨_, _, hm⟩ := Segment.exists_munches_of_mem_cut hs
    exact hm.isBlanked_piece
  · rw [lexErrorsOf_eq, Segment.map_val_filterMap_error?_items, List.filterMap_map]
    rfl
  · rw [blanked, String.toList_ofList, List.map_map, List.flatMap]
    rfl

/-- **Skipping a fault is reading a space.** -/
theorem tokenize_blanked (source : String) :
    tokenize (blanked source) = (tokenize source).filter fun i => i.val.isOk := by
  simp only [tokenize_eq, blanked, String.toList_ofList]
  exact Segment.items_cut_blanked 1 source.toList

/-- **Faults are read like blanks.**  Put a space in place of each text that a fault of a
source is about, and nothing else.  What comes out has no faults, and the same tokens in
the same order, each on its line. -/
theorem tokensOf_blanked (source : String) :
    (∃ ps : List Piece, Cuts source.toList (ps.map Piece.text) ∧ (∀ p ∈ ps, p.IsBlanked) ∧
      (lexErrorsOf source).map Located.val = ps.filterMap Piece.fault? ∧
        (blanked source).toList = (ps.map Piece.left).flatten) ∧
      (lexErrorsOf source).map (fun e => e.val.text) =
        ((Segment.cut source.toList).filter fun s => s.fault?.isSome).map Segment.text ∧
      lexErrorsOf (blanked source) = [] ∧ tokensOf (blanked source) = tokensOf source := by
  refine ⟨exists_pieces_blanked source, map_text_lexErrorsOf source, ?_, ?_⟩
  · rw [lexErrorsOf, tokenize_blanked, List.filterMap_eq_nil_iff]
    rintro ⟨val, n⟩ hi
    cases val with
    | ok t => rfl
    | error fault => simp [Except.isOk, Except.toBool] at hi
  · have hfault : ∀ i : Item, (if i.val.isOk then i.token? else none) = i.token? := by
      rintro ⟨val, n⟩
      cases val <;> rfl
    rw [tokensOf, tokenize_blanked, List.filterMap_filter]
    simp only [hfault]
    rfl

/-- A point that ends no number, an illegal character, a literal above all floats, digits
above all integers and a quote that nothing closes, and a space for each of them. -/
theorem tokensOf_blanked_faulty :
    let large := "1" ++ String.ofList (List.replicate 309 '0') ++ ".0"
    let source := "x = 1.@\n" ++ large ++ " 99999999999999999999y; \"z\n"
    lexErrorsOf source =
        [⟨.illegalCharacter '.', 1⟩, ⟨.illegalCharacter '@', 1⟩, ⟨.realTooLarge large, 2⟩,
          ⟨.integerTooLarge "99999999999999999999", 2⟩, ⟨.illegalCharacter '"', 2⟩] ∧
      blanked source = "x = 1  \n   y;  z\n" ∧
      lexErrorsOf "x = 1  \n   y;  z\n" = [] ∧
      tokensOf "x = 1  \n   y;  z\n" = tokensOf source := by
  intro large source
  have hsource : source.toList = "x = 1.@\n".toList ++
      ("1".toList ++ List.replicate 309 '0' ++ ".0".toList) ++
        " 99999999999999999999y; \"z\n".toList := by
    simp only [source, large, String.toList_append, String.toList_ofList]
  have hblanked : blanked source = "x = 1  \n   y;  z\n" := by
    rw [blanked, hsource]
    decide +kernel
  obtain ⟨-, -, hfaults, htokens⟩ := tokensOf_blanked source
  rw [hblanked] at hfaults htokens
  refine ⟨?_, hblanked, hfaults, htokens⟩
  rw [lexErrorsOf_eq, hsource]
  decide +kernel

end FlatScript
