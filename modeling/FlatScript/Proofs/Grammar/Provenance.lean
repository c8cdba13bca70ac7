/-
# Where literals and names come from

A program holds nothing that its tokens do not hold: every literal among its
expressions is the literal of a token, and every name that it assigns to is an
identifier among the tokens (`Program.supplied_of_parse`).  `Supplied` is that
relation for any expressions and names, so that the parts of a derivation can be
put together.

The tokens of a source in turn are what the lexical rules read
(`exists_reads_of_mem_tokensOf`).
-/

import FlatScript.Proofs.Grammar.Program
import FlatScript.Proofs.Lexing.LongestMatch

namespace FlatScript

/-- The literals among the expressions `es` and the names `xs` all stand in the
tokens. -/
structure Supplied (ts : Tokens) (es : List Expr) (xs : List String) : Prop where
  literals : ∀ v n, .literal v n ∈ es → ∃ t ∈ ts, t.val.literal? = some v
  names : ∀ x ∈ xs, ∃ t ∈ ts, t.val = .identifier x

namespace Supplied

variable {ts us : Tokens} {es es' : List Expr} {xs xs' : List String}

theorem mono (h : Supplied ts es xs) (hsub : ts ⊆ us) : Supplied us es xs where
  literals v n hm := by
    obtain ⟨t, ht, hv⟩ := h.literals v n hm
    exact ⟨t, hsub ht, hv⟩
  names x hx := by
    obtain ⟨t, ht, hv⟩ := h.names x hx
    exact ⟨t, hsub ht, hv⟩

/-- What is supplied in two parts is supplied together. -/
theorem append (h : Supplied ts es xs) (h' : Supplied ts es' xs') :
    Supplied ts (es ++ es') (xs ++ xs') where
  literals v n hm := (List.mem_append.1 hm).elim (h.literals v n) (h'.literals v n)
  names x hx := (List.mem_append.1 hx).elim (h.names x) (h'.names x)

end Supplied

theorem subset_parenthesized (k m : Nat) (ts : Tokens) : ts ⊆ parenthesized k m ts := by
  intro t ht
  simp [parenthesized, ht]

/-- The literals of a derived expression stand in its tokens. -/
theorem Expr.Derives.supplied {tier : Tier} {d : Nat} {ts : Tokens} {e : Expr}
    (h : Derives tier d ts e) : Supplied ts e.nodes [] := by
  induction h with
  | @literal t v hv =>
    refine ⟨fun u n hm => ?_, by simp⟩
    obtain ⟨rfl, -⟩ : u = v ∧ n = t.line := by simpa [nodes] using hm
    exact ⟨t, List.mem_singleton_self t, hv⟩
  | name x n => exact ⟨fun u n hm => by simp [nodes] at hm, by simp⟩
  | @group d ts e k m _ ih => exact ih.mono (subset_parenthesized k m ts)
  | @negation d ts e n _ ih =>
    have hoperand := ih.mono (List.subset_cons_self ⟨.minus, n⟩ ts)
    exact hoperand.append ⟨fun u n hm => by simp at hm, by simp⟩
  | operand _ _ ih => exact ih
  | @operator tier tighter d d' ts us l r op t ht hop _ _ ihl ihr =>
    have hleft := ihl.mono (List.subset_append_left ts (t :: us))
    have hright := ihr.mono fun u hu =>
      List.mem_append_right ts (List.mem_cons_of_mem t hu)
    exact hleft.append (hright.append ⟨fun u n hm => by simp at hm, by simp⟩)

/-- The names that a phrase assigns to. -/
def Phrase.targets : Phrase → List String
  | .statement s | .block s => s.targets
  | .statements ss => Stmt.targetsOf ss

/-- **The literals of a derived phrase, and the names that it assigns to, stand in
its tokens.** -/
theorem Derives.supplied {d : Nat} {ts : Tokens} {f : Phrase} (h : Derives d ts f) :
    Supplied ts f.nodes f.targets := by
  induction h with
  | @print d ts e n k m he =>
    exact he.supplied.mono fun t ht => List.mem_cons_of_mem _ (subset_parenthesized k m ts ht)
  | @assign d ts e x n k he =>
    have hvalue := he.supplied.mono fun t ht =>
      List.mem_cons_of_mem ⟨.identifier x, n⟩ (List.mem_cons_of_mem ⟨.equals, k⟩ ht)
    refine ⟨hvalue.literals, fun y hy => ?_⟩
    obtain rfl := List.mem_singleton.1 hy
    exact ⟨_, List.mem_cons_self, rfl⟩
  | @ifThen d d₁ ts us c b n k m hc _ ih =>
    have hcondition := hc.supplied.mono (subset_parenthesized k m ts)
    have hboth := (hcondition.mono (List.subset_append_left _ us)).append
      (ih.mono (List.subset_append_right (parenthesized k m ts) us))
    exact hboth.mono (List.subset_cons_self _ _)
  | @ifElse d d₁ d₂ ts us vs c b b' n k m j hc _ _ ih ih' =>
    have hcondition := hc.supplied.mono (subset_parenthesized k m ts)
    have hblocks := (ih.mono (List.subset_append_left us (⟨.elseWord, j⟩ :: vs))).append
      (ih'.mono fun t ht => List.mem_append_right us (List.mem_cons_of_mem ⟨.elseWord, j⟩ ht))
    have hall := (hcondition.mono (List.subset_append_left _ _)).append
      (hblocks.mono (List.subset_append_right (parenthesized k m ts) _))
    exact hall.mono (List.subset_cons_self _ _)
  | @loop d d₁ ts us c b n k m hc _ ih =>
    have hcondition := hc.supplied.mono (subset_parenthesized k m ts)
    have hboth := (hcondition.mono (List.subset_append_left _ us)).append
      (ih.mono (List.subset_append_right (parenthesized k m ts) us))
    exact hboth.mono (List.subset_cons_self _ _)
  | @block d ts ss n m _ _ ih => exact ih.mono fun t ht => by simp [braced, ht]
  | none => exact ⟨fun v n hm => by simp [Phrase.nodes, Stmt.nodesOf] at hm,
      fun x hx => by simp [Phrase.targets, Stmt.targetsOf] at hx⟩
  | @next d d' ts us s ss n _ _ ih ihs =>
    exact (ih.mono (List.subset_append_left ts _)).append
      (ihs.mono fun t ht => List.mem_append_right ts (List.mem_cons_of_mem ⟨.semicolon, n⟩ ht))

/-- **The literals of a program, and the names that it assigns to, stand in its
tokens.** -/
theorem Program.supplied_of_parse {ts : Tokens} {p : Program} (h : parse ts = .ok p) :
    Supplied ts p.nodes (Stmt.targetsOf p) := by
  obtain ⟨d, -, hder, -⟩ := statements_eq_ok_iff.1 (parse_eq_ok_iff.1 h).1
  exact hder.supplied

/-- **The tokens of a source are what the lexical rules read.** -/
theorem exists_reads_of_mem_tokensOf {source : String} {t : Located Token}
    (h : t ∈ tokensOf source) : ∃ w, Reads w (.ok t.val) := by
  obtain ⟨i, hi, ht⟩ := List.mem_filterMap.1 h
  have hval : i.val = .ok t.val := by
    unfold Item.token? at ht
    split at ht
    · rename_i hok
      obtain rfl := Option.some.inj ht
      exact hok
    · cases ht
  have hmem := List.mem_map_of_mem (f := Located.val) hi
  rw [tokenize_eq, map_val_items] at hmem
  obtain ⟨s, hs, hreading⟩ := List.mem_map.1 hmem
  obtain ⟨hs, hlayout⟩ := List.mem_filter.1 hs
  obtain ⟨_, _, hm⟩ := Segment.exists_munches_of_mem_cut hs
  have hreads := hm.reads (by simpa using hlayout)
  rw [hreading, hval] at hreads
  exact ⟨s.text, hreads⟩

end FlatScript
