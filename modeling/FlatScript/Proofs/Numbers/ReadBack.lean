/-
# Integers read back as they are printed

An integer is printed in decimal, and a script may write the same digits, with any
number of zeros in front and after a sign if the integer is negative.  Every integer
but the least one is read back in this way: `print` of what was printed prints it
again (`Script.integers_read_back`).

| | digits | sign |
| --- | --- | --- |
| below `2 ^ 63` | one integer token | negated when the script runs |
| `2 ^ 63` and above | one fault, and no token | negates nothing |

The sign is no part of the literal.  So the least integer, `-2 ^ 63`, cannot be
written: its digits are too large before the sign could make it fit, and without
them the script does not parse.
-/

import FlatScript.Proofs.Grammar.Limits
import FlatScript.Proofs.Lexing.Items
import FlatScript.Script
import Mathlib

namespace FlatScript

/-- The digits of a number, after `k` zeros. -/
def padded (k n : Nat) : List Char :=
  List.replicate k '0' ++ Nat.toDigits 10 n

theorem padded_ne_nil (k n : Nat) : padded k n ≠ [] :=
  List.append_ne_nil_of_right_ne_nil _ Nat.toDigits_ne_nil

/-- The digits of a number are digits, and so are zeros. -/
theorem isDigit_of_mem_padded {k n : Nat} {x : Char} (h : x ∈ padded k n) : x.isDigit = true := by
  rcases List.mem_append.1 h with h | h
  · rw [List.eq_of_mem_replicate h]
    rfl
  · exact Nat.isDigit_of_mem_toDigits (by decide) (by decide) h

/-- Zeros in front do not change the number that is read. -/
theorem ofDigitChars_padded (k n : Nat) : Nat.ofDigitChars 10 (padded k n) 0 = n := by
  rw [padded, Nat.ofDigitChars_append, Nat.ofDigitChars_replicate_zero, Nat.mul_zero,
    Nat.ofDigitChars_ten_toDigits]

/-- The source that prints the number with the given digits, or its negative. -/
def printing (negative : Bool) (digits : List Char) : String :=
  "print(" ++ (if negative then "-" else "") ++ String.ofList digits ++ ");"

namespace Segment

/-- The digits of a number below the bound are an integer token. -/
theorem readInteger_padded_of_lt (k : Nat) {n : Nat} (h : n < Value.integerBound) :
    readInteger (padded k n) = .ok (.integer (Int64.ofNat n)) := by
  rw [readInteger, ofDigitChars_padded, if_pos h]

/-- The digits of any other number are a fault, zeros and all. -/
theorem readInteger_padded_of_le (k : Nat) {n : Nat} (h : Value.integerBound ≤ n) :
    readInteger (padded k n) = .error (.integerTooLarge (String.ofList (padded k n))) := by
  rw [readInteger, ofDigitChars_padded, if_neg (Nat.not_lt.2 h)]

/-- A sign that is one character long stands by itself, and the text goes on. -/
theorem cut_sign {c : Char} {t : Token} (h : Token.ofSign? c = some t) (hc : c ≠ '=')
    (after : List Char) : cut (c :: after) = ⟨[c], .ok t⟩ :: cut after :=
  (Munches.sign h fun he => absurd he hc).cut_eq

/-- Digits in front of a closing bracket are a segment. -/
theorem cut_digits {w : List Char} (hne : w ≠ []) (hw : ∀ x ∈ w, x.isDigit = true)
    (after : List Char) : cut (w ++ ')' :: after) = ⟨w, readInteger w⟩ :: cut (')' :: after) := by
  have hstops : Stops Char.isDigit (')' :: after) := by
    intro x hx
    obtain rfl := Option.some.inj hx
    rfl
  exact (Munches.integer hne hw hstops fun cs hcs => by cases hcs).cut_eq

/-- The word at the start of a printing source is a segment. -/
theorem cut_print (after : List Char) :
    cut ('p' :: 'r' :: 'i' :: 'n' :: 't' :: '(' :: after) =
      ⟨"print".toList, .ok .printWord⟩ :: cut ('(' :: after) := by
  have hstops : Stops isWordRest ('(' :: after) := by
    intro x hx
    obtain rfl := Option.some.inj hx
    rfl
  have hword : ∀ x ∈ ['r', 'i', 'n', 't'], isWordRest x = true :=
    List.all_eq_true.1 rfl
  exact (Munches.word (c := 'p') rfl hword hstops).cut_eq

/-- Segments of one line without layout are an item each. -/
theorem items_of_line (line : Nat) {ss : List Segment}
    (h : ∀ s ∈ ss, s.isLayout = false ∧ newlines s.text = 0) :
    items line ss = ss.map fun s => ⟨s.reading, line⟩ := by
  induction ss with
  | nil => rfl
  | cons s ss ih =>
    obtain ⟨⟨hlayout, hnewlines⟩, hss⟩ := List.forall_mem_cons.1 h
    rw [items, hlayout, hnewlines, Nat.add_zero, ih hss]
    rfl

/-- The segments of a printing source. -/
theorem cut_printing (negative : Bool) {w : List Char} (hne : w ≠ [])
    (hw : ∀ x ∈ w, x.isDigit = true) :
    cut (printing negative w).toList =
      [⟨"print".toList, .ok .printWord⟩, ⟨['('], .ok .leftParen⟩] ++
        List.replicate negative.toNat ⟨['-'], .ok .minus⟩ ++
          [⟨w, readInteger w⟩, ⟨[')'], .ok .rightParen⟩, ⟨[';'], .ok .semicolon⟩] := by
  have hend : cut [')', ';'] = [⟨[')'], .ok .rightParen⟩, ⟨[';'], .ok .semicolon⟩] := by
    rw [cut_sign rfl (by decide), cut_sign rfl (by decide), cut]
  cases negative with
  | false =>
    have htext : (printing false w).toList =
        'p' :: 'r' :: 'i' :: 'n' :: 't' :: '(' :: (w ++ [')', ';']) := by
      simp [printing]
    rw [htext, cut_print, cut_sign rfl (by decide), cut_digits hne hw, hend]
    rfl
  | true =>
    have htext : (printing true w).toList =
        'p' :: 'r' :: 'i' :: 'n' :: 't' :: '(' :: '-' :: (w ++ [')', ';']) := by
      simp [printing]
    rw [htext, cut_print, cut_sign rfl (by decide), cut_sign rfl (by decide),
      cut_digits hne hw, hend]
    rfl

end Segment

open Segment

/-- **A printing source is a few signs around what its digits are read as.** -/
theorem tokenize_printing (negative : Bool) {w : List Char} (hne : w ≠ [])
    (hw : ∀ x ∈ w, x.isDigit = true) :
    tokenize (printing negative w) =
      [⟨.ok .printWord, 1⟩, ⟨.ok .leftParen, 1⟩] ++
        List.replicate negative.toNat ⟨.ok .minus, 1⟩ ++
          [⟨readInteger w, 1⟩, ⟨.ok .rightParen, 1⟩, ⟨.ok .semicolon, 1⟩] := by
  have hdigits : isLayout ⟨w, readInteger w⟩ = false ∧ newlines w = 0 := by
    refine ⟨?_, List.count_eq_zero.2 (not_mem_of_forall hw rfl)⟩
    rcases readInteger_cases w with ⟨k, hk⟩ | hk
    · rw [hk]
      rfl
    · rw [hk]
      rfl
  rw [tokenize_eq, cut_printing negative hne hw, items_of_line 1]
  · simp only [List.map_append, List.map_cons, List.map_nil, List.map_replicate]
  · cases negative <;> simpa [isLayout, newlines, Token.isLayout] using hdigits

/-- Digits below the bound are scanned without a fault. -/
theorem scan_printing_of_lt (negative : Bool) (k : Nat) {n : Nat} (h : n < Value.integerBound) :
    lexErrorsOf (printing negative (padded k n)) = [] ∧
      tokensOf (printing negative (padded k n)) =
        ⟨.printWord, 1⟩ :: parenthesized 1 1 (List.replicate negative.toNat ⟨.minus, 1⟩ ++
          [⟨.integer (Int64.ofNat n), 1⟩]) ++ [⟨.semicolon, 1⟩] := by
  rw [lexErrorsOf, tokensOf, tokenize_printing negative (padded_ne_nil k n)
    fun _ => isDigit_of_mem_padded, readInteger_padded_of_lt k h]
  cases negative <;> exact ⟨rfl, rfl⟩

/-- Digits from the bound on are one fault, and the source is left without them. -/
theorem scan_printing_of_le (negative : Bool) (k : Nat) {n : Nat} (h : Value.integerBound ≤ n) :
    lexErrorsOf (printing negative (padded k n)) =
        [⟨.integerTooLarge (String.ofList (padded k n)), 1⟩] ∧
      tokensOf (printing negative (padded k n)) =
        ⟨.printWord, 1⟩ :: parenthesized 1 1 (List.replicate negative.toNat ⟨.minus, 1⟩) ++
          [⟨.semicolon, 1⟩] := by
  rw [lexErrorsOf, tokensOf, tokenize_printing negative (padded_ne_nil k n)
    fun _ => isDigit_of_mem_padded, readInteger_padded_of_le k h]
  cases negative <;> exact ⟨rfl, rfl⟩

/-- An integer token after a sign, or after none, is printed. -/
theorem parse_printing (negative : Bool) (i : Int64) :
    Program.parse (⟨.printWord, 1⟩ :: parenthesized 1 1
        (List.replicate negative.toNat ⟨.minus, 1⟩ ++ [⟨.integer i, 1⟩]) ++ [⟨.semicolon, 1⟩]) =
      .ok [.print (Expr.signed (.literal (.integer i) 1) negative.toNat) 1] := by
  have hliteral : Expr.Derives .unary 0 [⟨.integer i, 1⟩] (.literal (.integer i) 1) :=
    .operand rfl (.literal rfl)
  have hsigned := Expr.derives_signed hliteral negative.toNat
  have hprint := Derives.print 1 1 1 (.operand rfl (.operand rfl (.operand rfl hsigned)))
  have hprogram := Derives.next 1 hprint .none
  have hnesting : max (0 + negative.toNat) 0 ≤ Expr.maxNesting := by
    cases negative <;> decide
  have hnodes (e : Expr) : Program.nodes [.print e 1] = e.nodes := List.append_nil _
  refine Program.parse_eq_ok_iff.2 ⟨Program.statements_of_derives hnesting hprogram ?_, ?_⟩
  · rw [hnodes]
    exact Expr.low_nodes_signed (Expr.low_nodes_literal _ _) _
  · rw [hnodes]
    exact Expr.isBooleanSum_of_mem_signed (by simp [Expr.nodes, Expr.isBooleanSum]) _

/-- Nothing after a sign, or after no sign, is no expression. -/
theorem parse_printing_nothing (negative : Bool) :
    Program.parse (⟨.printWord, 1⟩ ::
        parenthesized 1 1 (List.replicate negative.toNat ⟨.minus, 1⟩) ++ [⟨.semicolon, 1⟩]) =
      .error ⟨.unexpectedToken "')'" "an expression", 1⟩ := by
  cases negative <;> cbv

/-- Without its sign, an integer other than the least one is below the bound. -/
theorem natAbs_lt_integerBound {n : Int64} (h : n ≠ Int64.minValue) :
    n.toInt.natAbs < Value.integerBound := by
  have hlow := n.le_toInt
  have hhigh := n.toInt_lt
  have hne : n.toInt ≠ -2 ^ 63 := fun heq => h (Int64.toInt_inj.1 (heq.trans rfl))
  have hbound : Value.integerBound = 2 ^ 63 := rfl
  omega

/-- **The sign gives an integer back** that is not the least one. -/
theorem eval_signed (c : Context) {n : Int64} (h : n ≠ Int64.minValue) :
    Expr.eval c (.signed (.literal (.integer (Int64.ofNat n.toInt.natAbs)) 1)
      (decide (n.toInt < 0)).toNat) = .ok (.integer n) := by
  have habs : (Int64.ofNat n.toInt.natAbs).toInt = n.toInt.natAbs :=
    Int64.toInt_ofNat_of_lt (natAbs_lt_integerBound h)
  by_cases hneg : n.toInt < 0
  · have hexact : Value.exact (-(Int64.ofNat n.toInt.natAbs).toInt) = .ok (.integer n) := by
      have hn : Value.ofInt? (-(Int64.ofNat n.toInt.natAbs).toInt) = some n :=
        Value.ofInt?_eq_some_iff.2 (by omega)
      rw [Value.exact, hn]
    rw [decide_eq_true hneg]
    simp only [Bool.toNat_true, Expr.signed, Expr.eval, Value.negate, hexact, onLine]
  · have hn : Int64.ofNat n.toInt.natAbs = n := Int64.toInt_inj.1 (by omega)
    rw [decide_eq_false hneg, hn]
    rfl

namespace Script

/-- **Integers read back as they are printed.**  A script that prints the digits of
an integer other than the least one, with zeros and, for a negative one, a sign in
front, prints the text of that integer.  Digits from `2 ^ 63` on are one fault, with
all of the digits in it, and the script does not parse: nothing runs, with a sign or
without. -/
theorem integers_read_back :
    (∀ (n : Int64) (k limit : Nat), n ≠ Int64.minValue →
      output limit (printing (n.toInt < 0) (padded k n.toInt.natAbs)) =
        some (.ok #[(Value.integer n).text])) ∧
    ∀ (m k limit : Nat) (negative : Bool) (c : Context), 2 ^ 63 ≤ m →
      let tooLarge : LexError := ⟨.integerTooLarge (String.ofList (padded k m)), 1⟩
      let missing : ParseError := ⟨.unexpectedToken "')'" "an expression", 1⟩
      lexErrorsOf (printing negative (padded k m)) = [tooLarge] ∧
        execute limit (printing negative (padded k m)) c =
          some ⟨some (.parse missing), ⟨c, #[]⟩, [.ofLexError tooLarge, .ofParseError missing]⟩ := by
  constructor
  · intro n k limit hn
    obtain ⟨-, htokens⟩ := scan_printing_of_lt (n.toInt < 0) k (natAbs_lt_integerBound hn)
    have hparse := parse_printing (n.toInt < 0) (Int64.ofNat n.toInt.natAbs)
    rw [← htokens] at hparse
    rw [output, execute_of_parse_ok limit .empty hparse]
    simp only [Program.run, Stmt.runAll, Stmt.run, eval_signed .empty hn]
    rfl
  · intro m k limit negative c hm tooLarge missing
    obtain ⟨herrors, htokens⟩ := scan_printing_of_le negative k hm
    have hparse := parse_printing_nothing negative
    rw [← htokens] at hparse
    refine ⟨herrors, ?_⟩
    rw [execute_of_parse_error limit c hparse, herrors]
    rfl

/-- The largest integer, its negative, and the digits of the least integer. -/
theorem integers_read_back_extremes :
    let largest : Int64 := 9223372036854775807
    (largest ≠ Int64.minValue ∧ output 0 (printing false (padded 2 9223372036854775807)) =
        some (.ok #["9223372036854775807"])) ∧
      (-largest ≠ Int64.minValue ∧ output 0 (printing true (padded 0 9223372036854775807)) =
        some (.ok #["-9223372036854775807"])) ∧
      printing true (padded 1 9223372036854775808) = "print(-09223372036854775808);" ∧
        lexErrorsOf (printing true (padded 1 9223372036854775808)) =
          [⟨.integerTooLarge "09223372036854775808", 1⟩] := by
  intro largest
  obtain ⟨hback, hlarge⟩ := integers_read_back
  have hne : largest ≠ Int64.minValue ∧ -largest ≠ Int64.minValue := by decide
  have htext : (Value.integer largest).text = "9223372036854775807" ∧
      (Value.integer (-largest)).text = "-9223372036854775807" := by decide +kernel
  have hint : largest.toInt = 9223372036854775807 ∧
      (-largest).toInt = -9223372036854775807 := by decide +kernel
  have hlargest := hback largest 2 0 hne.1
  have hnegative := hback (-largest) 0 0 hne.2
  have hdigits := (hlarge (2 ^ 63) 1 0 true .empty (Nat.le_refl _)).1
  have hliteral : String.ofList (padded 1 (2 ^ 63)) = "09223372036854775808" := by decide +kernel
  rw [htext.1, hint.1] at hlargest
  rw [htext.2, hint.2] at hnegative
  rw [hliteral] at hdigits
  exact ⟨⟨hne.1, hlargest⟩, ⟨hne.2, hnegative⟩, by decide +kernel, hdigits⟩

end Script
end FlatScript
