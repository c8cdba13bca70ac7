/-
# Cutting a source into segments

The source is cut into consecutive non-empty segments.  At each cut the longest
piece that some rule matches is taken; where no rule matches, one character.

| segment | rule |
| --- | --- |
| string | a quote, anything but quotes, a quote |
| real | digits, a point, digits |
| integer | digits |
| word | a letter or underscore, then letters, digits and underscores |
| sign | `==`, `!=`, or one of `< > + - * / = ( ) { } ;` |
| newlines | a run of newlines |
| blanks | a run of spaces, tabs and carriage returns |

Letters and digits are those of ASCII.  `munch` takes one segment off, `cut`
takes them all; nothing is lost (`flatten_cut`).
-/

import FlatScript.Fault
import FlatScript.Token.Basic

namespace FlatScript

/-- A piece of the source and what it is read as. -/
structure Segment where
  text : List Char
  reading : Except LexFault Token

namespace Segment

/-- A character that can start a word. -/
def isWordStart (c : Char) : Bool :=
  c.isAlpha || c == '_'

/-- A character that can go on a word. -/
def isWordRest (c : Char) : Bool :=
  c.isAlphanum || c == '_'

/-- A blank inside a line. -/
def isGap (c : Char) : Bool :=
  c == ' ' || c == '\t' || c == '\r'

/-- Reads a run of digits: an integer if it fits into 64 bits. -/
def readInteger (digits : List Char) : Except LexFault Token :=
  let n := Nat.ofDigitChars 10 digits 0
  if n < Value.integerBound then .ok (.integer (Int64.ofNat n))
  else .error (.integerTooLarge (String.ofList digits))

/-- Reads digits, a point and digits: the nearest float if that is finite. -/
def readReal (whole fraction : List Char) : Except LexFault Token :=
  let x := Float.ofScientific (Nat.ofDigitChars 10 (whole ++ fraction) 0) true fraction.length
  if x.isFinite then .ok (.real x)
  else .error (.realTooLarge (String.ofList (whole ++ '.' :: fraction)))

/-- The segment of a string, when a closing quote follows its opening one. -/
def string? (rest : List Char) : Option (Segment × List Char) :=
  match rest.dropWhile (· ≠ '"') with
  | [] => none
  | q :: after =>
    let body := rest.takeWhile (· ≠ '"')
    some (⟨'"' :: body ++ [q], .ok (.str (String.ofList body))⟩, after)

/-- The segment of a number that starts with the digits `digits`. -/
def number (digits rest : List Char) : Segment × List Char :=
  match rest with
  | '.' :: d :: after =>
    if d.isDigit then
      let fraction := d :: after.takeWhile Char.isDigit
      (⟨digits ++ '.' :: fraction, readReal digits fraction⟩, after.dropWhile Char.isDigit)
    else (⟨digits, readInteger digits⟩, rest)
  | _ => (⟨digits, readInteger digits⟩, rest)

/-- The segment of a sign, or of a single illegal character. -/
def sign (c : Char) (rest : List Char) : Segment × List Char :=
  match c, rest with
  | '=', '=' :: after => (⟨['=', '='], .ok .equalEqual⟩, after)
  | '!', '=' :: after => (⟨['!', '='], .ok .bangEqual⟩, after)
  | _, _ =>
    match Token.ofSign? c with
    | some t => (⟨[c], .ok t⟩, rest)
    | none => (⟨[c], .error (.illegalCharacter c)⟩, rest)

/-- Takes the first segment off a source that starts with `c`. -/
def munch (c : Char) (rest : List Char) : Segment × List Char :=
  if c = '"' then (string? rest).getD (sign c rest)
  else if c.isDigit then
    number (c :: rest.takeWhile Char.isDigit) (rest.dropWhile Char.isDigit)
  else if isWordStart c then
    let word := c :: rest.takeWhile isWordRest
    (⟨word, .ok (Token.ofWord (String.ofList word))⟩, rest.dropWhile isWordRest)
  else if c = '\n' then
    (⟨c :: rest.takeWhile (· = '\n'), .ok .newline⟩, rest.dropWhile (· = '\n'))
  else if isGap c then
    (⟨c :: rest.takeWhile isGap, .ok .blank⟩, rest.dropWhile isGap)
  else sign c rest

/-- A string and what follows it are the text. -/
theorem string?_append {rest after : List Char} {s : Segment}
    (h : string? rest = some (s, after)) : s.text ++ after = '"' :: rest := by
  unfold string? at h
  split at h
  · simp at h
  · rename_i q tail hq
    obtain ⟨rfl, rfl⟩ := Prod.mk.inj (Option.some.inj h)
    have := List.takeWhile_append_dropWhile (p := (· ≠ '"')) (l := rest)
    rw [hq] at this
    simp only [List.cons_append, List.append_assoc, List.nil_append, this]

theorem number_append (digits rest : List Char) :
    (number digits rest).1.text ++ (number digits rest).2 = digits ++ rest := by
  unfold number
  split
  · split
    · simp [List.takeWhile_append_dropWhile]
    · rfl
  · rfl

theorem sign_append (c : Char) (rest : List Char) :
    (sign c rest).1.text ++ (sign c rest).2 = c :: rest := by
  unfold sign
  split
  · rfl
  · rfl
  · split <;> rfl

/-- A segment and what is left of the source are the whole of it. -/
theorem munch_append (c : Char) (rest : List Char) :
    (munch c rest).1.text ++ (munch c rest).2 = c :: rest := by
  unfold munch
  split
  · rename_i hc
    cases h : string? rest with
    | none => exact sign_append c rest
    | some r => simpa [hc] using string?_append h
  split
  · rw [number_append, List.cons_append, List.takeWhile_append_dropWhile]
  split
  · rw [List.cons_append, List.takeWhile_append_dropWhile]
  split
  · rw [List.cons_append, List.takeWhile_append_dropWhile]
  split
  · rw [List.cons_append, List.takeWhile_append_dropWhile]
  · exact sign_append c rest

theorem number_text_ne_nil {digits : List Char} (h : digits ≠ []) (rest : List Char) :
    (number digits rest).1.text ≠ [] := by
  unfold number
  split
  · split
    · simp
    · exact h
  · exact h

theorem sign_text_ne_nil (c : Char) (rest : List Char) : (sign c rest).1.text ≠ [] := by
  unfold sign
  split
  · simp
  · simp
  · split <;> simp

/-- No segment is empty. -/
theorem munch_text_ne_nil (c : Char) (rest : List Char) : (munch c rest).1.text ≠ [] := by
  unfold munch
  split
  · cases h : string? rest with
    | none => exact sign_text_ne_nil c rest
    | some r =>
      unfold string? at h
      split at h
      · simp at h
      · obtain rfl := Option.some.inj h
        simp
  split
  · exact number_text_ne_nil (by simp) _
  split
  · simp
  split
  · simp
  split
  · simp
  · exact sign_text_ne_nil c rest

/-- What is left of a source after one segment is shorter. -/
theorem munch_length (c : Char) (rest : List Char) :
    (munch c rest).2.length < (c :: rest).length := by
  have h := congrArg List.length (munch_append c rest)
  have h' := List.length_pos_iff.2 (munch_text_ne_nil c rest)
  rw [List.length_append] at h
  omega

/-- Cuts a source into its segments. -/
def cut : List Char → List Segment
  | [] => []
  | c :: rest => (munch c rest).1 :: cut (munch c rest).2
termination_by source => source.length
decreasing_by exact munch_length c rest

/-- The segments of a source, put together, are the source. -/
theorem flatten_cut (source : List Char) : ((cut source).map Segment.text).flatten = source := by
  fun_induction cut source with
  | case1 => rfl
  | case2 c rest ih => rw [List.map_cons, List.flatten_cons, ih, munch_append]

/-- No segment of a source is empty. -/
theorem text_ne_nil_of_mem_cut {source : List Char} {s : Segment} (h : s ∈ cut source) :
    s.text ≠ [] := by
  fun_induction cut source with
  | case1 => simp at h
  | case2 c rest ih =>
    rcases List.mem_cons.1 h with rfl | h
    · exact munch_text_ne_nil c rest
    · exact ih h

end Segment
end FlatScript
