/-
# Sessions on the bytes of their lines

A session reads bytes and not lines.  It gets back the lines that were typed: the
bytes of a text keep its newlines and carriage returns apart from everything else,
as no other character has a byte below 128 that is not its own code
(`Text.toNat_eq_of_mem_utf8`).  So the bytes of lines, a newline after each, are
read as these lines, without a carriage return at their ends
(`textLines_sourceOf`), and a session on them shows what the source that they make
prints (`runSession_sourceOf`).  No line is out of reach: with a carriage return of
its own before the newline, every line comes back as it is
(`textLines_sourceOf_return`).
-/

import FlatScript.Console.Run
import FlatScript.Proofs.Console.Agreement

namespace FlatScript

namespace Text

/-- The bytes that a byte array still has to list, behind those that it has listed. -/
theorem toList_loop (bytes : ByteArray) (i : Nat) (listed : List UInt8) :
    ByteArray.toList.loop bytes i listed = listed.reverse ++ bytes.data.toList.drop i := by
  induction hleft : bytes.size - i generalizing i listed with
  | zero =>
    have hend : bytes.data.toList.length ≤ i := by
      rw [Array.length_toList, ByteArray.size_data]
      omega
    rw [ByteArray.toList.loop, if_neg (by omega), List.drop_eq_nil_of_le hend, List.append_nil]
  | succ left ih =>
    have hi : i < bytes.size := by omega
    have hdrop : bytes.data.toList.drop i =
        bytes.get! i :: bytes.data.toList.drop (i + 1) := by
      rw [List.drop_eq_getElem_cons hi, Array.getElem_toList]
      exact congrArg (· :: _) (getElem!_pos bytes.data i hi).symm
    rw [ByteArray.toList.loop, if_pos hi, ih (i + 1) _ (by omega), hdrop]
    simp

/-- A byte array lists the bytes that it holds. -/
theorem toList_bytes (bytes : ByteArray) : bytes.toList = bytes.data.toList := by
  simp [ByteArray.toList, toList_loop]

/-- The bytes of a text are those of its characters. -/
theorem toList_toUTF8 (s : String) :
    s.toUTF8.toList = s.toList.flatMap String.utf8EncodeChar := by
  rw [toList_bytes, String.toUTF8_eq_toByteArray, ← String.utf8Encode_toList, List.utf8Encode,
    List.toList_data_toByteArray]

/-- A byte below 128 is the code of its character. -/
theorem toNat_eq_of_mem_utf8 {c : Char} {b : UInt8} (h : b ∈ String.utf8EncodeChar c)
    (hb : b.toNat < 128) : c.toNat = b.toNat := by
  have hofNat : ∀ {n : Nat}, b = UInt8.ofNat n → b.toNat = n % 256 := by
    rintro n rfl
    exact UInt8.toNat_ofNat'
  rw [String.utf8EncodeChar] at h
  -- Only a character of one byte has a byte that small.
  split at h
  · rename_i hc
    have hn := hofNat (List.mem_singleton.1 h)
    rw [Char.toNat]
    omega
  · simp only [List.mem_cons, List.not_mem_nil, or_false, apply_ite (b ∈ ·)] at h
    split at h
    · rcases h with h | h <;> have hn := hofNat h <;> omega
    · split at h
      · rcases h with h | h | h <;> have hn := hofNat h <;> omega
      · rcases h with h | h | h | h <;> have hn := hofNat h <;> omega

/-- The bytes of a text have a byte below 128 only where it has the character. -/
theorem mem_toList_of_mem_toUTF8 {s : String} {b : UInt8} {c : Char} (h : b ∈ s.toUTF8.toList)
    (hb : b.toNat < 128) (hc : c.toNat = b.toNat) : c ∈ s.toList := by
  rw [toList_toUTF8, List.mem_flatMap] at h
  obtain ⟨c', hmem, hb'⟩ := h
  have hcode : c'.toNat = c.toNat := (toNat_eq_of_mem_utf8 hb' hb).trans hc.symm
  obtain rfl : c' = c := Char.toNat_inj.1 hcode
  exact hmem

end Text

namespace Console

/-- The bytes of a text decode to it. -/
theorem decode_toUTF8 (s : String) : decode ⟨s.toUTF8.toList.toArray⟩ = .ok s := by
  have hbytes : (⟨s.toUTF8.toList.toArray⟩ : ByteArray) = s.toByteArray := by
    rw [Text.toList_bytes, String.toUTF8_eq_toByteArray]
  have hvalid : String.fromUTF8? s.toByteArray = some s := by
    rw [String.fromUTF8?, dif_pos s.isValidUTF8]
    rfl
  rw [hbytes, decode, hvalid]

/-- The first line of some bytes: what stands before the first newline, without a
carriage return at its end. -/
theorem lines_append_newline {line rest : List UInt8} (h : 10 ∉ line) :
    lines (line ++ 10 :: rest) =
      (if line.getLast? = some 13 then line.dropLast else line) :: lines rest := by
  have hline : ∀ b ∈ line, (fun b : UInt8 => decide (b ≠ 10)) b = true := by
    intro b hb
    exact decide_eq_true fun hb' => h (hb' ▸ hb)
  have hdrop : (line ++ 10 :: rest).dropWhile (· ≠ 10) = 10 :: rest := by
    rw [List.dropWhile_append_of_pos hline]
    rfl
  have htake : (line ++ 10 :: rest).takeWhile (· ≠ 10) = line := by
    rw [List.takeWhile_append_of_pos hline]
    simp
  rw [lines]
  split
  · rename_i hnil
    rw [hdrop] at hnil
    cases hnil
  · rename_i hcons
    rw [hdrop] at hcons
    cases hcons
    simp only [htake]

/-- A line without the carriage return at its end, if it has one. -/
def chomped (line : String) : String :=
  if line.toList.getLast? = some '\r' then String.ofList line.toList.dropLast else line

/-- **Bytes are chomped as their text is**: they end in the byte of a carriage return
when the text ends in one. -/
theorem toUTF8_chomped (line : String) :
    (chomped line).toUTF8.toList =
      if line.toUTF8.toList.getLast? = some 13 then line.toUTF8.toList.dropLast
      else line.toUTF8.toList := by
  rw [Text.toList_toUTF8, Text.toList_toUTF8, chomped]
  rcases List.eq_nil_or_concat line.toList with hnil | ⟨cs, c, hconcat⟩
  · simp [hnil]
  · rw [List.concat_eq_append] at hconcat
    have hbytes : line.toList.flatMap String.utf8EncodeChar =
        cs.flatMap String.utf8EncodeChar ++ String.utf8EncodeChar c := by
      simp [hconcat]
    by_cases hc : c = '\r'
    · subst hc
      have hreturn : String.utf8EncodeChar '\r' = [13] := rfl
      simp [hconcat, hreturn]
    · have hlast : (line.toList.flatMap String.utf8EncodeChar).getLast? ≠ some 13 := by
        intro hlast
        rw [hbytes, List.getLast?_append, Option.or_of_isSome (by simp)] at hlast
        have hcode := Text.toNat_eq_of_mem_utf8 (List.mem_of_getLast? hlast) (by decide)
        exact hc (Char.toNat_inj.1 hcode)
      rw [if_neg hlast, if_neg (by simpa [hconcat] using hc)]

/-- **The console gets back the lines that were typed**, without the carriage returns
at their ends: a newline in the bytes is one in the text. -/
theorem textLines_sourceOf {ls : List String} (h : ∀ l ∈ ls, '\n' ∉ l.toList) :
    textLines (sourceOf ls).toUTF8 = ls.map fun l => .ok (chomped l) := by
  induction ls with
  | nil => simp [textLines, sourceOf, lines]
  | cons l ls ih =>
    obtain ⟨hl, hls⟩ := List.forall_mem_cons.1 h
    have hsource : (sourceOf (l :: ls)).toUTF8.toList =
        l.toUTF8.toList ++ 10 :: (sourceOf ls).toUTF8.toList := by
      simp only [Text.toList_toUTF8, sourceOf, String.toList_append, List.flatMap_append,
        List.append_assoc]
      rfl
    have hline : 10 ∉ l.toUTF8.toList := fun hmem =>
      hl (Text.mem_toList_of_mem_toUTF8 hmem (by decide) rfl)
    rw [textLines, hsource, lines_append_newline hline, ← toUTF8_chomped, List.map_cons,
      decode_toUTF8, List.map_cons, ← ih hls, textLines]

example : textLines (sourceOf ["n = 1;\r", "print(n);\r\r"]).toUTF8 =
    [.ok "n = 1;", .ok "print(n);\r"] := by
  rw [textLines_sourceOf (by decide)]
  decide

/-- With a carriage return after each, lines of any kind come back as they are, those
that end in a carriage return of their own as well. -/
theorem textLines_sourceOf_return {ls : List String} (h : ∀ l ∈ ls, '\n' ∉ l.toList) :
    textLines (sourceOf (ls.map (· ++ "\r"))).toUTF8 = ls.map .ok := by
  have hlines : ∀ l ∈ ls.map (· ++ "\r"), '\n' ∉ l.toList := by
    intro l hl
    obtain ⟨l', hl', rfl⟩ := List.mem_map.1 hl
    simpa using h l' hl'
  rw [textLines_sourceOf hlines, List.map_map]
  exact List.map_congr_left fun l _ => by simp [chomped]

/-- **A session agrees with the script that its lines make.**  If the input is read as
lines that make a source without faults, which on its own runs to its end, then the
session shows what the source prints and else only its prompts, lists the variables
of the source when it is asked to, and succeeds. -/
theorem runSession_of_textLines {limit : Nat} {input : ByteArray} {ls : List String}
    {x : Execution} (o : Options) (hlines : textLines input = ls.map .ok)
    (hlex : lexErrorsOf (sourceOf ls) = [])
    (hx : Script.execute limit (sourceOf ls) .empty = some x) (hok : x.error? = none) :
    ∃ es, runSession limit o input =
        some ⟨Repl.fresh.prompt :: es ++ listed o.showVariables fun _ => x.state.context.table,
          .success⟩ ∧
      es.filter (fun e => !e.isPrompt) = x.state.output.toList.map .printed := by
  have hruns := Runs.of_execute hlex hx hok
  rw [← String.empty_append (s := sourceOf ls)] at hruns
  obtain ⟨es, hdrive, hes⟩ := Repl.drive_of_runs hruns (.inl rfl)
  refine ⟨es, ?_, hes⟩
  rw [runSession, hlines]
  exact congrArg (Option.map _) hdrive

/-- A session on the bytes of a source whose lines do not end in carriage returns
agrees with the run of that source. -/
theorem runSession_sourceOf {limit : Nat} {ls : List String} {x : Execution} (o : Options)
    (hlines : ∀ l ∈ ls, '\n' ∉ l.toList ∧ l.toList.getLast? ≠ some '\r')
    (hlex : lexErrorsOf (sourceOf ls) = [])
    (hx : Script.execute limit (sourceOf ls) .empty = some x) (hok : x.error? = none) :
    ∃ es, runSession limit o (sourceOf ls).toUTF8 =
        some ⟨Repl.fresh.prompt :: es ++ listed o.showVariables fun _ => x.state.context.table,
          .success⟩ ∧
      es.filter (fun e => !e.isPrompt) = x.state.output.toList.map .printed := by
  refine runSession_of_textLines o ?_ hlex hx hok
  rw [textLines_sourceOf fun l hl => (hlines l hl).1]
  exact List.map_congr_left fun l hl => congrArg Except.ok (if_neg (hlines l hl).2)

example : ∀ l ∈ spreadLines, '\n' ∉ l.toList ∧ l.toList.getLast? ≠ some '\r' := by decide

end Console
end FlatScript
