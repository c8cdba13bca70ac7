/-
# What a console reads

Files and the standard input are bytes.  A file is read as one text, the
standard input line by line; bytes that are no UTF-8 are no text.
-/

namespace FlatScript
namespace Console

/-- Why bytes cannot be read, or are no text. -/
inductive ReadFailure where
  /-- The system refuses, with its words and its code. -/
  | refused (details : String) (code : Nat)
  /-- The bytes are no valid text. -/
  | garbled
deriving DecidableEq

/-- The wording of a failure to read. -/
def ReadFailure.message : ReadFailure → String
  | .refused details code => s!"{details} (os error {code})"
  | .garbled => "stream did not contain valid UTF-8"

/-- The text of some bytes. -/
def decode (bytes : ByteArray) : Except ReadFailure String :=
  match String.fromUTF8? bytes with
  | some text => .ok text
  | none => .error .garbled

/-- The lines of some bytes.  A newline ends a line and does not belong to it,
nor does a carriage return before it; bytes after the last newline are a line. -/
def lines (bytes : List UInt8) : List (List UInt8) :=
  match _h : bytes.dropWhile (· ≠ 10) with
  | [] => if bytes.isEmpty then [] else [bytes]
  | _ :: rest =>
    let line := bytes.takeWhile (· ≠ 10)
    (if line.getLast? = some 13 then line.dropLast else line) :: lines rest
termination_by bytes.length
decreasing_by
  have hle := (List.dropWhile_suffix (l := bytes) (· ≠ (10 : UInt8))).length_le
  rw [_h, List.length_cons] at hle
  omega

/-- The lines of some bytes, as texts. -/
def textLines (bytes : ByteArray) : List (Except ReadFailure String) :=
  (lines bytes.toList).map fun line => decode ⟨line.toArray⟩

end Console
end FlatScript
