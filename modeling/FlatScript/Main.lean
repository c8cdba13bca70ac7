/-
# The program

Reads the command line, the files and the standard input, and writes what a
console run emits.
-/

import FlatScript.Console.Run

namespace FlatScript
namespace Console

/-- More tests of a condition than any loop can make in practice. -/
def patience : Nat := 0x4000000000000000

/-- Writes emissions, in order. -/
def emit (es : List Emission) : IO Unit := do
  let out ← IO.getStdout
  let err ← IO.getStderr
  for e in es do
    out.putStr e.out
    err.putStr e.err
  out.flush

/-- The failure to read that an error of the system stands for. -/
def failureOf : IO.Error → ReadFailure
  | .noFileOrDirectory _ code details => .refused details code.toNat
  | .inappropriateType _ code details => .refused details code.toNat
  | .permissionDenied _ code details => .refused details code.toNat
  | .invalidArgument _ code details => .refused details code.toNat
  | .resourceExhausted _ code details => .refused details code.toNat
  | .unsatisfiedConstraints code details => .refused details code.toNat
  | .otherError code details => .refused details code.toNat
  | e => .refused (toString e) 0

/-- The bytes of a file, or why there are none. -/
def bytesOf (path : String) : IO (Except ReadFailure ByteArray) := do
  try
    let handle ← IO.FS.Handle.mk path .read
    return .ok (← handle.readBinToEnd)
  catch e =>
    return .error (failureOf e)

/-- Reads the bytes up to the next newline, or to the end of the input. -/
partial def lineBytes (input : IO.FS.Stream) (taken : ByteArray) : IO ByteArray := do
  let byte ← input.read 1
  if byte.isEmpty then return taken
  if byte[0]? = some 10 then return taken ++ byte
  lineBytes input (taken ++ byte)

/-- Takes lines from the input until it ends, breaks, or asks to quit. -/
partial def converse (input : IO.FS.Stream) (r : Repl) : IO (Option Repl) := do
  match textLines (← lineBytes input .empty) with
  | .ok line :: _ =>
    match r.feed patience line with
    | some (es, some r') => do
      emit es
      converse input r'
    | some (es, none) => do
      emit es
      return some r
    | none => return none
  | .error failure :: _ => do
    emit [Repl.broken failure]
    return none
  | [] => return some r

/-- Runs an interactive session on the standard input. -/
def interact (o : Options) : IO Status := do
  emit [Repl.fresh.prompt]
  match ← converse (← IO.getStdin) .fresh with
  | some r => do
    emit (listed o.showVariables fun _ => r.session.context.table)
    return .success
  | none => return .failure

/-- Runs the console on its arguments. -/
def start (arguments : List String) : IO Status := do
  match CommandLine.parse arguments with
  | .ok o =>
    match o.source with
    | .interactive => interact o
    | .file path => do
      let contents ← bytesOf path
      report (run patience arguments .empty fun _ => contents)
    | .inline _ => report (run patience arguments .empty fun _ => .ok .empty)
  | .error _ => report (run patience arguments .empty fun _ => .ok .empty)
where
  report : Option Report → IO Status
    | some r => do
      emit r.emissions
      return r.status
    | none => return .failure

end Console
end FlatScript

/-- The entry point: runs the console and exits with its code. -/
def main (arguments : List String) : IO UInt32 := do
  let status ← FlatScript.Console.start arguments
  return status.code.toUInt32
