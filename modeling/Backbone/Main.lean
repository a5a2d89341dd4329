import Backbone.CommandLine.Run

/-!
# The command line

Reads the environment and the input, holds the analysis with the oracle that the words choose, and
puts the result out.  Programs cannot be started from here, so questions to the external oracle
end with that fault.
-/

namespace Backbone.CommandLine.Host

/-- The cause behind an error of the operating system. -/
def causeOf : IO.Error → FileFault
  | .noFileOrDirectory _ _ _ => .missing
  | .permissionDenied _ _ _ => .denied
  | .inappropriateType _ code _ => if code = 20 then .notDirectory else .isDirectory
  | .invalidArgument _ code _ => if code = 36 then .nameTooLong else .unsupported
  | error => .reported error.toString

/-- An action on a file, with an error of the operating system as a fault. -/
def guarded {α : Type} (action : IO α) : IO (Except Fault α) := do
  match ← action.toBaseIO with
  | .ok value => return .ok value
  | .error cause => return .error (.file (causeOf cause))

/-- The text of bytes, which must be UTF-8. -/
def textOf (bytes : ByteArray) : Except Fault String :=
  match String.fromUTF8? bytes with
  | some text => .ok text
  | none => .error (.file .undecodable)

/-- All bytes of a stream. -/
partial def readAll (stream : IO.FS.Stream) (bytes : ByteArray) : IO ByteArray := do
  let more ← stream.read 65536
  if more.isEmpty then return bytes else readAll stream (bytes ++ more)

/-- The text of the formula. -/
def readInput (invocation : Invocation) : IO (Except Fault String) := do
  let bytes ← guarded <| match invocation.input with
    | none => do readAll (← IO.getStdin) .empty
    | some path => IO.FS.readBinFile path
  return bytes >>= textOf

/-- A clock of real time. -/
def realStopwatch : Enumeration.Stopwatch IO := fun timeout => do
  let start ← IO.monoMsNow
  return fun _ => do return timeout < (← IO.monoMsNow) - start

/-- No program can be started. -/
def noLauncher : External.Launcher IO := fun _ => return .error (.notStarted .unsupported)

/-- Put the result of an invocation where it belongs. -/
def deliver (invocation : Invocation) (result : String) : IO (Except Fault Unit) :=
  match invocation.output with
  | none => do
    let stdout ← IO.getStdout
    guarded do
      stdout.putStr result
      stdout.flush
  | some path => guarded (IO.FS.writeFile path result)

/-- The exit status after a result or a fault, which is reported. -/
def report : Except Fault Unit → IO UInt32
  | .ok () => return 0
  | .error fault => do
    IO.eprintln fault.message
    return 1

/-- Carry out an invocation. -/
def carryOut (invocation : Invocation) : IO UInt32 := do
  let dialogue := (invocation.analysis (← readInput invocation)).run
  let held ← Dialogue.run (invocation.oracleIn realStopwatch noLauncher) dialogue
  match held.result with
  | .ok result => report (← deliver invocation result)
  | .error fault => report (.error fault)

/-- Carry out the words of a command line. -/
def perform (words : List String) : IO UInt32 := do
  let environment : Environment :=
    ⟨← IO.getEnv solverVariable, ← IO.getEnv backboneVariable⟩
  match readWords words environment with
  | .ok invocation => carryOut invocation
  | .error stop => do
    let ending := stop.ending {}
    IO.print ending.stdout
    return UInt32.ofNat ending.status

end Backbone.CommandLine.Host

/-- The program. -/
def main (words : List String) : IO UInt32 := Backbone.CommandLine.Host.perform words
