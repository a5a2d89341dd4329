import Backbone.AtomicSets
import Backbone.CommandLine.Arguments
import Backbone.CommandLine.Files
import Backbone.Dimacs.Reader
import Backbone.Oracle.Enumeration

/-!
# Running a command line

An invocation is carried out in a fixed order: the formula is read, the words are resolved, the
task is done, and only then is the output opened and written.  So a fault in any of the steps
leaves the output as it was.

* `resolveVariable`, `resolveLiteral` — what a word denotes;
* `Task.analysis` — the task as an analysis of a formula;
* `Invocation.analysis` — from the text of the formula to the text of the result;
* `run` — a whole command line, from its words to its exit status.
-/

namespace Backbone.CommandLine

/-! ### Words -/

/-- The variable of a word: by name, else by number. -/
def resolveVariable (names : Names) (word : String) : Except Fault Nat :=
  match names.resolve? word with
  | some index => .ok index
  | none => .error (.unknownVariable word)

/-- The literal of a word.  A name counts as a whole first, since it may itself start with a minus
sign; otherwise a leading minus sign negates the variable of the rest. -/
def resolveLiteral (names : Names) (word : String) : Except Fault Literal :=
  match names.index? word with
  | some index => .ok (Literal.ofIndex index)
  | none =>
    match word.toList with
    | '-' :: rest => (resolveVariable names (String.ofList rest)).map fun index =>
        (Literal.ofIndex index).negate
    | _ => (resolveVariable names word).map Literal.ofIndex

/-! ### Tasks -/

/-- The result of a task. -/
inductive Outcome where
  | found (sets : LiteralSets)
  | flag (value : Bool)
deriving DecidableEq

/-- The result in a form.  A flag looks the same in all of them. -/
def Outcome.render (format : Format) : Outcome → String
  | .found sets => sets.render format
  | .flag true => "true\n"
  | .flag false => "false\n"

/-- The task as an analysis of the formula. -/
def Task.analysis (formula : Formula) (timeout : Timeout) : Task → Analysis Outcome
  | .atomicSets omitSingles omitCore words => do
    let interest ← Analysis.ofExcept (words.mapM (resolveVariable formula.names))
    let request : AtomicSets.Request := { interest, omitCore, omitSingles, timeout }
    return .found (← request.compute formula)
  | .core words => do
    let assumptions ← Analysis.ofExcept (words.mapM (resolveLiteral formula.names))
    let core ← Analysis.coreUnder formula assumptions timeout
    return .found (.ofFormula formula [core])
  | .solution => do
    match ← Analysis.solution? formula timeout with
    | some literals => return .found (.ofFormula formula [literals])
    | none => return .flag false
  | .hasSolution => do
    return .flag (← Analysis.hasSolution formula timeout)

/-! ### Invocations -/

/-- The analysis of a whole invocation, from the text of the formula to the text of the result. -/
def Invocation.analysis (invocation : Invocation) (input : Except Fault String) :
    Analysis String := do
  let formula ← Analysis.ofExcept (input >>= Formula.ofDimacs)
  let outcome ← invocation.task.analysis formula (invocation.timeout * 1000)
  return outcome.render invocation.format

/-- The oracle that the invocation chooses. -/
def Invocation.oracleIn {m : Type → Type} [Monad m] (invocation : Invocation)
    (stopwatch : Enumeration.Stopwatch m) (launch : External.Launcher m) : Oracle m :=
  match invocation.oracle with
  | .external => External.oracle invocation.programs launch
  | .enumeration => Enumeration.oracle Enumeration.defaultLimit stopwatch

/-- The text of the formula.  The standard input can be named as a file, too. -/
def Invocation.inputText (invocation : Invocation) (files : Files) (stdin : String) :
    Except Fault String :=
  match invocation.input with
  | none => .ok stdin
  | some path => ((files.put standardInput stdin).read path).mapError .file

/-! ### Command lines -/

/-- How a command line ended. -/
structure Ending where
  /-- The exit status: zero if all went well, one after a fault, two for refused words. -/
  status : Nat
  /-- What was printed to the standard output. -/
  stdout : String := ""
  /-- What was printed to the standard error about a fault. -/
  stderr : String := ""
  /-- The files afterwards. -/
  files : Files
deriving DecidableEq

/-- The name and version of the program. -/
def versionLine : String := "cadife 0.1.0\n"

/-- The ending of words that make no invocation. -/
def Stop.ending (files : Files) : Stop → Ending
  | .refused => { status := 2, files }
  | .version => { status := 0, stdout := versionLine, files }
  | .help => { status := 0, files }

/-- The ending after a fault. -/
def faultEnding (files : Files) (fault : Fault) : Ending :=
  { status := 1, stderr := fault.message ++ "\n", files }

/-- The ending of an invocation whose analysis gave a result or a fault. -/
def Invocation.conclude (invocation : Invocation) (files : Files) :
    Except Fault String → Ending
  | .error fault => faultEnding files fault
  | .ok result =>
    match invocation.output with
    | none => { status := 0, stdout := result, files }
    | some path =>
      match files.write path result with
      | .ok files => { status := 0, stdout := files.printed, files }
      | .error cause => faultEnding files (.file cause)

/-- Carry out an invocation. -/
def Invocation.run {m : Type → Type} [Monad m] (invocation : Invocation)
    (stopwatch : Enumeration.Stopwatch m) (launch : External.Launcher m) (files : Files)
    (stdin : String) : m Ending := do
  let dialogue := (invocation.analysis (invocation.inputText files stdin)).run
  let held ← Dialogue.run (invocation.oracleIn stopwatch launch) dialogue
  return invocation.conclude files held.result

/-- Carry out a command line. -/
def run {m : Type → Type} [Monad m] (words : List String) (environment : Environment)
    (stopwatch : Enumeration.Stopwatch m) (launch : External.Launcher m) (files : Files)
    (stdin : String) : m Ending :=
  match readWords words environment with
  | .error stop => return stop.ending files
  | .ok invocation => invocation.run stopwatch launch files stdin

end Backbone.CommandLine
