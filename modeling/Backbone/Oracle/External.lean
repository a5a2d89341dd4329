import Backbone.Text.Blank
import Backbone.Text.Lines
import Backbone.Text.Utf8
import Backbone.Oracle.Basic
import Backbone.Dimacs.Writer

/-!
# The oracle that asks external programs

A solver and a backbone extractor are started on a temporary file with the formula in DIMACS form,
and the lines they print are read.

* `readSolution` — a status line, followed for a solution by lines of a tag and numbers, of which
  zeros are dropped;
* `readCore` — a line for each core literal, then the two trailer lines; a cut-off output is
  refused;
* `External.oracle` — the oracle, given a way to start programs.
-/

namespace Backbone.External

/-! ### Programs -/

/-- A program to start, with the text of the file whose path is its last argument. -/
structure Call where
  /-- The program's name or path. -/
  program : String
  /-- The arguments before the path of the file. -/
  arguments : List String
  /-- The text of the file. -/
  input : String
deriving DecidableEq

/-- What a program printed. -/
structure Output where
  /-- The bytes of its standard output. -/
  stdout : List UInt8 := []
  /-- The bytes of its standard error. -/
  stderr : List UInt8 := []

/-- Why a program printed nothing about a formula. -/
inductive LaunchFault where
  /-- The file for the formula could not be made or written. -/
  | unwritten (cause : FileFault)
  /-- The program could not be started on the file. -/
  | notStarted (cause : FileFault)
deriving DecidableEq

/-- The fault of the oracle.  An error with the file is passed on as it is; only a program that
cannot be started is named. -/
def LaunchFault.fault (program : String) : LaunchFault → Fault
  | .unwritten cause => .file cause
  | .notStarted cause => .unavailable (.notStarted program cause)

/-- A way to write files and to start programs on them, each of which prints its output. -/
abbrev Launcher (m : Type → Type) := Call → m (Except LaunchFault Output)

/-- The two programs that answer the two questions. -/
structure Programs where
  /-- Decides whether a formula has a solution. -/
  solver : String := "cadical"
  /-- Extracts the core. -/
  backbone : String := "cadiback"
deriving DecidableEq

/-! ### Reading the output -/

/-- One line of output. -/
abbrev OutputLine := List Char

/-- The status of a formula with a solution. -/
def satisfiableLine : OutputLine := "s SATISFIABLE".toList

/-- The status of a formula without solutions. -/
def unsatisfiableLine : OutputLine := "s UNSATISFIABLE".toList

/-- The status of a formula that was not decided. -/
def unknownLine : OutputLine := "c UNKNOWN".toList

/-- The fault of an output that cannot be read; it carries all lines. -/
def malformed (flaw : OutputFlaw) (lines : List OutputLine) : Fault :=
  .malformedOutput flaw (String.ofList (['\n'].intercalate lines))

/-- The numbers of a list of words, or the first word that is none. -/
def readLiterals : List (List Char) → Except OutputFlaw (List Literal)
  | [] => .ok []
  | word :: words =>
    match Text.readSigned? word with
    | none => .error (.notLiteral (String.ofList word))
    | some literal => (readLiterals words).map (literal :: ·)

/-- The words of the lines that hold a solution: the first of each line is its tag. -/
def solutionWords (lines : List OutputLine) : List (List Char) :=
  lines.flatMap fun line => (Text.words line).drop 1

/-- The answer in the output of a solver. -/
def readSolution (lines : List OutputLine) : Except Fault Verdict :=
  match lines with
  | [] => .error (malformed .empty lines)
  | status :: values =>
    if status = satisfiableLine then
      if values = [] then .error (malformed .noSolution lines)
      else
        match readLiterals (solutionWords values) with
        | .error flaw => .error (malformed flaw lines)
        | .ok literals => .ok (.satisfiable (literals.filter (· != 0)))
    else if status = unsatisfiableLine then .ok .unsatisfiable
    else if status = unknownLine then .ok .indeterminate
    else .error (malformed .unknownStatus lines)

/-- The literal of a core line: the letter, a space and a nonzero number among blanks. -/
def readCoreLine? : OutputLine → Option Literal
  | 'b' :: ' ' :: rest => (Text.readSigned? (Text.trim rest)).filter (· != 0)
  | _ => none

/-- The literals of the core lines, or the first line that is none. -/
def readCoreLines : List OutputLine → Except OutputFlaw (List Literal)
  | [] => .ok []
  | line :: lines =>
    match readCoreLine? line with
    | none => .error (.notCoreLiteral (String.ofList line))
    | some literal => (readCoreLines lines).map (literal :: ·)

/-- Whether the two lines end a core. -/
def isTrailer (terminator status : OutputLine) : Bool :=
  Text.trim terminator == ['b', ' ', '0'] && ['s', ' '].isPrefixOf status

/-- The lines before the two trailer lines, or what is wrong with the end of the output. -/
def coreLines (lines : List OutputLine) : Except OutputFlaw (List OutputLine) :=
  match lines.reverse with
  | status :: terminator :: literals =>
    if isTrailer terminator status then .ok literals.reverse else .error .unterminated
  | _ => .error .noTrailer

/-- The core in the output of a backbone extractor. -/
def readCore (lines : List OutputLine) : Except Fault (List Literal) :=
  if lines = [] then .error (malformed .empty lines)
  else if unsatisfiableLine ∈ lines then .error .unsatisfiable
  else if unknownLine ∈ lines then .error .indeterminate
  else
    match coreLines lines >>= readCoreLines with
    | .error flaw => .error (malformed flaw lines)
    | .ok literals => .ok literals

/-! ### The oracle -/

/-- The lines that a program printed; a complaint and nothing else is a fault. -/
def Output.lines (output : Output) (program : String) : Except Fault (List OutputLine) :=
  let lines := Text.lines (Text.decodeLossy output.stdout)
  if lines.isEmpty && !output.stderr.isEmpty then
    .error (.unavailable
      (.complained program (String.ofList (Text.trim (Text.decodeLossy output.stderr)))))
  else .ok lines

/-- The lines that a program prints about a formula. -/
def outputLines {m : Type → Type} [Monad m] (launch : Launcher m) (program : String)
    (arguments : List String) (formula : Formula) : m (Except Fault (List OutputLine)) := do
  match ← launch ⟨program, arguments, formula.dimacs⟩ with
  | .error cause => return .error (cause.fault program)
  | .ok output => return output.lines program

/-- The arguments of the solver.  The time limit is rounded down to seconds, but to no less than
one. -/
def solverArguments (timeout : Timeout) : List String :=
  ["--sat", "-q"] ++
    if timeout = 0 then [] else ["-t", decimal (max 1 (timeout / 1000))]

/-- The arguments of the backbone extractor, which has no time limit. -/
def backboneArguments : List String := ["-q"]

/-- The oracle that asks the two programs. -/
def oracle {m : Type → Type} [Monad m] (programs : Programs) (launch : Launcher m) :
    Oracle m where
  core formula _ := do
    return (← outputLines launch programs.backbone backboneArguments formula) >>= readCore
  solve formula timeout := do
    return (← outputLines launch programs.solver (solverArguments timeout) formula) >>=
      readSolution

end Backbone.External
