import Backbone.Literal

/-!
# Faults and warnings

Everything that can stop an analysis is a `Fault`: a cause with the data that its wording needs.
The wording is in the `message` functions and nowhere else.  A `Warning` stops nothing.
-/

namespace Backbone

/-! ### Causes -/

/-- Why a file cannot be read, written or started. -/
inductive FileFault where
  | missing
  | denied
  | notDirectory
  | isDirectory
  | nameTooLong
  /-- A text with a NUL character cannot be handed to the host. -/
  | holdsNul
  | unsupported
  | undecodable
  | limitReached
  /-- An error in words of the host's own, such as one with the path of a temporary file. -/
  | reported (wording : String)
deriving DecidableEq

/-- Why an oracle gives no answer at all. -/
inductive Unavailable where
  /-- The formula has more variables than can be enumerated. -/
  | tooManyVariables (limit actual : Nat)
  /-- The program could not be started. -/
  | notStarted (program : String) (cause : FileFault)
  /-- The program printed nothing but a complaint. -/
  | complained (program : String) (complaint : String)
  /-- The oracle refuses for a reason of its own. -/
  | refused (reason : String)
deriving DecidableEq

/-- What is wrong with the output of a solver. -/
inductive OutputFlaw where
  | empty
  | noSolution
  | unknownStatus
  | notLiteral (word : String)
  | noTrailer
  | unterminated
  | notCoreLiteral (line : String)
deriving DecidableEq

/-- What is wrong with a line of a DIMACS text. -/
inductive DimacsFlaw where
  /-- The line goes on after what could be understood. -/
  | leftover (rest : String)
  | unrecognized (line : String)
  | secondProblem
  | clauseBeforeProblem
  | undeclaredLiteral (literal : Literal) (numVariables : Nat)
  | noProblem
deriving DecidableEq

/-- Why an analysis stops. -/
inductive Fault where
  | unavailable (cause : Unavailable)
  | malformedOutput (flaw : OutputFlaw) (output : String)
  | indeterminate
  | unsatisfiable
  | underflow
  /-- The word denotes no variable of the formula. -/
  | unknownVariable (word : String)
  | invalidDimacs (line : Nat) (flaw : DimacsFlaw)
  | file (cause : FileFault)
deriving DecidableEq

/-- What deserves attention without stopping anything. -/
inductive Warning where
  | unterminatedClause
  | clauseCount (declared actual : Nat)
  | undeclaredName (name : String) (index : Nat)
  /-- The cores under a literal and under its negation flip no literal. -/
  | nothingShared (literal : Literal)
deriving DecidableEq

/-! ### Wording -/

/-- The numeral of a natural number as a string. -/
def decimal (n : Nat) : String := String.ofList (Text.natNumeral n)

/-- The numeral of an integer as a string. -/
def signedDecimal (n : Int) : String := String.ofList (Text.intNumeral n)

/-- The wording of a fault of the file system. -/
def FileFault.message : FileFault → String
  | .missing => "No such file or directory (os error 2)"
  | .denied => "Permission denied (os error 13)"
  | .notDirectory => "Not a directory (os error 20)"
  | .isDirectory => "Is a directory (os error 21)"
  | .nameTooLong => "File name too long (os error 36)"
  | .holdsNul => "nul byte found in provided data"
  | .unsupported => "Operation not supported (os error 95)"
  | .undecodable => "stream did not contain valid UTF-8"
  | .limitReached => "limit reached"
  | .reported wording => wording

/-- The wording of why an oracle gives no answer. -/
def Unavailable.message : Unavailable → String
  | .tooManyVariables limit actual =>
    "enumeration is limited to " ++ decimal limit ++ " variables, the formula has " ++
      decimal actual
  | .notStarted program cause => program ++ ": " ++ cause.message
  | .complained program complaint => program ++ ": " ++ complaint
  | .refused reason => reason

/-- The wording of a flaw in the output of a solver. -/
def OutputFlaw.message : OutputFlaw → String
  | .empty => "no output from solver"
  | .noSolution => "solver did not provide a solution"
  | .unknownStatus => "unknown status line"
  | .notLiteral word => "'" ++ word ++ "' is not a literal"
  | .noTrailer => "missing trailer lines"
  | .unterminated => "core is not terminated by 'b 0' and a status line"
  | .notCoreLiteral line => "'" ++ line ++ "' is not a core literal"

/-- The wording of a flaw in a DIMACS text. -/
def DimacsFlaw.message : DimacsFlaw → String
  | .leftover rest => "unexpected '" ++ rest ++ "'"
  | .unrecognized line => "unrecognized line '" ++ line ++ "'"
  | .secondProblem => "duplicate problem line"
  | .clauseBeforeProblem => "clause before the problem line"
  | .undeclaredLiteral literal numVariables =>
    "literal " ++ signedDecimal literal ++ " exceeds the " ++ decimal numVariables ++
      " declared variables"
  | .noProblem => "missing problem line"

/-- The wording of a fault. -/
def Fault.message : Fault → String
  | .unavailable cause => "the SAT oracle could not be invoked: " ++ cause.message
  | .malformedOutput flaw output =>
    "could not parse the oracle output (" ++ flaw.message ++ "):\n" ++ output
  | .indeterminate => "the oracle could not decide the formula within the timeout"
  | .unsatisfiable => "the formula is unsatisfiable"
  | .underflow => "retracted more clauses than were appended"
  | .unknownVariable word => "the variable " ++ word ++ " is not part of the formula"
  | .invalidDimacs line flaw => "invalid DIMACS in line " ++ decimal line ++ ": " ++ flaw.message
  | .file cause => cause.message

/-- The wording of a warning. -/
def Warning.message : Warning → String
  | .unterminatedClause => "The last clause is not terminated by 0. We accept it nonetheless."
  | .clauseCount declared actual =>
    "The problem line declares " ++ decimal declared ++ " clauses, but the formula contains " ++
      decimal actual ++ "."
  | .undeclaredName name index =>
    "Ignoring the name '" ++ name ++ "' of the undeclared variable " ++ decimal index ++ "."
  | .nothingShared literal =>
    "The cores under " ++ signedDecimal literal ++ " and " ++ signedDecimal literal.negate ++
      " share no flipped literal."

end Backbone
