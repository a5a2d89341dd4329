import Backbone.Text.Lines
import Backbone.Fault
import Backbone.Dimacs.Line

/-!
# Reading a formula in DIMACS form

The text is read line by line; lines are counted from one, trimmed, and skipped if nothing is
left.  A line is refused if it is not understood to its end, if it is a second problem line, or if
it holds numbers before the problem line or a literal of an undeclared variable.  An end mark
stops the reading.

* `collect` — the problem line, the numbers and the names of the lines, in order;
* `clausesOf` — the clauses of a list of numbers: each zero ends one, and so does the end of the
  list if anything stands after the last zero;
* `read` — the formula of a text and the warnings about it, or what is wrong with its first
  refused line.
-/

namespace Backbone.Dimacs

/-! ### The lines of a text -/

/-- The lines that are not blank, trimmed, each with its number. -/
def numberedLines (text : List Char) : List (Nat × List Char) :=
  (((Text.lines text).map Text.trim).zipIdx 1).filterMap fun (line, number) =>
    if line.isEmpty then none else some (number, line)

/-- What a whole line holds. -/
def lexLine (line : List Char) : Except DimacsFlaw Line :=
  match Line.lex line with
  | none => .error (.unrecognized (String.ofList line))
  | some (token, []) => .ok token
  | some (_, rest) => .error (.leftover (String.ofList rest))

/-! ### The contents of a text -/

/-- What the lines of a text declare. -/
structure Contents where
  /-- The problem line. -/
  header : Header
  /-- The numbers of all clause lines: literals, and zeros that end clauses. -/
  numbers : List Int := []
  /-- The names given in comments. -/
  names : List (Nat × String) := []

/-- The first number that is a literal of no declared variable. -/
def undeclared? (header : Header) (numbers : List Int) : Option Int :=
  numbers.find? fun number => header.numVariables < number.natAbs

/-- What the lines declare, given the problem line read so far and the number of lines of the
text, or the first flaw and its line. -/
def collect (total : Nat) : Option Header → List (Nat × List Char) → Except Fault Contents
  | some header, [] => .ok { header }
  | none, [] => .error (.invalidDimacs total .noProblem)
  | header?, (number, line) :: rest =>
    let refuse (flaw : DimacsFlaw) : Except Fault Contents := .error (.invalidDimacs number flaw)
    match lexLine line, header? with
    | .error flaw, _ => refuse flaw
    | .ok .comment, _ => collect total header? rest
    | .ok (.name index name), _ =>
      (collect total header? rest).map fun contents =>
        { contents with names := (index, name) :: contents.names }
    | .ok (.problem header), none => collect total (some header) rest
    | .ok (.problem _), some _ => refuse .secondProblem
    | .ok (.numbers _), none => refuse .clauseBeforeProblem
    | .ok (.numbers values), some header =>
      match undeclared? header values with
      | some literal => refuse (.undeclaredLiteral literal header.numVariables)
      | none => (collect total header? rest).map fun contents =>
          { contents with numbers := values ++ contents.numbers }
    | .ok .stop, some header => .ok { header }
    | .ok .stop, none => .error (.invalidDimacs total .noProblem)

/-! ### The formula of the contents -/

/-- The clauses that end with a zero, and the literals after the last zero. -/
def splitClauses (numbers : List Int) : List Clause × Clause :=
  let pieces := numbers.splitOn 0
  (pieces.dropLast, pieces.getLast?.getD [])

/-- The clauses of a list of numbers, the last of which need not end with a zero. -/
def clausesOf (numbers : List Int) : List Clause :=
  let (closed, rest) := splitClauses numbers
  if rest = [] then closed else closed ++ [rest]

/-- A formula that was read, with the warnings about its text. -/
structure Reading where
  /-- The formula. -/
  formula : Formula
  /-- The warnings in order. -/
  warnings : List Warning

/-- The formula that the contents describe, and the warnings about them. -/
def Contents.reading (contents : Contents) : Reading :=
  let clauses := clausesOf contents.numbers
  let header := contents.header
  let (declared, undeclared) := contents.names.partition fun entry => header.declares entry.1
  { formula := ⟨header.numVariables, clauses, Names.ofList declared⟩
    warnings :=
      (if (splitClauses contents.numbers).2 = [] then [] else [.unterminatedClause]) ++
      (if clauses.length = header.numClauses then []
        else [.clauseCount header.numClauses clauses.length]) ++
      undeclared.map fun entry => .undeclaredName entry.2 entry.1 }

/-- The formula of a text and the warnings about it. -/
def read (text : List Char) : Except Fault Reading :=
  (collect (Text.lines text).length none (numberedLines text)).map Contents.reading

end Backbone.Dimacs

namespace Backbone

/-- The formula of a DIMACS text. -/
def Formula.ofDimacs (text : String) : Except Fault Formula :=
  (Dimacs.read text.toList).map Dimacs.Reading.formula

end Backbone
