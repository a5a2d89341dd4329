import Backbone.Formula

/-!
# Writing a formula in DIMACS form

First the names as comments, ascending by variable, then the problem line, then a line for each
clause: its literals, each with a space after it, and a zero.
-/

namespace Backbone.Dimacs

/-- The comment that names a variable. -/
def nameLine (entry : Nat × String) : List Char :=
  'c' :: ' ' :: (Text.natNumeral entry.1 ++ ' ' :: entry.2.toList)

/-- The problem line. -/
def problemLine (header : Header) : List Char :=
  ['p', ' ', 'c', 'n', 'f', ' '] ++ Text.natNumeral header.numVariables ++
    ' ' :: Text.natNumeral header.numClauses

/-- The line of a clause. -/
def clauseLine (clause : Clause) : List Char :=
  clause.flatMap (fun literal => Text.intNumeral literal ++ [' ']) ++ ['0']

/-- The lines of a formula. -/
def formulaLines (formula : Formula) : List (List Char) :=
  formula.names.entries.map nameLine ++ problemLine formula.header ::
    formula.clauses.map clauseLine

/-- The text of a formula: each of its lines with a newline after it. -/
def write (formula : Formula) : List Char :=
  (formulaLines formula).flatMap fun line => line ++ ['\n']

end Backbone.Dimacs

namespace Backbone

/-- The problem line as a string. -/
def Header.dimacs (header : Header) : String := String.ofList (Dimacs.problemLine header)

/-- The formula in DIMACS form as a string. -/
def Formula.dimacs (formula : Formula) : String := String.ofList (Dimacs.write formula)

end Backbone
