import Backbone.Text.Csv
import Backbone.Text.JsonString
import Backbone.Fault
import Backbone.Formula

/-!
# Sets of literals and how they are shown

The result of an analysis is a list of sets of literals together with the variables and names of
the formula they are about.

* `LiteralSets.text` — a line for each set, its literals by name;
* `LiteralSets.csv` — a row for each set and a column for each variable, with a sign where the
  variable is in the set;
* `LiteralSets.json` — a list of lists of literals by name.
-/

namespace Backbone

/-- Sets of literals over the variables of a formula. -/
structure LiteralSets where
  /-- The sets in order. -/
  sets : List (List Literal)
  /-- The number of variables. -/
  numVariables : Nat
  /-- The names of variables. -/
  names : Names
deriving DecidableEq

/-- The forms in which results are shown. -/
inductive Format where
  | text
  | csv
  | json
deriving DecidableEq

namespace LiteralSets

/-- Sets of literals over the variables of the formula. -/
def ofFormula (formula : Formula) (sets : List (List Literal)) : LiteralSets :=
  ⟨sets, formula.numVariables, formula.names⟩

/-! ### Text -/

/-- The sets, each as the line of its literals by name. -/
def textLines (sets : LiteralSets) : List String := sets.sets.map sets.names.literalsLabel

/-- The lines of the sets, each with a newline after it. -/
def text (sets : LiteralSets) : String := String.join (sets.textLines.map (· ++ "\n"))

/-! ### Table -/

/-- The sign of a literal as a cell. -/
def signCell (literal : Literal) : List Char := if 0 < literal then ['+'] else ['-']

/-- The cell of a column: the sign of the last literal of the set on that number, or else the
given cell. -/
def cell (set : List Literal) (otherwise : List Char) (column : Nat) : List Char :=
  match set.reverse.find? fun literal => literal.var == column with
  | some literal => signCell literal
  | none => otherwise

/-- The header of the table: the title of the first column, then each variable. -/
def headerRow (sets : LiteralSets) : List (List Char) :=
  ['S', 'e', 't'] ::
    (List.range' 1 sets.numVariables).map fun index => (sets.names.label index).toList

/-- The row of a set: its position, then a cell for each variable. -/
def setRow (sets : LiteralSets) (set : List Literal) (position : Nat) : List (List Char) :=
  cell set (Text.natNumeral position) 0 ::
    (List.range' 1 sets.numVariables).map (cell set [])

/-- The rows of the table. -/
def rows (sets : LiteralSets) : List (List (List Char)) :=
  sets.headerRow :: sets.sets.zipIdx.map fun (set, position) => sets.setRow set position

/-- The table as separated values. -/
def csv (sets : LiteralSets) : String := String.ofList (Text.Csv.table sets.rows)

/-! ### JSON -/

/-- The sets as a JSON list of lists of literals by name. -/
def json (sets : LiteralSets) : String :=
  String.ofList <| Text.Json.list <| sets.sets.map fun set =>
    Text.Json.list <| set.map fun literal =>
      Text.Json.string (sets.names.literalLabel literal).toList

/-! ### Output -/

/-- The sets in a form, as a text of whole lines. -/
def render (sets : LiteralSets) : Format → String
  | .text => sets.text
  | .csv => sets.csv
  | .json => sets.json ++ "\n"

end LiteralSets

/-- A text put out where there is room for `limit` bytes, if a limit is given. -/
def putWithin (limit : Option Nat) (text : String) : Except Fault String :=
  if limit.all (text.utf8ByteSize ≤ ·) then .ok text else .error (.file .limitReached)

end Backbone
