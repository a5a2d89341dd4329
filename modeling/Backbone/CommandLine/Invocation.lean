import Backbone.Oracle.External
import Backbone.LiteralSets

/-!
# Invocations

What a command line asks for: a task, where the formula comes from, where the result goes and in
which form, and which oracle answers within which time.

Options may stand before the task or among its own options.  `Settings` holds those of one of the
two places; an option given in both counts as in the later one.
-/

namespace Backbone.CommandLine

/-! ### Options -/

/-- Which oracle answers. -/
inductive OracleChoice where
  | external
  | enumeration
deriving DecidableEq

/-- The options that take one value. -/
inductive Setting where
  | input
  | output
  | timeout
  | oracle
  | solver
  | backbone
  | format
deriving DecidableEq

/-- The values given in one place. -/
structure Settings where
  /-- The path of the formula. -/
  input : Option String := none
  /-- The path of the result. -/
  output : Option String := none
  /-- The time limit of each query in seconds. -/
  timeout : Option Nat := none
  /-- The oracle. -/
  oracle : Option OracleChoice := none
  /-- The solver. -/
  solver : Option String := none
  /-- The backbone extractor. -/
  backbone : Option String := none
  /-- The form of the result. -/
  format : Option Format := none
deriving DecidableEq

/-- The oracle of a word. -/
def OracleChoice.ofWord? : String → Option OracleChoice
  | "cadical" => some .external
  | "enumeration" => some .enumeration
  | _ => none

/-- The form of a word. -/
def formatOfWord? : String → Option Format
  | "text" => some .text
  | "csv" => some .csv
  | "json" => some .json
  | _ => none

/-- A path, which is not empty. -/
def pathOfWord? (word : String) : Option String := if word = "" then none else some word

/-- The new value of an option that has no value yet. -/
def once {α : Type} (old new : Option α) : Option (Option α) :=
  if old.isSome then none else new.map some

/-- The settings with one more value.  A second value and a value of the wrong form are refused. -/
def Settings.put? (settings : Settings) (setting : Setting) (word : String) : Option Settings :=
  match setting with
  | .input => (once settings.input (pathOfWord? word)).map ({ settings with input := · })
  | .output => (once settings.output (pathOfWord? word)).map ({ settings with output := · })
  | .timeout =>
    (once settings.timeout (Text.readUnsigned? word.toList)).map ({ settings with timeout := · })
  | .oracle => (once settings.oracle (OracleChoice.ofWord? word)).map ({ settings with oracle := · })
  | .solver => (once settings.solver (pathOfWord? word)).map ({ settings with solver := · })
  | .backbone => (once settings.backbone (pathOfWord? word)).map ({ settings with backbone := · })
  | .format => (once settings.format (formatOfWord? word)).map ({ settings with format := · })

/-- The values given in the inner place, and those of the outer one where it gives none. -/
def Settings.within (inner outer : Settings) : Settings where
  input := inner.input.or outer.input
  output := inner.output.or outer.output
  timeout := inner.timeout.or outer.timeout
  oracle := inner.oracle.or outer.oracle
  solver := inner.solver.or outer.solver
  backbone := inner.backbone.or outer.backbone
  format := inner.format.or outer.format

/-! ### Tasks -/

/-- What is to be done, with the words that denote variables or literals still as given. -/
inductive Task where
  /-- The core and the atomic sets, of all variables if no words are given. -/
  | atomicSets (omitSingles omitCore : Bool) (targets : List String)
  /-- The core under assumptions. -/
  | core (assumptions : List String)
  /-- A solution, or that there is none. -/
  | solution
  /-- Whether there is a solution. -/
  | hasSolution
deriving DecidableEq

/-- The task of a word, before any options of its own. -/
def Task.ofWord? : String → Option Task
  | "atomic-sets" => some (.atomicSets false false [])
  | "core" => some (.core [])
  | "solution" => some .solution
  | "has-solution" => some .hasSolution
  | _ => none

/-- A complete order. -/
structure Invocation where
  /-- What is to be done. -/
  task : Task
  /-- The path of the formula; it is read from the standard input if there is none. -/
  input : Option String := none
  /-- The path of the result; it goes to the standard output if there is none. -/
  output : Option String := none
  /-- The time limit of each query in seconds, none if zero. -/
  timeout : Nat := 0
  /-- The oracle. -/
  oracle : OracleChoice := .external
  /-- The programs of the external oracle. -/
  programs : External.Programs := {}
  /-- The form of the result. -/
  format : Format := .text
deriving DecidableEq

/-- The order of a task under settings, with defaults for what they leave open. -/
def Invocation.ofSettings (task : Task) (settings : Settings) : Invocation where
  task := task
  input := settings.input
  output := settings.output
  timeout := settings.timeout.getD 0
  oracle := settings.oracle.getD .external
  programs :=
    let default : External.Programs := {}
    ⟨settings.solver.getD default.solver, settings.backbone.getD default.backbone⟩
  format := settings.format.getD .text

end Backbone.CommandLine
