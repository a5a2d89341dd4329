import Backbone.Fault
import Backbone.Formula

/-!
# Oracles

An oracle answers two questions about a formula: whether it has a solution, and which literals
hold in all of its solutions.  The latter are its *core*.  An answer may be a fault, and it is
given in some monad, so that an oracle may keep a state, run programs or look at a clock.
-/

namespace Backbone

/-- A time limit in milliseconds; zero means none. -/
abbrev Timeout := Nat

/-- The answer to whether a formula has a solution. -/
inductive Verdict where
  /-- The literals make up a solution. -/
  | satisfiable (solution : List Literal)
  | unsatisfiable
  /-- The time limit came before an answer. -/
  | indeterminate
deriving DecidableEq

/-- The two questions. -/
inductive Question where
  | core
  | solve
deriving DecidableEq

/-- A question about a formula. -/
structure Query where
  /-- What is asked. -/
  question : Question
  /-- The formula it is asked about. -/
  formula : Formula
  /-- The time limit. -/
  timeout : Timeout
deriving DecidableEq

/-- Something that answers queries. -/
structure Oracle (m : Type → Type) where
  /-- The literals that hold in all solutions of the formula. -/
  core (formula : Formula) (timeout : Timeout) : m (Except Fault (List Literal))
  /-- Whether the formula has a solution, and one if so. -/
  solve (formula : Formula) (timeout : Timeout) : m (Except Fault Verdict)

end Backbone
