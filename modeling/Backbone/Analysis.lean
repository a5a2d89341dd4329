import Backbone.Oracle.Dialogue

/-!
# Cores and solutions

The analyses that need one query.  The core under assumptions is the core of the formula with the
assumptions as unit clauses; an assumption on no variable of the formula is refused before
anything is asked.  A query that was not decided is a fault, never a negative answer.
-/

namespace Backbone.Analysis

/-- The result of a step that asks nothing. -/
def ofExcept {α : Type} (result : Except Fault α) : Analysis α := ExceptT.mk (.done result)

/-- The first assumption on no variable of the formula. -/
def foreignAssumption? (formula : Formula) (assumptions : List Literal) : Option Literal :=
  assumptions.find? fun assumption => !formula.declares assumption.var

theorem foreignAssumption?_eq_none_iff {formula : Formula} {assumptions : List Literal} :
    foreignAssumption? formula assumptions = none ↔
      ∀ assumption ∈ assumptions, formula.declares assumption.var = true := by
  simp [foreignAssumption?]

/-- The literals that hold in all solutions in which the assumptions hold. -/
def coreUnder (formula : Formula) (assumptions : List Literal) (timeout : Timeout) :
    Analysis (List Literal) :=
  match foreignAssumption? formula assumptions with
  | some assumption => throw (.unknownVariable (signedDecimal assumption))
  | none => core (formula.assume assumptions) timeout

/-- The literals that hold in all solutions. -/
def coreOf (formula : Formula) (timeout : Timeout) : Analysis (List Literal) :=
  coreUnder formula [] timeout

/-- A solution, or none if there is none. -/
def solution? (formula : Formula) (timeout : Timeout) : Analysis (Option (List Literal)) := do
  match ← solve formula timeout with
  | .satisfiable solution => return some solution
  | .unsatisfiable => return none
  | .indeterminate => throw .indeterminate

/-- Whether there is a solution. -/
def hasSolution (formula : Formula) (timeout : Timeout) : Analysis Bool := do
  return (← solution? formula timeout).isSome

end Backbone.Analysis
