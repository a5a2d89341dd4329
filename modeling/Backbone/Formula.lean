import Backbone.Names

/-!
# Formulas in conjunctive normal form

A formula fixes a number of variables, which are the numbers from `1` up to it, a list of clauses
and names for some variables.  Clauses keep their order; the last one can be taken off again.

* `Formula.push`, `Formula.pop?` — add and remove a last clause;
* `Formula.assume` — add literals as unit clauses;
* `Formula.declares`, `Formula.vars` — the variables as a test and as a list, with `mem_vars` and
  `pairwise_vars`;
* `Formula.isSatisfiedBy` — whether a list of literals meets every clause.
-/

namespace Backbone

/-- The numbers of variables and clauses that a problem line declares. -/
structure Header where
  /-- The number of variables. -/
  numVariables : Nat
  /-- The number of clauses. -/
  numClauses : Nat
deriving DecidableEq

/-- Whether a number is one of the declared variables. -/
def Header.declares (header : Header) (index : Nat) : Bool :=
  1 ≤ index && index ≤ header.numVariables

/-- Clauses over the variables from `1` to `numVariables`. -/
structure Formula where
  /-- The number of variables. -/
  numVariables : Nat
  /-- The clauses in order. -/
  clauses : List Clause := []
  /-- Names of variables. -/
  names : Names := .empty
deriving DecidableEq, Inhabited

namespace Formula

/-! ### Building formulas -/

/-- A formula without solutions. -/
def unsatisfiable : Formula := ⟨1, [[1], [-1]], .empty⟩

/-- The formula of the clauses over the variables up to the largest that occurs. -/
def ofClauses (clauses : List Clause) : Formula where
  numVariables := (clauses.flatMap Literals.vars).foldl max 0
  clauses := clauses

/-- The formula with one more clause at the end. -/
def push (formula : Formula) (clause : Clause) : Formula :=
  { formula with clauses := formula.clauses ++ [clause] }

/-- The last clause and the formula without it. -/
def pop? (formula : Formula) : Option (Clause × Formula) :=
  formula.clauses.getLast?.map fun clause =>
    (clause, { formula with clauses := formula.clauses.dropLast })

/-- The formula together with the literals as unit clauses, in their order. -/
def assume (formula : Formula) (literals : List Literal) : Formula :=
  { formula with clauses := formula.clauses ++ literals.map fun literal => [literal] }

/-- The formula with a variable named. -/
def named (formula : Formula) (index : Nat) (name : String) : Formula :=
  { formula with names := formula.names.insert index name }

@[simp]
theorem pop?_push (formula : Formula) (clause : Clause) :
    (formula.push clause).pop? = some (clause, formula) := by
  simp [push, pop?]

@[simp]
theorem assume_nil (formula : Formula) : formula.assume [] = formula := by
  simp [assume]

theorem assume_cons (formula : Formula) (literal : Literal) (literals : List Literal) :
    formula.assume (literal :: literals) = (formula.push [literal]).assume literals := by
  simp [assume, push]

/-! ### Reading a formula off -/

/-- The problem line that describes the formula. -/
def header (formula : Formula) : Header := ⟨formula.numVariables, formula.clauses.length⟩

/-- The variables in ascending order. -/
def vars (formula : Formula) : List Nat := List.range' 1 formula.numVariables

/-- Whether a number is a variable of the formula. -/
def declares (formula : Formula) (index : Nat) : Bool := formula.header.declares index

theorem declares_iff {formula : Formula} {index : Nat} :
    formula.declares index = true ↔ 1 ≤ index ∧ index ≤ formula.numVariables := by
  rw [declares, Header.declares, Bool.and_eq_true, decide_eq_true_eq, decide_eq_true_eq]
  rfl

theorem ne_zero_of_declares {formula : Formula} {literal : Literal}
    (declared : formula.declares literal.var = true) : literal ≠ 0 := by
  rw [declares_iff] at declared
  exact Int.natAbs_pos.1 declared.1

theorem mem_vars {formula : Formula} {index : Nat} :
    index ∈ formula.vars ↔ formula.declares index = true := by
  rw [vars, List.mem_range'_1, declares_iff]
  omega

theorem pairwise_vars (formula : Formula) : formula.vars.Pairwise (· < ·) :=
  List.pairwise_lt_range' _

theorem nodup_vars (formula : Formula) : formula.vars.Nodup :=
  List.nodup_range'

@[simp]
theorem declares_assume (formula : Formula) (literals : List Literal) (index : Nat) :
    (formula.assume literals).declares index = formula.declares index := rfl

/-- Whether each clause has a literal among the given ones. -/
def isSatisfiedBy (formula : Formula) (literals : List Literal) : Bool :=
  formula.clauses.all fun clause => clause.any literals.contains

end Formula

end Backbone
