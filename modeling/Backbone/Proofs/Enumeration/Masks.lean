import Backbone.Oracle.Enumeration
import Backbone.Semantics
import Mathlib.Algebra.Group.Nat.Defs
import Mathlib.Data.List.Nodup
import Mathlib.Data.Nat.Init

/-!
# Masks and solutions

A mask of `n` bits stands for the valuation that makes the variables above `n` false.  Up to the
value of the number zero, which is no variable, the masks below `2 ^ n` are exactly the valuations
of this kind, so a search through the masks misses no solution.

* `IsConfinedSolution` — a solution that makes all variables beyond the formula's own false;
* `clauses_congr` — what is known of the literals that occur decides which clauses are met;
* `satisfiable_iff_confined`, `entails_iff_confined` — other solutions add nothing if the clauses
  mention only variables of the formula;
* `exists_confined_iff`, `forall_confined_iff` — what holds of the accepted masks holds of the
  confined solutions;
* `satisfiable_iff_accepts` — there is a solution if and only if a mask is accepted;
* `mem_solutionOf`, `pairwise_solutionOf` — a mask as an ascending list of literals.
-/

namespace Backbone

theorem Valuation.holds_congr {v w : Valuation} {literal : Literal}
    (same : v literal.var = w literal.var) : v.Holds literal ↔ w.Holds literal := by
  rw [Holds, Holds, same]

/-- The valuation with all variables above the bound made false. -/
def Valuation.confine (valuation : Valuation) (bound : Nat) : Valuation :=
  fun index => decide (index ≤ bound) && valuation index

theorem Valuation.confine_of_le (valuation : Valuation) {bound index : Nat} (h : index ≤ bound) :
    valuation.confine bound index = valuation index := by
  rw [confine, decide_eq_true h, Bool.true_and]

namespace Formula

variable {formula : Formula}

/-- The clauses hold no zero and no variable above the bound. -/
def LiteralsWithin (formula : Formula) (bound : Nat) : Prop :=
  ∀ clause ∈ formula.clauses, ∀ literal ∈ clause, literal ≠ 0 ∧ literal.var ≤ bound

instance (formula : Formula) (bound : Nat) : Decidable (formula.LiteralsWithin bound) :=
  inferInstanceAs (Decidable (∀ clause ∈ formula.clauses, ∀ literal ∈ clause, _ ∧ _))

/-- A solution in which all variables beyond the formula's own are false. -/
def IsConfinedSolution (formula : Formula) (valuation : Valuation) : Prop :=
  formula.IsSolution valuation ∧
    ∀ index, formula.numVariables < index → valuation index = false

/-- Two properties of literals that agree on those that occur meet the same clauses. -/
theorem clauses_congr {P Q : Literal → Prop}
    (same : ∀ clause ∈ formula.clauses, ∀ literal ∈ clause, (P literal ↔ Q literal)) :
    (∀ clause ∈ formula.clauses, ∃ literal ∈ clause, P literal) ↔
      ∀ clause ∈ formula.clauses, ∃ literal ∈ clause, Q literal := by
  refine forall_congr' fun clause => forall_congr' fun inside => ?_
  exact exists_congr fun literal => and_congr_right (same clause inside literal)

theorem IsSolution.congr {v w : Valuation}
    (same : ∀ clause ∈ formula.clauses, ∀ literal ∈ clause, v literal.var = w literal.var)
    (solution : formula.IsSolution v) : formula.IsSolution w := by
  refine (clauses_congr ?_).1 solution
  intro clause inside literal member
  exact Valuation.holds_congr (same clause inside literal member)

theorem WellFormed.literalsWithin (wellFormed : formula.WellFormed) :
    formula.LiteralsWithin formula.numVariables := by
  intro clause inside literal member
  have declared := wellFormed clause inside literal member
  exact ⟨ne_zero_of_declares declared, (declares_iff.1 declared).2⟩

/-! ### Confinement -/

theorem IsSolution.confine (wellFormed : formula.WellFormed) {valuation : Valuation}
    (solution : formula.IsSolution valuation) :
    formula.IsConfinedSolution (valuation.confine formula.numVariables) := by
  constructor
  · apply solution.congr
    intro clause inside literal member
    have small := (wellFormed.literalsWithin clause inside literal member).2
    exact (valuation.confine_of_le small).symm
  · intro index above
    rw [Valuation.confine, decide_eq_false (by omega), Bool.false_and]

theorem satisfiable_iff_confined (wellFormed : formula.WellFormed) :
    formula.Satisfiable ↔ ∃ valuation, formula.IsConfinedSolution valuation := by
  constructor
  · intro given
    obtain ⟨valuation, solution⟩ := given
    exact ⟨_, solution.confine wellFormed⟩
  · intro given
    obtain ⟨valuation, solution, -⟩ := given
    exact ⟨valuation, solution⟩

theorem entails_iff_confined (wellFormed : formula.WellFormed) {literal : Literal}
    (declared : formula.declares literal.var = true) :
    formula.Entails literal ↔
      ∀ valuation, formula.IsConfinedSolution valuation → valuation.Holds literal := by
  constructor
  · intro entails valuation solution
    exact entails valuation solution.1
  · intro confined valuation solution
    rw [declares_iff] at declared
    have same := valuation.confine_of_le declared.2
    exact (Valuation.holds_congr same).1 (confined _ (solution.confine wellFormed))

end Formula

/-! ### Masks -/

namespace Enumeration

variable {formula : Formula} {mask : Nat}

/-- The valuation that a mask stands for. -/
def valuationOf (mask : Nat) : Valuation := fun index => mask.testBit (index - 1)

theorem holdsIn_iff {literal : Literal} (nonzero : literal ≠ 0) :
    holdsIn mask literal = true ↔ (valuationOf mask).Holds literal := by
  rw [holdsIn, beq_iff_eq, Valuation.Holds, valuationOf]
  exact (and_iff_right nonzero).symm

theorem accepts_iff {bound : Nat} (within : formula.LiteralsWithin bound) :
    accepts formula mask = true ↔ formula.IsSolution (valuationOf mask) := by
  simp only [accepts, List.all_eq_true, List.any_eq_true]
  refine Formula.clauses_congr ?_
  intro clause inside literal member
  exact holdsIn_iff (within clause inside literal member).1

theorem valuationOf_above {n index : Nat} (small : mask < 2 ^ n) (above : n < index) :
    valuationOf mask index = false := by
  apply Nat.testBit_lt_two_pow
  calc mask < 2 ^ n := small
    _ ≤ 2 ^ (index - 1) := Nat.pow_le_pow_right (by decide) (by omega)

/-- Every valuation that is false above `n` is that of a mask below `2 ^ n`. -/
theorem exists_mask {valuation : Valuation} {n : Nat}
    (confined : ∀ index, n < index → valuation index = false) :
    ∃ mask < 2 ^ n, ∀ index, 1 ≤ index → valuationOf mask index = valuation index := by
  refine ⟨Nat.ofBits fun i : Fin n => valuation (i + 1), Nat.ofBits_lt_two_pow _, ?_⟩
  intro index positive
  by_cases inside : index ≤ n
  · rw [valuationOf, Nat.testBit_ofBits_lt _ _ (by omega)]
    show valuation (index - 1 + 1) = valuation index
    rw [Nat.sub_add_cancel positive]
  · rw [confined index (by omega)]
    exact valuationOf_above (Nat.ofBits_lt_two_pow _) (by omega)

/-- The confined solutions are those of the accepted masks. -/
theorem exists_accepted {bound : Nat} (within : formula.LiteralsWithin bound)
    {valuation : Valuation} (solution : formula.IsConfinedSolution valuation) :
    ∃ mask < 2 ^ formula.numVariables, accepts formula mask = true ∧
      ∀ index, 1 ≤ index → valuationOf mask index = valuation index := by
  obtain ⟨mask, small, same⟩ := exists_mask solution.2
  refine ⟨mask, small, (accepts_iff within).2 (solution.1.congr ?_), same⟩
  intro clause inside literal member
  have nonzero := (within clause inside literal member).1
  exact (same literal.var (Int.natAbs_pos.2 nonzero)).symm

theorem isConfinedSolution_valuationOf {bound : Nat} (within : formula.LiteralsWithin bound)
    (small : mask < 2 ^ formula.numVariables) (accepted : accepts formula mask = true) :
    formula.IsConfinedSolution (valuationOf mask) :=
  ⟨(accepts_iff within).1 accepted, fun _ above => valuationOf_above small above⟩

theorem exists_confined_iff {bound : Nat} (within : formula.LiteralsWithin bound) :
    (∃ valuation, formula.IsConfinedSolution valuation) ↔
      ∃ mask < 2 ^ formula.numVariables, accepts formula mask = true := by
  constructor
  · intro given
    obtain ⟨valuation, solution⟩ := given
    obtain ⟨mask, small, accepted, -⟩ := exists_accepted within solution
    exact ⟨mask, small, accepted⟩
  · intro given
    obtain ⟨mask, small, accepted⟩ := given
    exact ⟨_, isConfinedSolution_valuationOf within small accepted⟩

theorem satisfiable_iff_accepts (wellFormed : formula.WellFormed) :
    formula.Satisfiable ↔ ∃ mask < 2 ^ formula.numVariables, accepts formula mask = true :=
  (Formula.satisfiable_iff_confined wellFormed).trans
    (exists_confined_iff wellFormed.literalsWithin)

/-- Without an accepted mask there is no solution at all. -/
theorem not_satisfiable_of_rejected (wellFormed : formula.WellFormed)
    (rejected : ∀ mask < 2 ^ formula.numVariables, accepts formula mask = false) :
    ¬formula.Satisfiable := by
  intro satisfiable
  obtain ⟨mask, small, accepted⟩ := (satisfiable_iff_accepts wellFormed).1 satisfiable
  rw [rejected mask small] at accepted
  cases accepted

theorem forall_confined_iff {bound : Nat} (within : formula.LiteralsWithin bound)
    {literal : Literal} (nonzero : literal ≠ 0) :
    (∀ valuation, formula.IsConfinedSolution valuation → valuation.Holds literal) ↔
      ∀ mask < 2 ^ formula.numVariables, accepts formula mask = true →
        holdsIn mask literal = true := by
  constructor
  · intro holds mask small accepted
    rw [holdsIn_iff nonzero]
    exact holds _ (isConfinedSolution_valuationOf within small accepted)
  · intro holds valuation solution
    obtain ⟨mask, small, accepted, same⟩ := exists_accepted within solution
    rw [← Valuation.holds_congr (same literal.var (Int.natAbs_pos.2 nonzero)),
      ← holdsIn_iff nonzero]
    exact holds mask small accepted

/-! ### Masks as lists of literals -/

theorem var_literalOf (mask index : Nat) : (literalOf mask index).var = index := by
  rw [literalOf]
  split
  · rfl
  · exact Int.natAbs_neg _

theorem eq_literalOf_iff {literal : Literal} (nonzero : literal ≠ 0) :
    literal = literalOf mask literal.var ↔ holdsIn mask literal = true := by
  rcases Int.natAbs_eq literal with positive | negative
  · have same : ((literal.var : Nat) : Literal) = literal := positive.symm
    rw [literalOf, same]
    split
    · rename_i holds
      exact iff_of_true rfl holds
    · rename_i fails
      refine iff_of_false ?_ fails
      simp only [Literal] at *
      omega
  · have opposite : ((literal.var : Nat) : Literal) = -literal := by
      rw [Literal.var, negative, Int.natAbs_neg, Int.natAbs_natCast, Int.neg_neg]
    have flips : (valuationOf mask).Holds (-literal) ↔ ¬(valuationOf mask).Holds literal :=
      Valuation.holds_neg nonzero
    rw [← holdsIn_iff (by simpa using nonzero), ← holdsIn_iff nonzero] at flips
    rw [literalOf, opposite]
    split
    · rename_i holds
      refine iff_of_false ?_ (flips.1 holds)
      simp only [Literal] at *
      omega
    · rename_i fails
      refine iff_of_true ?_ ?_
      · simp
      · by_contra refuted
        exact fails (flips.2 refuted)

theorem mem_solutionOf {literal : Literal} :
    literal ∈ solutionOf formula mask ↔
      formula.declares literal.var = true ∧ holdsIn mask literal = true := by
  rw [solutionOf, List.mem_map]
  constructor
  · intro given
    obtain ⟨index, member, rfl⟩ := given
    have declared : formula.declares (literalOf mask index).var = true := by
      rw [var_literalOf]
      exact Formula.mem_vars.1 member
    refine ⟨declared, ?_⟩
    rw [← eq_literalOf_iff (Formula.ne_zero_of_declares declared), var_literalOf]
  · intro given
    obtain ⟨declared, holds⟩ := given
    refine ⟨literal.var, Formula.mem_vars.2 declared, ?_⟩
    exact ((eq_literalOf_iff (Formula.ne_zero_of_declares declared)).2 holds).symm

/-- The literals of a mask stand in ascending order, one of each variable. -/
theorem pairwise_solutionOf (formula : Formula) (mask : Nat) :
    (solutionOf formula mask).Pairwise fun a b => a.var < b.var := by
  rw [solutionOf, List.pairwise_map]
  simp only [var_literalOf]
  exact formula.pairwise_vars

end Enumeration

end Backbone
