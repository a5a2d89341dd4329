import Backbone.Analysis
import Backbone.Proofs.Enumeration.Core

/-!
# The core under assumptions is a closure

Assumptions narrow the solutions, and the core under them tells what all that remain have in common.
So it contains the assumptions, it leaves the same solutions when it is assumed in their place, and
it grows with them until no solution is left.  By enumeration without a time limit every such core
is found, as a list in ascending order, and then these are laws of the answers themselves.

* `isConfinedSolution_assume` — the solutions that assumptions leave;
* `IsAscendingCore.unique` — a formula has one ascending core;
* `IsAscendingCore.assumed`, `IsAscendingCore.again`, `IsAscendingCore.mono` — a core contains what
  was assumed, is its own core, and grows with what is assumed;
* `core_eq_ok_iff`, `core_eq_unsatisfiable_iff` — what the enumeration answers;
* `coreUnder_closure` — the laws of a closure for the answers.
-/

namespace Backbone

namespace Formula

variable {formula : Formula} {assumptions more core : List Literal} {valuation : Valuation}

/-! ### Solutions under assumptions -/

theorem isConfinedSolution_assume :
    (formula.assume assumptions).IsConfinedSolution valuation ↔
      formula.IsConfinedSolution valuation ∧
        ∀ literal ∈ assumptions, valuation.Holds literal := by
  rw [IsConfinedSolution, IsConfinedSolution, isSolution_assume]
  exact and_right_comm

theorem IsConfinedSolution.of_subset (subset : assumptions ⊆ more)
    (solution : (formula.assume more).IsConfinedSolution valuation) :
    (formula.assume assumptions).IsConfinedSolution valuation := by
  rw [isConfinedSolution_assume] at solution ⊢
  exact ⟨solution.1, fun literal member => solution.2 literal (subset member)⟩

theorem WellFormed.assume_all (wellFormed : formula.WellFormed)
    (declared : ∀ literal ∈ assumptions, formula.declares literal.var = true) :
    (formula.assume assumptions).WellFormed := by
  induction assumptions generalizing formula with
  | nil => rwa [assume_nil]
  | cons literal assumptions ih =>
    rw [List.forall_mem_cons] at declared
    rw [assume_cons]
    exact ih (wellFormed.assume declared.1) declared.2

/-! ### Cores under assumptions -/

/-- The literals of a core are determined, and so is their order. -/
theorem IsAscendingCore.unique {first second : List Literal}
    (h : formula.IsAscendingCore first) (h' : formula.IsAscendingCore second) :
    first = second := by
  have perm : first.Perm second := by
    refine (List.perm_ext_iff_of_nodup h.nodup h'.nodup).2 ?_
    intro literal
    rw [h.mem_iff, h'.mem_iff]
  refine perm.eq_of_pairwise ?_ h.ascending h'.ascending
  intro a b _ _ below above
  exact absurd below (Nat.lt_asymm above)

/-- A core contains what was assumed. -/
theorem IsAscendingCore.assumed (isCore : (formula.assume assumptions).IsAscendingCore core)
    (declared : ∀ literal ∈ assumptions, formula.declares literal.var = true) :
    assumptions ⊆ core := by
  intro literal member
  refine (isCore.mem_iff literal).2 ⟨declared literal member, ?_⟩
  intro valuation solution
  exact (isConfinedSolution_assume.1 solution).2 literal member

theorem IsAscendingCore.declared (isCore : (formula.assume assumptions).IsAscendingCore core) :
    ∀ literal ∈ core, formula.declares literal.var = true :=
  fun literal member => ((isCore.mem_iff literal).1 member).1

/-- Assumed in place of the assumptions, their core leaves the same solutions. -/
theorem IsAscendingCore.isConfinedSolution_iff
    (isCore : (formula.assume assumptions).IsAscendingCore core)
    (declared : ∀ literal ∈ assumptions, formula.declares literal.var = true) :
    (formula.assume core).IsConfinedSolution valuation ↔
      (formula.assume assumptions).IsConfinedSolution valuation := by
  refine ⟨fun solution => solution.of_subset (isCore.assumed declared), ?_⟩
  intro solution
  refine isConfinedSolution_assume.2 ⟨(isConfinedSolution_assume.1 solution).1, ?_⟩
  intro literal member
  exact ((isCore.mem_iff literal).1 member).2 valuation solution

/-- A core is the core under itself. -/
theorem IsAscendingCore.again (isCore : (formula.assume assumptions).IsAscendingCore core)
    (declared : ∀ literal ∈ assumptions, formula.declares literal.var = true) :
    (formula.assume core).IsAscendingCore core := by
  refine ⟨?_, isCore.ascending, ?_⟩
  · obtain ⟨valuation, solution⟩ := isCore.solvable
    exact ⟨valuation, (isCore.isConfinedSolution_iff declared).2 solution⟩
  · intro literal
    rw [isCore.mem_iff]
    simp only [declares_assume, isCore.isConfinedSolution_iff declared]

/-- More assumptions leave fewer solutions, and those have more in common. -/
theorem IsAscendingCore.mono {larger : List Literal} (subset : assumptions ⊆ more)
    (isCore : (formula.assume assumptions).IsAscendingCore core)
    (isCore' : (formula.assume more).IsAscendingCore larger) : core ⊆ larger := by
  intro literal member
  obtain ⟨declared, holds⟩ := (isCore.mem_iff literal).1 member
  refine (isCore'.mem_iff literal).2 ⟨declared, ?_⟩
  intro valuation solution
  exact holds valuation (solution.of_subset subset)

end Formula

/-! ### The answers -/

namespace Enumeration

variable {formula : Formula}

theorem core_eq_ok_iff (wellFormed : formula.WellFormed) {found : List Literal} :
    Id.run (core none formula) = .ok found ↔ formula.IsAscendingCore found := by
  rcases core_cases wellFormed with ⟨same, hopeless⟩ | ⟨other, same, isCore⟩
  · rw [same]
    exact iff_of_false (fun absurd => by cases absurd) fun isCore => hopeless isCore.solvable
  · rw [same, Except.ok.injEq]
    exact ⟨fun equal => equal ▸ isCore, fun isCore' => isCore.unique isCore'⟩

theorem core_eq_unsatisfiable_iff (wellFormed : formula.WellFormed) :
    Id.run (core none formula) = .error .unsatisfiable ↔
      ¬∃ valuation, formula.IsConfinedSolution valuation := by
  rcases core_cases wellFormed with ⟨same, hopeless⟩ | ⟨other, same, isCore⟩
  · exact iff_of_true same hopeless
  · rw [same]
    exact iff_of_false (fun absurd => by cases absurd) fun hopeless => hopeless isCore.solvable

/-- The core under assumptions is asked of the formula with the assumptions. -/
theorem answer_coreUnder {limit : Nat} (stopwatch : Stopwatch Id)
    (few : formula.numVariables ≤ min limit maxLimit) {assumptions : List Literal}
    (declared : ∀ literal ∈ assumptions, formula.declares literal.var = true) :
    (Analysis.coreUnder formula assumptions 0).answer (oracle limit stopwatch) =
      Id.run (core none (formula.assume assumptions)) := by
  have few' : (formula.assume assumptions).numVariables ≤ min limit maxLimit := few
  rw [Analysis.coreUnder, Analysis.foreignAssumption?_eq_none_iff.2 declared]
  show Id.run ((oracle limit stopwatch).core (formula.assume assumptions) 0) = _
  rw [oracle_core_untimed stopwatch few']
  rfl

/-- Without a time limit the core under assumptions contains them, and as assumptions it gives
itself again, in the same order.  If all assumptions are among others, then under those others
there is either no solution left or a core that contains theirs, and there is no solution if
already they leave none. -/
theorem coreUnder_closure {limit : Nat} (stopwatch : Stopwatch Id)
    (few : formula.numVariables ≤ min limit maxLimit) (wellFormed : formula.WellFormed)
    {assumptions more : List Literal}
    (declared : ∀ literal ∈ assumptions, formula.declares literal.var = true)
    (declared' : ∀ literal ∈ more, formula.declares literal.var = true) :
    let under (literals : List Literal) : Except Fault (List Literal) :=
      (Analysis.coreUnder formula literals 0).answer (oracle limit stopwatch)
    (∀ core, under assumptions = .ok core → assumptions ⊆ core ∧ under core = .ok core) ∧
      (assumptions ⊆ more →
        (∀ core, under assumptions = .ok core →
          under more = .error .unsatisfiable ∨ ∃ larger, under more = .ok larger ∧ core ⊆ larger) ∧
        (under assumptions = .error .unsatisfiable → under more = .error .unsatisfiable)) := by
  intro under
  have wellFormedUnder := wellFormed.assume_all declared
  have wellFormedMore := wellFormed.assume_all declared'
  have asked : under assumptions = _ := answer_coreUnder stopwatch few declared
  have askedMore : under more = _ := answer_coreUnder stopwatch few declared'
  rw [asked, askedMore, core_eq_unsatisfiable_iff wellFormedUnder,
    core_eq_unsatisfiable_iff wellFormedMore]
  refine ⟨?_, fun subset => ⟨?_, ?_⟩⟩
  · intro core found
    have isCore := (core_eq_ok_iff wellFormedUnder).1 found
    have askedCore : under core = _ := answer_coreUnder stopwatch few isCore.declared
    rw [askedCore, core_eq_ok_iff (wellFormed.assume_all isCore.declared)]
    exact ⟨isCore.assumed declared, isCore.again declared⟩
  · intro core found
    have isCore := (core_eq_ok_iff wellFormedUnder).1 found
    rcases core_cases wellFormedMore with ⟨-, hopeless⟩ | ⟨larger, foundMore, isCore'⟩
    · exact .inl hopeless
    · exact .inr ⟨larger, foundMore, isCore.mono subset isCore'⟩
  · intro hopeless solvable
    obtain ⟨valuation, solution⟩ := solvable
    exact hopeless ⟨valuation, solution.of_subset subset⟩

/-- The stopwatch would stop every search at once, but without a time limit it is not started. -/
theorem coreUnder_closure_repeated :
    let under (literals : List Literal) : Except Fault (List Literal) :=
      (Analysis.coreUnder ⟨4, [[1], [-2], [-3, 4]], .empty⟩ literals 0).answer
        (oracle 24 fun _ _ => true)
    under [4] = .ok [1, -2, 4] ∧ under [1, -2, 4] = .ok [1, -2, 4] ∧
      (under [3, 4, 3] = .error .unsatisfiable ∨
        ∃ larger, under [3, 4, 3] = .ok larger ∧ [1, -2, 4] ⊆ larger) := by
  intro under
  have few : (Formula.mk 4 [[1], [-2], [-3, 4]] .empty).numVariables ≤ min 24 maxLimit := by decide
  have wellFormed : (Formula.mk 4 [[1], [-2], [-3, 4]] .empty).WellFormed := by decide
  have declared : ∀ literal ∈ [(4 : Literal)],
      (Formula.mk 4 [[1], [-2], [-3, 4]] .empty).declares literal.var = true := by decide
  have declared' : ∀ literal ∈ [(3 : Literal), 4, 3],
      (Formula.mk 4 [[1], [-2], [-3, 4]] .empty).declares literal.var = true := by decide
  have found : under [4] = .ok [1, -2, 4] := rfl
  obtain ⟨closed, grows⟩ :=
    coreUnder_closure (fun _ _ => true) few wellFormed declared declared'
  exact ⟨found, (closed _ found).2, (grows (by decide)).1 _ found⟩

end Enumeration

end Backbone
