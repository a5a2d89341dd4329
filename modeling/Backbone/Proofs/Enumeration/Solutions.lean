import Backbone.Analysis
import Backbone.Proofs.Enumeration.Core

/-!
# Solutions by enumeration are least under any clock

A solution can be written as the list of one literal of each variable, ascending.  These lists and
the masks are the same thing in two forms, and a formula is met by the one just if it accepts the
other.  The search for a solution keeps the first mask that is accepted, so what it gives out is the
least, and if it finds none before the masks are exhausted, then no list of literals meets the
formula, not even one that leaves variables open.

* `Formula.IsFullSolution` — a list of one literal of each variable that meets every clause;
* `maskOf` — the mask of a list, `solutionOf_maskOf` and `maskOf_solutionOf` — both ways round;
* `isSatisfiedBy_solutionOf` — truth under a mask is membership in its list of literals;
* `FirstFound` — how a search for the first accepted mask ends, and `searchAll_firstFound`;
* `satisfiable_of_isSatisfiedBy` — a list without a complementary pair extends to a solution;
* `solution_least` — the answer is the least solution, that there is none, or a giving up for
  which the clock is to blame;
* `solve_cases`, `oracle_solve_untimed` — without a clock, the answer is never a giving up.
-/

namespace Backbone

/-- No literal stands beside its negation. -/
def Literals.Consistent (literals : List Literal) : Prop :=
  ∀ literal ∈ literals, literal ≠ 0 → -literal ∉ literals

/-- A list that holds a literal without its negation holds the variable just if the literal is
positive. -/
theorem Literals.contains_var {literals : List Literal} {literal : Literal}
    (member : literal ∈ literals) (alone : -literal ∉ literals) :
    literals.contains (literal.var : Literal) = decide (0 < literal) := by
  by_cases positive : 0 < literal
  · have same : (literal.var : Literal) = literal := Int.natAbs_of_nonneg (Int.le_of_lt positive)
    rw [same, List.contains_iff_mem.2 member, decide_eq_true positive]
  · have opposite : (literal.var : Literal) = -literal :=
      Int.ofNat_natAbs_of_nonpos (Int.not_lt.1 positive)
    rw [opposite, decide_eq_false positive, ← Bool.not_eq_true, List.contains_iff_mem]
    exact alone

namespace Formula

variable {formula : Formula}

/-- The list holds one literal of each variable, ascending, and meets every clause. -/
structure IsFullSolution (formula : Formula) (solution : List Literal) : Prop where
  /-- There is one literal of each variable. -/
  complete : Literals.vars solution = formula.vars
  /-- Each clause has a literal of the list. -/
  satisfies : formula.isSatisfiedBy solution = true

theorem isSatisfiedBy_iff {literals : List Literal} :
    formula.isSatisfiedBy literals = true ↔
      ∀ clause ∈ formula.clauses, ∃ literal ∈ clause, literal ∈ literals := by
  simp [isSatisfiedBy]

/-- A consistent list of literals that meets every clause is part of a solution.  It may leave
variables open and hold variables that the formula has not. -/
theorem satisfiable_of_isSatisfiedBy (wellFormed : formula.WellFormed) {literals : List Literal}
    (consistent : Literals.Consistent literals)
    (satisfies : formula.isSatisfiedBy literals = true) : formula.Satisfiable := by
  refine ⟨fun index => literals.contains (index : Literal), ?_⟩
  intro clause inside
  obtain ⟨literal, inClause, member⟩ := isSatisfiedBy_iff.1 satisfies clause inside
  have nonzero := (wellFormed.literalsWithin clause inside literal inClause).1
  exact ⟨literal, inClause, nonzero,
    Literals.contains_var member (consistent literal member nonzero)⟩

end Formula

namespace Enumeration

variable {formula : Formula} {mask : Nat} {literals : List Literal}

/-! ### Masks and lists of literals -/

/-- The mask of a list of literals: bit `v - 1` is set just if variable `v` is in the list. -/
def maskOf (formula : Formula) (literals : List Literal) : Nat :=
  Nat.ofBits fun i : Fin formula.numVariables => literals.contains ((i + 1 : Nat) : Literal)

theorem testBit_maskOf {index : Nat} (declared : formula.declares index = true) :
    (maskOf formula literals).testBit (index - 1) = literals.contains (index : Literal) := by
  rw [Formula.declares_iff] at declared
  rw [maskOf, Nat.testBit_ofBits_lt _ _ (by omega)]
  show literals.contains ((index - 1 + 1 : Nat) : Literal) = _
  rw [Nat.sub_add_cancel declared.1]

theorem vars_solutionOf (formula : Formula) (mask : Nat) :
    Literals.vars (solutionOf formula mask) = formula.vars := by
  simp only [Literals.vars, solutionOf, List.map_map, Function.comp_def, var_literalOf,
    List.map_id']

theorem declares_of_complete (complete : Literals.vars literals = formula.vars)
    {literal : Literal} (member : literal ∈ literals) :
    formula.declares literal.var = true := by
  rw [← Formula.mem_vars, ← complete]
  exact List.mem_map_of_mem member

/-- A list of one literal of each variable holds under its mask. -/
theorem holdsIn_maskOf (complete : Literals.vars literals = formula.vars) {literal : Literal}
    (member : literal ∈ literals) : holdsIn (maskOf formula literals) literal = true := by
  have declared := declares_of_complete complete member
  have nonzero := Formula.ne_zero_of_declares declared
  -- otherwise the variable would occur twice
  have alone : -literal ∉ literals := by
    intro other
    have distinct : (Literals.vars literals).Nodup := complete ▸ formula.nodup_vars
    have equal := List.inj_on_of_nodup_map distinct other member (Int.natAbs_neg literal)
    simp only [Literal] at *
    omega
  rw [holdsIn, testBit_maskOf declared, beq_iff_eq]
  exact Literals.contains_var member alone

theorem solutionOf_maskOf (complete : Literals.vars literals = formula.vars) :
    solutionOf formula (maskOf formula literals) = literals := by
  have each : ∀ literal ∈ literals,
      literalOf (maskOf formula literals) literal.var = literal := by
    intro literal member
    have nonzero := Formula.ne_zero_of_declares (declares_of_complete complete member)
    exact ((eq_literalOf_iff nonzero).2 (holdsIn_maskOf complete member)).symm
  rw [solutionOf, ← complete, Literals.vars, List.map_map]
  exact (List.map_congr_left each).trans (List.map_id _)

theorem maskOf_solutionOf (small : mask < 2 ^ formula.numVariables) :
    maskOf formula (solutionOf formula mask) = mask := by
  have bit (i : Fin formula.numVariables) :
      (solutionOf formula mask).contains ((i + 1 : Nat) : Literal) = mask.testBit i := by
    have declared : formula.declares (i + 1) = true := by
      rw [Formula.declares_iff]
      omega
    rw [Bool.eq_iff_iff, List.contains_iff_mem, mem_solutionOf]
    show formula.declares (i + 1) = true ∧ holdsIn mask ((i + 1 : Nat) : Literal) = true ↔ _
    rw [and_iff_right declared, holdsIn, beq_iff_eq, decide_eq_true (Int.natCast_succ_pos i)]
    rfl
  rw [maskOf, funext bit, Nat.ofBits_testBit, Nat.mod_eq_of_lt small]

/-- The formula accepts a mask just if the mask's list of literals meets it. -/
theorem isSatisfiedBy_solutionOf (wellFormed : formula.WellFormed) (mask : Nat) :
    formula.isSatisfiedBy (solutionOf formula mask) = accepts formula mask := by
  rw [Bool.eq_iff_iff, Formula.isSatisfiedBy_iff]
  simp only [accepts, List.all_eq_true, List.any_eq_true]
  refine Formula.clauses_congr ?_
  intro clause inside literal member
  rw [mem_solutionOf, and_iff_right (wellFormed clause inside literal member)]

/-! ### The least solution -/

/-- The solution whose mask is smallest. -/
structure IsLeastSolution (formula : Formula) (solution : List Literal) : Prop where
  /-- It is a solution. -/
  full : formula.IsFullSolution solution
  /-- No solution has a smaller mask. -/
  least : ∀ other, formula.IsFullSolution other →
    maskOf formula solution ≤ maskOf formula other

theorem isLeastSolution_of_first (wellFormed : formula.WellFormed)
    (small : mask < 2 ^ formula.numVariables) (accepted : accepts formula mask = true)
    (first : ∀ other < mask, accepts formula other = false) :
    IsLeastSolution formula (solutionOf formula mask) := by
  refine ⟨⟨vars_solutionOf formula mask, ?_⟩, ?_⟩
  · rw [isSatisfiedBy_solutionOf wellFormed, accepted]
  · intro other full
    rw [maskOf_solutionOf small]
    by_contra smaller
    have rejected := first (maskOf formula other) (by omega)
    rw [← isSatisfiedBy_solutionOf wellFormed, solutionOf_maskOf full.complete,
      full.satisfies] at rejected
    cases rejected

/-! ### The search for it -/

/-- The ways out of a search for the first mask below a limit that is accepted. -/
inductive FirstFound (clock : Option (Nat → Id Bool)) (accepted : Nat → Bool) (limit : Nat) :
    Option Nat × Ending → Prop
  | found {mask : Nat} : mask < limit → accepted mask = true →
      (∀ other < mask, accepted other = false) →
      FirstFound clock accepted limit (some mask, .finished)
  | exhausted : (∀ mask < limit, accepted mask = false) →
      FirstFound clock accepted limit (none, .finished)
  | timedOut {mask : Nat} : mask < limit → Fired clock mask →
      FirstFound clock accepted limit (none, .timedOut)

theorem searchAll_firstFound (clock : Option (Nat → Id Bool)) (formula : Formula) :
    FirstFound clock (accepts formula) (2 ^ formula.numVariables)
      (Id.run (searchAll clock formula keepFirst none)) := by
  rw [searchAll, Nat.one_shiftLeft]
  -- as long as the search goes on, nothing was kept and all masks so far were rejected
  let Inv (bound : Nat) (known : Option Nat) : Prop :=
    known = none ∧ ∀ mask < bound, accepts formula mask = false
  have start : Inv 0 none := ⟨rfl, fun _ below => absurd below (Nat.not_lt_zero _)⟩
  refine search_induct ?_ ?_ ?_ ?_ ?_ _ 0 none (Nat.zero_add _) start
  · intro mask known inv rejected
    refine ⟨inv.1, ?_⟩
    intro other below
    rcases Nat.lt_succ_iff_lt_or_eq.1 below with before | same
    · exact inv.2 other before
    · rw [same, rejected]
  · intro mask known _ _ goesOn
    cases goesOn
  · intro mask known inside inv accepted _
    exact .found inside accepted inv.2
  · intro mask known inside inv fired
    rw [inv.1]
    exact .timedOut inside fired
  · intro known inv
    rw [inv.1]
    exact .exhausted inv.2

/-! ### The answer -/

theorem oracle_solve_eq {limit : Nat} (stopwatch : Stopwatch Id) (timeout : Timeout)
    (few : formula.numVariables ≤ min limit maxLimit) :
    Id.run ((oracle limit stopwatch).solve formula timeout) =
      .ok (verdictOf formula
        (Id.run (searchAll (clockOf stopwatch timeout) formula keepFirst none))) := by
  simp only [oracle, refusal?_eq_none few, ← run_startClock]
  rfl

/-- The answer to a search for a solution: none is an answer, and giving up is a fault. -/
def solutionIn : Verdict → Except Fault (Option (List Literal))
  | .satisfiable solution => .ok (some solution)
  | .unsatisfiable => .ok none
  | .indeterminate => .error .indeterminate

theorem answer_solution? (oracle : Oracle Id) (formula : Formula) (timeout : Timeout) :
    (Analysis.solution? formula timeout).answer oracle =
      Id.run (oracle.solve formula timeout) >>= solutionIn := by
  show (Id.run (Dialogue.run oracle (.solve formula timeout _))).result = _
  rw [Dialogue.run]
  obtain ⟨reply, replied⟩ : ∃ reply : Except Fault Verdict,
      oracle.solve formula timeout = reply := ⟨_, rfl⟩
  rw [replied]
  cases reply with
  | error fault => rfl
  | ok verdict =>
    cases verdict with
    | satisfiable solution => rfl
    | unsatisfiable => rfl
    | indeterminate => rfl

/-- To ask whether there is a solution is to ask for one. -/
theorem answer_hasSolution (oracle : Oracle Id) (formula : Formula) (timeout : Timeout) :
    (Analysis.hasSolution formula timeout).answer oracle =
      ((Analysis.solution? formula timeout).answer oracle).map Option.isSome := by
  rw [← Analysis.answer_map, Analysis.hasSolution, bind_pure_comp]

theorem fired_clockOf {stopwatch : Stopwatch Id} {timeout : Timeout}
    (fired : Fired (clockOf stopwatch timeout) mask) :
    timeout ≠ 0 ∧ mask % checkInterval = 0 ∧ Id.run (stopwatch timeout) mask = true := by
  obtain ⟨look, expired, started, fired⟩ := fired
  rw [clockOf] at started
  by_cases untimed : timeout = 0
  · rw [if_pos untimed] at started
    cases started
  · rw [if_neg untimed] at started
    cases started
    exact ⟨untimed, look, fired⟩

/-- The ways out of the search, and what each of them lets the answer say. -/
theorem solution_of_firstFound (wellFormed : formula.WellFormed)
    {clock : Option (Nat → Id Bool)} {outcome : Option Nat × Ending}
    (ends : FirstFound clock (accepts formula) (2 ^ formula.numVariables) outcome) :
    match solutionIn (verdictOf formula outcome) with
    | .ok (some solution) => IsLeastSolution formula solution
    | .ok none => ∀ literals, Literals.Consistent literals →
        formula.isSatisfiedBy literals = false
    | .error .indeterminate => ∃ mask < 2 ^ formula.numVariables, Fired clock mask
    | .error _ => False := by
  cases ends with
  | found small accepted first => exact isLeastSolution_of_first wellFormed small accepted first
  | exhausted rejected =>
    intro literals consistent
    by_contra satisfies
    rw [Bool.not_eq_false] at satisfies
    have satisfiable := Formula.satisfiable_of_isSatisfiedBy wellFormed consistent satisfies
    exact not_satisfiable_of_rejected wellFormed rejected satisfiable
  | timedOut small fired => exact ⟨_, small, fired⟩

/-- Whatever the clock says at each look, a solution that is found is the one whose mask is
smallest, an answer that there is none means that no consistent list of literals meets the formula,
and the search is given up only when there is a time limit and a look at the clock found it passed.
Whether there is a solution is answered alike. -/
theorem solution_least (limit : Nat) (stopwatch : Stopwatch Id) (timeout : Timeout)
    {formula : Formula} (few : formula.numVariables ≤ min limit maxLimit)
    (wellFormed : formula.WellFormed) :
    (match (Analysis.solution? formula timeout).answer (oracle limit stopwatch) with
      | .ok (some solution) => IsLeastSolution formula solution
      | .ok none => ∀ literals, Literals.Consistent literals →
          formula.isSatisfiedBy literals = false
      | .error .indeterminate => timeout ≠ 0 ∧ ∃ mask < 2 ^ formula.numVariables,
          mask % checkInterval = 0 ∧ Id.run (stopwatch timeout) mask = true
      | .error _ => False) ∧
      (Analysis.hasSolution formula timeout).answer (oracle limit stopwatch) =
        ((Analysis.solution? formula timeout).answer (oracle limit stopwatch)).map
          Option.isSome := by
  refine ⟨?_, answer_hasSolution _ _ _⟩
  have said := solution_of_firstFound wellFormed
    (searchAll_firstFound (clockOf stopwatch timeout) formula)
  have replied : (Analysis.solution? formula timeout).answer (oracle limit stopwatch) =
      solutionIn (verdictOf formula
        (Id.run (searchAll (clockOf stopwatch timeout) formula keepFirst none))) := by
    rw [answer_solution?, oracle_solve_eq stopwatch timeout few]
    rfl
  rw [← replied] at said
  generalize (Analysis.solution? formula timeout).answer (oracle limit stopwatch) = answered
    at said ⊢
  match answered, said with
  | .ok (some _), said => exact said
  | .ok none, said => exact said
  | .error .indeterminate, ⟨mask, small, fired⟩ =>
    obtain ⟨timed, look, passed⟩ := fired_clockOf fired
    exact ⟨timed, mask, small, look, passed⟩

/-- The clock fires from the second mask on, but it is not looked at there. -/
theorem solution_least_late_clock :
    (Analysis.solution? ⟨3, [[1, 2], [-1, -2], [2, 3], [-3]], .empty⟩ 5).answer
        (oracle 24 fun _ mask => decide (1 ≤ mask)) = .ok (some [-1, 2, -3]) ∧
      IsLeastSolution ⟨3, [[1, 2], [-1, -2], [2, 3], [-3]], .empty⟩ [-1, 2, -3] := by
  have few : (Formula.mk 3 [[1, 2], [-1, -2], [2, 3], [-3]] .empty).numVariables ≤
      min 24 maxLimit := by decide
  have wellFormed : (Formula.mk 3 [[1, 2], [-1, -2], [2, 3], [-3]] .empty).WellFormed := by decide
  exact ⟨rfl, (solution_least 24 (fun _ mask => decide (1 ≤ mask)) 5 few wellFormed).1⟩

/-! ### Without a clock -/

/-- A search without a clock has an answer, and it is right. -/
theorem solve_cases (wellFormed : formula.WellFormed) :
    (Id.run (solve none formula) = .unsatisfiable ∧ ¬formula.Satisfiable) ∨
      ∃ mask < 2 ^ formula.numVariables,
        Id.run (solve none formula) = .satisfiable (solutionOf formula mask) ∧
          accepts formula mask = true ∧ ∀ other < mask, accepts formula other = false := by
  have ends := searchAll_firstFound none formula
  have answer : Id.run (solve none formula) =
      verdictOf formula (Id.run (searchAll none formula keepFirst none)) := rfl
  rw [answer]
  generalize Id.run (searchAll none formula keepFirst none) = outcome at ends ⊢
  cases ends with
  | found small accepted first => exact .inr ⟨_, small, rfl, accepted, first⟩
  | exhausted rejected => exact .inl ⟨rfl, not_satisfiable_of_rejected wellFormed rejected⟩
  | timedOut small fired =>
    obtain ⟨_, _, impossible, _⟩ := fired
    cases impossible

/-- In any monad, a query without a time limit is answered at once. -/
theorem oracle_solve_untimed {m : Type → Type} [Monad m] [LawfulMonad m] {limit : Nat}
    (stopwatch : Stopwatch m) (few : formula.numVariables ≤ min limit maxLimit) :
    (oracle limit stopwatch).solve formula 0 = pure (.ok (Id.run (solve none formula))) := by
  have started : startClock stopwatch 0 = pure none := if_pos rfl
  simp only [oracle, refusal?_eq_none few, started, pure_bind, solve, searchAll]
  rw [search_none, map_pure, pure_bind]
  rfl

end Enumeration

end Backbone
