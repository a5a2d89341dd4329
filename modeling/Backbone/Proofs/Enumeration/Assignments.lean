import Backbone.Proofs.Enumeration.Solutions
import Mathlib.Data.Set.Function

/-!
# Masks are the assignments

An assignment is a list of one literal of each variable, in ascending order.  The search runs
through masks and never through assignments.  That it misses none, and meets none twice, rests on
the two being the same in two forms: each mask below `2 ^ n` is one assignment, each assignment is
one mask, and a formula is true of the one just if it is true of the other.  The two evaluations
share no code: one tests bits against signs, the other looks literals up in a list.

None of this needs a bound on the number of variables.  A bound is needed where masks are words of
64 bits: the bit of a variable is reached by a shift, which finds it up to variable 64, and the
number of masks is a word itself for at most `maxLimit` variables.

* `Formula.IsAssignment` — one literal of each variable, ascending, and `isAssignment_iff`: there is
  one way to write the variables down so;
* `invOn_maskOf`, `bijOn_solutionOf` — masks and assignments, both ways round;
* `acceptsWord`, `solutionOfWord` — the two evaluations on words, by shifts, and `acceptsWord_eq`,
  `solutionOfWord_eq`: they are those on the numbers that the words stand for;
* `masks_are_assignments` — both evaluations agree, and the masks enumerate the assignments, as
  numbers and as words.
-/

namespace Backbone

namespace Formula

variable {formula : Formula} {literals : List Literal}

/-! ### Assignments -/

/-- The list holds exactly one literal of each variable of the formula, in ascending order. -/
structure IsAssignment (formula : Formula) (literals : List Literal) : Prop where
  /-- A variable of the formula occurs once, and any other number not at all. -/
  once : ∀ index, (Literals.vars literals).count index = if formula.declares index then 1 else 0
  /-- The variables ascend. -/
  ascending : (Literals.vars literals).Pairwise (· < ·)

theorem count_vars (formula : Formula) (index : Nat) :
    formula.vars.count index = if formula.declares index then 1 else 0 := by
  rw [formula.nodup_vars.count]
  simp only [mem_vars]

theorem isAssignment_iff :
    formula.IsAssignment literals ↔ Literals.vars literals = formula.vars := by
  constructor
  · intro assignment
    have perm : (Literals.vars literals).Perm formula.vars := by
      rw [List.perm_iff_count]
      intro index
      rw [assignment.once, count_vars]
    -- both lists ascend, so there is nothing to permute
    refine perm.eq_of_pairwise ?_ assignment.ascending formula.pairwise_vars
    intro a b _ _ below above
    omega
  · intro complete
    refine ⟨?_, ?_⟩
    · intro index
      rw [complete, count_vars]
    · rw [complete]
      exact formula.pairwise_vars

end Formula

namespace Enumeration

variable {formula : Formula} {mask : Nat}

/-! ### Masks and assignments -/

theorem isAssignment_solutionOf (formula : Formula) (mask : Nat) :
    formula.IsAssignment (solutionOf formula mask) :=
  Formula.isAssignment_iff.2 (vars_solutionOf formula mask)

theorem maskOf_lt (formula : Formula) (literals : List Literal) :
    maskOf formula literals < 2 ^ formula.numVariables :=
  Nat.ofBits_lt_two_pow _

/-- A mask is read back from its assignment, and an assignment from its mask. -/
theorem invOn_maskOf (formula : Formula) :
    Set.InvOn (maskOf formula) (solutionOf formula) {mask | mask < 2 ^ formula.numVariables}
      {literals | formula.IsAssignment literals} := by
  constructor
  · intro mask small
    exact maskOf_solutionOf small
  · intro literals assignment
    exact solutionOf_maskOf (Formula.isAssignment_iff.1 assignment)

theorem bijOn_solutionOf (formula : Formula) :
    Set.BijOn (solutionOf formula) {mask | mask < 2 ^ formula.numVariables}
      {literals | formula.IsAssignment literals} := by
  refine (invOn_maskOf formula).bijOn ?_ ?_
  · intro mask _
    exact isAssignment_solutionOf formula mask
  · intro literals _
    exact maskOf_lt formula literals

/-! ### Words -/

/-- Whether the literal holds under the word: the bit of its variable is shifted to the lowest place
and compared with its sign. -/
def holdsInWord (word : UInt64) (literal : Literal) : Bool :=
  (word >>> UInt64.ofNat (literal.var - 1) &&& 1 == 1) == decide (0 < literal)

/-- Whether the word satisfies every clause. -/
def acceptsWord (formula : Formula) (word : UInt64) : Bool :=
  formula.clauses.all fun clause => clause.any (holdsInWord word)

/-- The literals that hold under the word, ascending by variable. -/
def solutionOfWord (formula : Formula) (word : UInt64) : List Literal :=
  formula.vars.map fun (index : Nat) => if holdsInWord word index then (index : Literal) else -index

/-- A bit of a word is found by shifting it down to the lowest place. -/
theorem testBit_toNat (word : UInt64) {place : Nat} (small : place < 64) :
    word.toNat.testBit place = (word >>> UInt64.ofNat place &&& 1 == 1) := by
  have amount : (UInt64.ofNat place).toNat = place :=
    UInt64.toNat_ofNat_of_lt' (small.trans (by decide))
  have shifted : (word >>> UInt64.ofNat place).toNat = word.toNat / 2 ^ place := by
    rw [UInt64.toNat_shiftRight, amount, Nat.mod_eq_of_lt small, Nat.shiftRight_eq_div_pow]
  rw [Nat.testBit_eq_decide_div_mod_eq, Bool.eq_iff_iff, decide_eq_true_eq, beq_iff_eq,
    ← UInt64.toNat_inj, UInt64.toNat_and, shifted]
  show _ ↔ word.toNat / 2 ^ place &&& 1 = 1
  rw [Nat.and_one_is_mod]

theorem holdsInWord_eq (word : UInt64) {literal : Literal} (positive : 0 < literal.var)
    (small : literal.var ≤ 64) : holdsInWord word literal = holdsIn word.toNat literal := by
  rw [holdsInWord, holdsIn, testBit_toNat word (by omega)]

/-- On a word, a formula is evaluated as on the word's number. -/
theorem acceptsWord_eq (within : formula.LiteralsWithin 64) (word : UInt64) :
    acceptsWord formula word = accepts formula word.toNat := by
  rw [Bool.eq_iff_iff]
  simp only [acceptsWord, accepts, List.all_eq_true, List.any_eq_true]
  refine Formula.clauses_congr ?_
  intro clause inside literal member
  obtain ⟨nonzero, small⟩ := within clause inside literal member
  rw [holdsInWord_eq word (Int.natAbs_pos.2 nonzero) small]

theorem solutionOfWord_eq (few : formula.numVariables ≤ 64) (word : UInt64) :
    solutionOfWord formula word = solutionOf formula word.toNat := by
  refine List.map_congr_left ?_
  intro index member
  obtain ⟨positive, small⟩ := Formula.declares_iff.1 (Formula.mem_vars.1 member)
  have same : holdsInWord word index = holdsIn word.toNat index :=
    holdsInWord_eq word positive (small.trans few)
  rw [same, literalOf]

/-- The words below the bound of the search are the masks. -/
theorem bijOn_toNat (few : formula.numVariables ≤ maxLimit) :
    Set.BijOn UInt64.toNat {word | word < 1 <<< UInt64.ofNat formula.numVariables}
      {mask | mask < 2 ^ formula.numVariables} := by
  have small : formula.numVariables < 64 := Nat.lt_succ_of_le few
  have fits : 2 ^ formula.numVariables < 2 ^ 64 := Nat.pow_lt_pow_right (by decide) small
  have amount : (UInt64.ofNat formula.numVariables).toNat = formula.numVariables :=
    UInt64.toNat_ofNat_of_lt' (small.trans (by decide))
  have bound : (1 <<< UInt64.ofNat formula.numVariables : UInt64).toNat =
      2 ^ formula.numVariables := by
    rw [UInt64.toNat_shiftLeft, amount, Nat.mod_eq_of_lt small, UInt64.toNat_one,
      Nat.one_shiftLeft, Nat.mod_eq_of_lt fits]
  refine ⟨?_, ?_, ?_⟩
  · intro word below
    exact bound ▸ UInt64.lt_iff_toNat_lt.1 below
  · intro word _ other _ same
    exact UInt64.toNat_inj.1 same
  · intro mask below
    have same : (UInt64.ofNat mask).toNat = mask := UInt64.toNat_ofNat_of_lt' (below.trans fits)
    refine ⟨UInt64.ofNat mask, ?_, same⟩
    show UInt64.ofNat mask < 1 <<< UInt64.ofNat formula.numVariables
    rw [UInt64.lt_iff_toNat_lt, same, bound]
    exact below

theorem acceptsWord_eq_isSatisfiedBy (wellFormed : formula.WellFormed)
    (few : formula.numVariables ≤ maxLimit) (word : UInt64) :
    acceptsWord formula word = formula.isSatisfiedBy (solutionOfWord formula word) := by
  have narrow : formula.numVariables ≤ 64 := Nat.le_succ_of_le few
  have within : formula.LiteralsWithin 64 := by
    intro clause inside literal member
    obtain ⟨nonzero, declared⟩ := wellFormed.literalsWithin clause inside literal member
    exact ⟨nonzero, declared.trans narrow⟩
  rw [acceptsWord_eq within, solutionOfWord_eq narrow, isSatisfiedBy_solutionOf wellFormed]

/-- The words below the bound are the assignments, each of them once. -/
theorem bijOn_solutionOfWord (few : formula.numVariables ≤ maxLimit) :
    Set.BijOn (solutionOfWord formula) {word | word < 1 <<< UInt64.ofNat formula.numVariables}
      {literals | formula.IsAssignment literals} := by
  refine ((bijOn_solutionOf formula).comp (bijOn_toNat few)).congr ?_
  intro word _
  exact (solutionOfWord_eq (Nat.le_succ_of_le few) word).symm

/-! ### Both evaluations -/

/-- A mask is accepted just if its assignment meets the formula, and the masks below `2 ^ n` are the
assignments of the `n` variables, each of them once.  The same is true of the words of 64 bits that
stand for the masks, if there are as many variables as any limit allows. -/
theorem masks_are_assignments (wellFormed : formula.WellFormed) :
    (∀ mask < 2 ^ formula.numVariables,
      accepts formula mask = formula.isSatisfiedBy (solutionOf formula mask)) ∧
      Set.BijOn (solutionOf formula) {mask | mask < 2 ^ formula.numVariables}
        {literals | formula.IsAssignment literals} ∧
      (formula.numVariables ≤ maxLimit →
        (∀ word : UInt64, word < 1 <<< UInt64.ofNat formula.numVariables →
          acceptsWord formula word = formula.isSatisfiedBy (solutionOfWord formula word)) ∧
        Set.BijOn (solutionOfWord formula) {word | word < 1 <<< UInt64.ofNat formula.numVariables}
          {literals | formula.IsAssignment literals}) := by
  refine ⟨?_, bijOn_solutionOf formula, ?_⟩
  · intro mask _
    exact (isSatisfiedBy_solutionOf wellFormed mask).symm
  · intro few
    refine ⟨?_, bijOn_solutionOfWord few⟩
    intro word _
    exact acceptsWord_eq_isSatisfiedBy wellFormed few word

/-- A formula of as many variables as any limit allows, in which the highest bit counts. -/
def widest : Formula := ⟨63, [[-1, 63], [1, -63], [62]], .empty⟩

/-- Both evaluations are true at the mask with the bits of 1, 62 and 63, and false without the last
of them. -/
theorem masks_are_assignments_widest :
    widest.WellFormed ∧
      accepts widest (2 ^ 62 + 2 ^ 61 + 1) = true ∧ accepts widest (2 ^ 61 + 1) = false ∧
      (∀ mask < 2 ^ widest.numVariables,
        accepts widest mask = widest.isSatisfiedBy (solutionOf widest mask)) ∧
      Set.BijOn (solutionOf widest) {mask | mask < 2 ^ widest.numVariables}
        {literals | widest.IsAssignment literals} ∧
      widest.isSatisfiedBy (solutionOfWord widest 0x6000000000000001) = true ∧
      Set.BijOn (solutionOfWord widest) {word | word < 1 <<< UInt64.ofNat widest.numVariables}
        {literals | widest.IsAssignment literals} := by
  have wellFormed : widest.WellFormed := by decide
  have few : widest.numVariables ≤ maxLimit := by decide
  obtain ⟨agree, masks, onWords⟩ := masks_are_assignments wellFormed
  obtain ⟨agreeOnWords, words⟩ := onWords few
  refine ⟨wellFormed, rfl, rfl, agree, masks, ?_, words⟩
  rw [← agreeOnWords _ (by decide)]
  rfl

end Enumeration

end Backbone
