import Backbone.Semantics
import Mathlib.Data.List.Nodup
import Mathlib.Data.List.Perm.Subperm

/-!
# Literals that go together

Two literals are equivalent in a formula if every solution makes both true or neither.  The
literals equivalent to one variable make up its class.  A class can be found from two cores: those
under the variable and under its negation.

* `Equivalent`, `Fixed`, `Coupled` — equivalence of literals, variables with only one value, and
  equivalence of variables up to sign;
* `IsClass` — a list holds exactly the literals that are equivalent to a variable;
* `equivalent_of_entails` — what flips between the two cores is equivalent to the variable, however
  little of the cores is known;
* `ofIndex_of_declares`, `negate_of_declares` — with variables in the signed range, literals of the
  formula are what they seem;
* `isClass_of_flipped` — from whole cores the whole class is found;
* `isClass_singleton` — a core that grows by no more than the variable leaves it alone.
-/

namespace Backbone

theorem Literal.eq_or_eq_neg_of_var_eq {literal : Literal} {index : Nat}
    (h : literal.var = index) : literal = index ∨ literal = -(index : Literal) := by
  simp only [var, Literal] at *
  omega

namespace Formula

variable {formula : Formula}

theorem cast_ne_zero_of_declares {index : Nat} (h : formula.declares index = true) :
    (index : Literal) ≠ 0 := by
  rw [declares_iff] at h
  exact Int.natCast_ne_zero.2 (by omega)

section Bounded

/-! No literal of a variable of the formula wraps around. -/

variable (small : formula.numVariables < Text.signedBound)

include small

theorem ofIndex_of_declares {index : Nat} (declared : formula.declares index = true) :
    Literal.ofIndex index = index :=
  Literal.ofIndex_of_lt (Nat.lt_of_le_of_lt (declares_iff.1 declared).2 small)

theorem negate_of_declares {literal : Literal} (declared : formula.declares literal.var = true) :
    literal.negate = -literal :=
  Literal.negate_of_lt (Nat.lt_of_le_of_lt (declares_iff.1 declared).2 small)

end Bounded

/-! ### Equivalence -/

/-- Every solution makes both literals true or neither. -/
def Equivalent (formula : Formula) (a b : Literal) : Prop :=
  ∀ valuation, formula.IsSolution valuation → (valuation.Holds a ↔ valuation.Holds b)

/-- The variable has the same value in all solutions. -/
def Fixed (formula : Formula) (index : Nat) : Prop :=
  formula.Entails index ∨ formula.Entails (-(index : Literal))

/-- The variables have equal values in all solutions, or opposite values in all of them. -/
def Coupled (formula : Formula) (a b : Nat) : Prop :=
  formula.Equivalent a b ∨ formula.Equivalent a (-(b : Literal))

/-- The list holds, each once, the literals of the formula's variables that are equivalent to the
variable. -/
def IsClass (formula : Formula) (index : Nat) (members : List Literal) : Prop :=
  members.Nodup ∧ ∀ literal : Literal,
    literal ∈ members ↔ formula.declares literal.var = true ∧ formula.Equivalent literal index

theorem Equivalent.refl (a : Literal) : formula.Equivalent a a := fun _ _ => Iff.rfl

theorem Equivalent.symm {a b : Literal} (h : formula.Equivalent a b) : formula.Equivalent b a :=
  fun valuation solution => (h valuation solution).symm

theorem Equivalent.trans {a b c : Literal} (first : formula.Equivalent a b)
    (second : formula.Equivalent b c) : formula.Equivalent a c :=
  fun valuation solution => (first valuation solution).trans (second valuation solution)

theorem Equivalent.neg {a b : Literal} (nonzeroA : a ≠ 0) (nonzeroB : b ≠ 0)
    (h : formula.Equivalent a b) : formula.Equivalent (-a) (-b) := by
  intro valuation solution
  rw [Valuation.holds_neg nonzeroA, Valuation.holds_neg nonzeroB, h valuation solution]

theorem Equivalent.neg_left {a b : Literal} (nonzeroA : a ≠ 0) (nonzeroB : b ≠ 0)
    (h : formula.Equivalent a (-b)) : formula.Equivalent (-a) b := by
  have negated := h.neg nonzeroA (by simpa using nonzeroB)
  rwa [Int.neg_neg] at negated

theorem Equivalent.entails {a b : Literal} (h : formula.Equivalent a b)
    (entails : formula.Entails a) : formula.Entails b :=
  fun valuation solution => (h valuation solution).1 (entails valuation solution)

theorem Coupled.symm {a b : Nat} (nonzeroA : (a : Literal) ≠ 0) (nonzeroB : (b : Literal) ≠ 0)
    (h : formula.Coupled a b) : formula.Coupled b a := by
  rcases h with same | opposite
  · exact .inl same.symm
  · exact .inr (opposite.neg_left nonzeroA nonzeroB).symm

theorem Coupled.trans {a b c : Nat} (nonzeroB : (b : Literal) ≠ 0) (nonzeroC : (c : Literal) ≠ 0)
    (first : formula.Coupled a b) (second : formula.Coupled b c) : formula.Coupled a c := by
  rcases first with same | opposite <;> rcases second with same' | opposite'
  · exact .inl (same.trans same')
  · exact .inr (same.trans opposite')
  · exact .inr (opposite.trans (same'.neg nonzeroB nonzeroC))
  · exact .inl (opposite.trans (opposite'.neg_left nonzeroB nonzeroC))

/-- A variable that goes together with one of only one value has only one value, too. -/
theorem Fixed.of_coupled {a b : Nat} (nonzeroA : (a : Literal) ≠ 0) (nonzeroB : (b : Literal) ≠ 0)
    (fixed : formula.Fixed a) (coupled : formula.Coupled a b) : formula.Fixed b := by
  rcases coupled with same | opposite <;> rcases fixed with entails | entails
  · exact .inl (same.entails entails)
  · exact .inr ((same.neg nonzeroA nonzeroB).entails entails)
  · exact .inr (opposite.entails entails)
  · exact .inl ((opposite.neg_left nonzeroA nonzeroB).entails entails)

/-! ### Cores under one assumption -/

theorem entails_assume {a b : Literal} :
    (formula.assume [a]).Entails b ↔
      ∀ valuation, formula.IsSolution valuation → valuation.Holds a → valuation.Holds b := by
  simp [Entails, isSolution_assume]

theorem satisfiable_assume {a : Literal} (nonzero : a ≠ 0) (open_ : ¬formula.Entails (-a)) :
    (formula.assume [a]).Satisfiable := by
  simp only [Entails, not_forall] at open_
  obtain ⟨valuation, solution, refuted⟩ := open_
  rw [Valuation.holds_neg nonzero, not_not] at refuted
  refine ⟨valuation, isSolution_assume.2 ⟨solution, ?_⟩⟩
  simpa using refuted

theorem entails_assume_of_entails {a b : Literal} (h : formula.Entails b) :
    (formula.assume [a]).Entails b :=
  entails_assume.2 fun valuation solution _ => h valuation solution

/-- A literal that holds under `a` and whose negation holds under `-a` is equivalent to `a`. -/
theorem equivalent_of_entails {a literal : Literal} (nonzero : a ≠ 0)
    (positive : (formula.assume [a]).Entails literal)
    (negative : (formula.assume [-a]).Entails (-literal)) : formula.Equivalent literal a := by
  rw [entails_assume] at positive negative
  intro valuation solution
  by_cases holds : valuation.Holds a
  · exact iff_of_true (positive valuation solution holds) holds
  · have opposite := negative valuation solution ((Valuation.holds_neg nonzero).2 holds)
    have member : literal ≠ 0 := by simpa using opposite.1
    exact iff_of_false ((Valuation.holds_neg member).1 opposite) holds

theorem Equivalent.entails_assume {a literal : Literal} (h : formula.Equivalent literal a) :
    (formula.assume [a]).Entails literal :=
  Formula.entails_assume.2 fun valuation solution holds => (h valuation solution).2 holds

/-! ### Classes from cores -/

section Classes

variable {index : Nat} {core positiveCore negativeCore : List Literal}

/-- What flips between the cores under a variable and under its negation is its class. -/
theorem isClass_of_flipped (small : formula.numVariables < Text.signedBound)
    (declared : formula.declares index = true)
    (positive : (formula.assume [(index : Literal)]).IsCore positiveCore)
    (negative : (formula.assume [-(index : Literal)]).IsCore negativeCore) :
    formula.IsClass index (Literals.flipped positiveCore negativeCore) := by
  have nonzero := cast_ne_zero_of_declares declared
  refine ⟨positive.1.filter _, ?_⟩
  intro literal
  rw [Literals.mem_flipped, positive.2]
  constructor
  · intro given
    obtain ⟨⟨known, holds⟩, flips⟩ := given
    rw [negate_of_declares small known, negative.2] at flips
    exact ⟨known, equivalent_of_entails nonzero holds flips.2⟩
  · intro given
    obtain ⟨known, equivalent⟩ := given
    refine ⟨⟨known, equivalent.entails_assume⟩, ?_⟩
    rw [negate_of_declares small known, negative.2]
    refine ⟨?_, ?_⟩
    · rw [declares_assume, Literal.var_neg]
      exact known
    · exact (equivalent.neg (ne_zero_of_declares known) nonzero).entails_assume

/-- A variable is alone in its class if the core under it has at most one literal more than the
core of the formula. -/
theorem isClass_singleton (declared : formula.declares index = true)
    (loose : ¬formula.Fixed index) (whole : formula.IsCore core)
    (positive : (formula.assume [(index : Literal)]).IsCore positiveCore)
    (small : positiveCore.length ≤ core.length + 1) :
    formula.IsClass index [(index : Literal)] := by
  have outside : (index : Literal) ∉ core := fun member => loose (.inl ((whole.2 _).1 member).2)
  have larger : (index : Literal) :: core ⊆ positiveCore := by
    intro literal member
    rw [positive.2]
    rcases List.mem_cons.1 member with rfl | member
    · exact ⟨declared, (Equivalent.refl _).entails_assume⟩
    · obtain ⟨known, entails⟩ := (whole.2 _).1 member
      exact ⟨known, entails_assume_of_entails entails⟩
  -- both lists are free of repetitions, so the sizes leave no room for a further literal
  have exhausted : ((index : Literal) :: core).Perm positiveCore :=
    ((List.nodup_cons.2 ⟨outside, whole.1⟩).subperm larger).perm_of_length_le small
  refine ⟨List.nodup_singleton _, ?_⟩
  intro literal
  rw [List.mem_singleton]
  constructor
  · intro same
    subst same
    exact ⟨declared, .refl _⟩
  · intro given
    obtain ⟨known, equivalent⟩ := given
    have member := exhausted.mem_iff.2 ((positive.2 literal).2 ⟨known, equivalent.entails_assume⟩)
    rcases List.mem_cons.1 member with same | member
    · exact same
    · exact absurd (.inl (equivalent.entails ((whole.2 _).1 member).2)) loose

/-- The variables of a class are those that go together with its variable. -/
theorem IsClass.mem_vars_iff {members : List Literal} (isClass : formula.IsClass index members)
    (declared : formula.declares index = true) {other : Nat}
    (known : formula.declares other = true) :
    other ∈ Literals.vars members ↔ formula.Coupled index other := by
  have nonzero := cast_ne_zero_of_declares declared
  have nonzero' := cast_ne_zero_of_declares known
  rw [Literals.vars, List.mem_map]
  constructor
  · intro given
    obtain ⟨literal, member, rfl⟩ := given
    have equivalent := ((isClass.2 literal).1 member).2
    rcases Literal.eq_or_eq_neg_of_var_eq (rfl : literal.var = literal.var) with same | opposite
    · exact .inl (same ▸ equivalent.symm)
    · exact .inr (opposite ▸ equivalent.symm)
  · intro given
    rcases given with same | opposite
    · exact ⟨other, (isClass.2 _).2 ⟨known, same.symm⟩, rfl⟩
    · refine ⟨-(other : Literal), (isClass.2 _).2 ⟨?_, opposite.symm⟩, ?_⟩
      · rw [Literal.var_neg]
        exact known
      · rw [Literal.var_neg]
        rfl

/-- Two lists with the literals of one class are permutations of each other. -/
theorem IsClass.perm {first second : List Literal} (h : formula.IsClass index first)
    (h' : formula.IsClass index second) : first.Perm second := by
  rw [List.perm_ext_iff_of_nodup h.1 h'.1]
  intro literal
  rw [h.2, h'.2]

theorem IsCore.perm {first second : List Literal} (h : formula.IsCore first)
    (h' : formula.IsCore second) : first.Perm second := by
  rw [List.perm_ext_iff_of_nodup h.1 h'.1]
  intro literal
  rw [h.2, h'.2]

end Classes

end Formula

end Backbone
