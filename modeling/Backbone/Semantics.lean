import Backbone.Formula

/-!
# Solutions

What a formula says.  A valuation gives each variable a truth value; a solution is a valuation
under which every clause has a literal that holds.

* `Valuation.Holds`, `Formula.IsSolution` — truth of a literal and of a formula;
* `Formula.Entails` — a literal holds in every solution;
* `Formula.IsCore` — a list holds exactly the entailed literals of the formula's variables;
* `isSolution_assume` — assumptions narrow the solutions to those in which they hold.
-/

namespace Backbone

/-- A truth value for each variable. -/
abbrev Valuation := Nat → Bool

/-- The literal is true under the valuation.  Zero is no literal and never true. -/
def Valuation.Holds (valuation : Valuation) (literal : Literal) : Prop :=
  literal ≠ 0 ∧ valuation literal.var = decide (0 < literal)

instance (valuation : Valuation) (literal : Literal) : Decidable (valuation.Holds literal) :=
  inferInstanceAs (Decidable (_ ∧ _))

/-- A literal and its negation are never both true, nor both false. -/
theorem Valuation.holds_neg {valuation : Valuation} {literal : Literal} (h : literal ≠ 0) :
    valuation.Holds (-literal) ↔ ¬valuation.Holds literal := by
  have flip : decide (0 < -literal) = !decide (0 < literal) := by
    rw [← decide_not]
    exact decide_eq_decide.2 (by simp only [Literal] at *; omega)
  have nonzero : -literal ≠ 0 := by simpa using h
  simp only [Holds, Literal.var, Int.natAbs_neg, flip, h, nonzero, ne_eq, not_false_eq_true,
    true_and]
  cases valuation (Int.natAbs literal) <;> cases decide (0 < literal) <;> decide

namespace Formula

/-- Every clause has a literal that is true under the valuation. -/
def IsSolution (formula : Formula) (valuation : Valuation) : Prop :=
  ∀ clause ∈ formula.clauses, ∃ literal ∈ clause, valuation.Holds literal

instance (formula : Formula) (valuation : Valuation) : Decidable (formula.IsSolution valuation) :=
  inferInstanceAs (Decidable (∀ clause ∈ formula.clauses, ∃ literal ∈ clause, _))

/-- There is a solution. -/
def Satisfiable (formula : Formula) : Prop := ∃ valuation, formula.IsSolution valuation

/-- The literal is true in every solution. -/
def Entails (formula : Formula) (literal : Literal) : Prop :=
  ∀ valuation, formula.IsSolution valuation → valuation.Holds literal

/-- The clauses mention only variables of the formula. -/
def WellFormed (formula : Formula) : Prop :=
  ∀ clause ∈ formula.clauses, ∀ literal ∈ clause, formula.declares literal.var = true

instance (formula : Formula) : Decidable formula.WellFormed :=
  inferInstanceAs (Decidable (∀ clause ∈ formula.clauses, ∀ literal ∈ clause, _ = true))

/-- The list holds, each once, the literals of the formula's variables that are true in every
solution. -/
def IsCore (formula : Formula) (core : List Literal) : Prop :=
  core.Nodup ∧ ∀ literal : Literal,
    literal ∈ core ↔ formula.declares literal.var = true ∧ formula.Entails literal

theorem isSolution_push {formula : Formula} {clause : Clause} {valuation : Valuation} :
    (formula.push clause).IsSolution valuation ↔
      formula.IsSolution valuation ∧ ∃ literal ∈ clause, valuation.Holds literal := by
  simp only [IsSolution, push, List.mem_append, List.mem_singleton]
  constructor
  · exact fun all => ⟨fun c hc => all c (.inl hc), all clause (.inr rfl)⟩
  · rintro ⟨all, last⟩ c (hc | rfl)
    · exact all c hc
    · exact last

theorem isSolution_assume {formula : Formula} {literals : List Literal} {valuation : Valuation} :
    (formula.assume literals).IsSolution valuation ↔
      formula.IsSolution valuation ∧ ∀ literal ∈ literals, valuation.Holds literal := by
  induction literals generalizing formula with
  | nil => simp
  | cons literal literals ih =>
    rw [assume_cons, ih, isSolution_push]
    simp [and_assoc]

theorem WellFormed.assume {formula : Formula} (wellFormed : formula.WellFormed)
    {literal : Literal} (declared : formula.declares literal.var = true) :
    (formula.assume [literal]).WellFormed := by
  intro clause inside
  rcases List.mem_append.1 inside with old | new
  · exact wellFormed clause old
  · rw [List.map_singleton, List.mem_singleton] at new
    subst new
    intro other member
    rw [List.mem_singleton.1 member]
    exact declared

end Formula

end Backbone
