import Backbone.Text.Numeral

/-!
# Literals and lists of literals

A variable is a positive natural number.  A literal is a nonzero integer: its magnitude is the
variable, its sign says whether the variable holds.  Cores, solutions and atomic sets are all
lists of literals; the order is the one in which they were found, and it is kept.

Literals are signed numbers of 64 bits.  What does not fit wraps around, so the least literal is its
own negation, and an index of `2 ^ 63` or more turns into a literal of another variable.

* `Literal.var` — the variable of a literal;
* `Literal.wrap` — the literal that an integer wraps around to;
* `Literal.ofIndex`, `Literal.negate` — the literal of an index of 64 bits, and the literal with
  the opposite sign, both of which wrap around;
* `Literals.flipped` — the literals of one list whose negation is in another;
* `Literals.text`, `Literals.json` — written forms.
-/

namespace Backbone

/-- A variable with a sign. -/
abbrev Literal := Int

/-- A disjunction of literals. -/
abbrev Clause := List Literal

namespace Literal

/-- The variable of a literal. -/
def var (literal : Literal) : Nat := literal.natAbs

/-- The literal that an integer wraps around to. -/
def wrap (n : Int) : Literal := Int.bmod n Text.unsignedBound

/-- The positive literal of an index, unless the index wraps around. -/
def ofIndex (index : Nat) : Literal := wrap index

/-- The literal with the opposite sign.  The least literal has none and stays as it is. -/
def negate (literal : Literal) : Literal := wrap (-literal)

theorem wrap_of_lt {n : Int} (h : n.natAbs < Text.signedBound) : wrap n = n := by
  simp only [Text.signedBound] at h
  exact Int.bmod_eq_of_le (by simp only [Text.unsignedBound]; omega)
    (by simp only [Text.unsignedBound]; omega)

theorem ofIndex_of_lt {index : Nat} (h : index < Text.signedBound) : ofIndex index = index :=
  wrap_of_lt (by rwa [Int.natAbs_natCast])

theorem negate_of_lt {literal : Literal} (h : literal.var < Text.signedBound) :
    literal.negate = -literal :=
  wrap_of_lt (by rwa [Int.natAbs_neg])

theorem var_ofIndex_of_lt {index : Nat} (h : index < Text.signedBound) :
    (ofIndex index).var = index := by
  rw [ofIndex_of_lt h]
  exact Int.natAbs_natCast index

/-- An index that wraps around turns into a literal of the variable that is left to the bound. -/
theorem var_ofIndex_of_ge {index : Nat} (above : Text.signedBound ≤ index)
    (small : index < Text.unsignedBound) :
    (ofIndex index).var = Text.unsignedBound - index := by
  have bound : Text.unsignedBound = 18446744073709551616 := rfl
  simp only [Text.signedBound, Text.unsignedBound] at above small
  rw [var, ofIndex, wrap, Int.bmod_def, bound]
  split <;> omega

@[simp]
theorem var_neg (literal : Literal) : (-literal).var = literal.var := Int.natAbs_neg literal

theorem var_wrap_le (n : Int) : (wrap n).var ≤ Text.signedBound := by
  have bounds : Text.unsignedBound = 18446744073709551616 ∧
      Text.signedBound = 9223372036854775808 := ⟨rfl, rfl⟩
  rw [var, wrap, Int.bmod_def, bounds.1, bounds.2]
  split <;> omega

/-- Negation keeps the variable, also where it keeps the sign. -/
theorem var_negate {literal : Literal} (h : literal.var ≤ Text.signedBound) :
    literal.negate.var = literal.var := by
  have bounds : Text.unsignedBound = 18446744073709551616 ∧
      Text.signedBound = 9223372036854775808 := ⟨rfl, rfl⟩
  rw [bounds.2, var] at h
  rw [var, var, negate, wrap, Int.bmod_def, bounds.1]
  split <;> omega

end Literal

/-! ### Lists of literals -/

namespace Literals

/-- The variables of the literals, in their order. -/
def vars (literals : List Literal) : List Nat := literals.map Literal.var

/-- The literals with opposite signs. -/
def negate (literals : List Literal) : List Literal := literals.map Literal.negate

/-- The literals whose negation is among `others`. -/
def flipped (literals others : List Literal) : List Literal :=
  literals.filter fun literal => others.contains literal.negate

/-- The positive literals. -/
def positive (literals : List Literal) : List Literal := literals.filter fun literal => 0 < literal

/-- The negative literals. -/
def negative (literals : List Literal) : List Literal := literals.filter fun literal => literal < 0

@[simp]
theorem mem_flipped {literals others : List Literal} {literal : Literal} :
    literal ∈ flipped literals others ↔ literal ∈ literals ∧ literal.negate ∈ others := by
  simp [flipped]

/-- The numerals of the literals with a space between them. -/
def text (literals : List Literal) : List Char :=
  [' '].intercalate (literals.map Text.intNumeral)

/-- The literals as a JSON list of numbers. -/
def json (literals : List Literal) : List Char :=
  '[' :: ([','].intercalate (literals.map Text.intNumeral) ++ [']'])

end Literals

end Backbone
