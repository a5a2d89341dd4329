/-!
# Blank characters, trimming and words

Two notions of empty space occur in the formats of this library:

* `isBlank` — the characters of the Unicode class `White_Space`; texts are trimmed (`trim`) and
  cut into words (`words`) at these;
* `isGap` — a space or a tab, the only characters that separate the parts of one DIMACS line.

Every gap is blank (`isBlank_of_isGap`), and a trimmed text neither starts nor ends blank.
-/

namespace Backbone.Text

/-- Membership in the Unicode class `White_Space`. -/
def isBlank (c : Char) : Bool :=
  let n := c.toNat
  (0x09 ≤ n && n ≤ 0x0d) || n == 0x20 || n == 0x85 || n == 0xa0 || n == 0x1680
    || (0x2000 ≤ n && n ≤ 0x200a) || n == 0x2028 || n == 0x2029 || n == 0x202f
    || n == 0x205f || n == 0x3000

/-- A space or a tab. -/
def isGap (c : Char) : Bool := c == ' ' || c == '\t'

theorem isBlank_of_isGap {c : Char} (h : isGap c = true) : isBlank c = true := by
  simp only [isGap, Bool.or_eq_true, beq_iff_eq] at h
  rcases h with rfl | rfl <;> decide

/-! ### Trimming -/

/-- The text without the blanks it starts with. -/
def trimStart (text : List Char) : List Char := text.dropWhile isBlank

/-- The text without the blanks it ends with. -/
def trimEnd (text : List Char) : List Char := (text.reverse.dropWhile isBlank).reverse

/-- The text without the blanks at either end. -/
def trim (text : List Char) : List Char := trimEnd (trimStart text)

/-! ### Words -/

/-- The maximal runs of characters that are not blank, in order. -/
def words (text : List Char) : List (List Char) :=
  (text.splitOnP isBlank).filter fun word => !word.isEmpty

end Backbone.Text
