/-!
# Decimal numerals of 64-bit range

Numbers are written without leading zeros, a minus sign in front of negative ones.  Reading is
more generous about form and strict about range:

* `readDigits?` — a nonempty run of ASCII digits, leading zeros allowed, of a value below `2 ^ 64`;
* `readUnsigned?` — the same after an optional `+`;
* `readSigned?` — after an optional `+` or `-`, of a value in `-2 ^ 63 ..< 2 ^ 63`.

Anything else, such as a bare sign, a blank or a number out of range, is refused.
-/

namespace Backbone.Text

/-- Bound of the unsigned numbers. -/
def unsignedBound : Nat := 1 <<< 64

/-- Bound of the signed numbers: they run from its negation to just below it. -/
def signedBound : Nat := 1 <<< 63

/-! ### Writing -/

/-- The decimal numeral of a natural number. -/
def natNumeral (n : Nat) : List Char := Nat.toDigits 10 n

/-- The decimal numeral of an integer. -/
def intNumeral : Int → List Char
  | .ofNat n => natNumeral n
  | .negSucc n => '-' :: natNumeral (n + 1)

/-! ### Reading -/

/-- The number that a run of digits denotes. -/
def digitsValue (digits : List Char) : Nat := Nat.ofDigitChars 10 digits 0

/-- Whether the text is a nonempty run of ASCII digits. -/
def isDigits (text : List Char) : Bool := !text.isEmpty && text.all Char.isDigit

/-- An unsigned number written in digits alone. -/
def readDigits? (text : List Char) : Option Nat :=
  if isDigits text && digitsValue text < unsignedBound then some (digitsValue text) else none

/-- An unsigned number with an optional plus sign. -/
def readUnsigned? : List Char → Option Nat
  | '+' :: text => readDigits? text
  | text => readDigits? text

/-- The number with the given sign and digits, if it is in the signed range. -/
def signedValue? (negative : Bool) (digits : List Char) : Option Int :=
  let magnitude := digitsValue digits
  if negative then
    if magnitude ≤ signedBound then some (-(magnitude : Int)) else none
  else
    if magnitude < signedBound then some (magnitude : Int) else none

/-- An optional sign, whether it is a minus, and the text after it. -/
def readSign : List Char → Bool × List Char
  | '-' :: text => (true, text)
  | '+' :: text => (false, text)
  | text => (false, text)

/-- A signed number. -/
def readSigned? (text : List Char) : Option Int :=
  let (negative, digits) := readSign text
  if isDigits digits then signedValue? negative digits else none

/-! ### Laws of the written form -/

theorem isDigits_natNumeral (n : Nat) : isDigits (natNumeral n) = true := by
  have digits : ∀ c ∈ natNumeral n, c.isDigit = true := fun c hc =>
    Nat.isDigit_of_mem_toDigits (by decide) (by decide) hc
  have nonempty : natNumeral n ≠ [] := Nat.toDigits_ne_nil
  simp only [isDigits, Bool.and_eq_true, List.all_eq_true]
  exact ⟨by simpa using nonempty, digits⟩

@[simp]
theorem digitsValue_natNumeral (n : Nat) : digitsValue (natNumeral n) = n :=
  Nat.ofDigitChars_toDigits (by decide) (by decide)

theorem readDigits?_natNumeral {n : Nat} (h : n < unsignedBound) :
    readDigits? (natNumeral n) = some n := by
  simp only [readDigits?, isDigits_natNumeral, digitsValue_natNumeral, Bool.true_and, decide_eq_true_eq, h, if_true]

end Backbone.Text
