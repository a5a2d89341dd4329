import Mathlib.Data.List.Basic
import Mathlib.Data.List.TakeWhile
import Backbone.Text.Numeral
import Backbone.Proofs.Text.Lines

/-!
# Numerals that are read back

The written form of a number, and what is read where it stands at the start of a text.  Digits are
neither signs nor blanks nor gaps, which is all that the readers of whole lines need to know.

* `HasNumberEnd` — a text that a numeral in front of it does not run into;
* `readSign_intNumeral` — the sign and the digits of a written number;
* `readSigned?_intNumeral` — a number in the signed range is read back;
* `readDigits?_eq_some_iff`, `readSigned?_eq_some_iff` — all texts that are read as a number.
-/

namespace Backbone.Text

variable {c : Char} {rest : List Char}

/-- The number can be held in 64 bits with a sign. -/
def InSignedRange (value : Int) : Prop := -(signedBound : Int) ≤ value ∧ value < signedBound

instance (value : Int) : Decidable (InSignedRange value) := inferInstanceAs (Decidable (_ ∧ _))

theorem inSignedRange_neg {value : Int} (small : value.natAbs < signedBound) :
    InSignedRange value ∧ InSignedRange (-value) := by
  simp only [InSignedRange]
  omega

/-! ### Digits -/

theorem toNat_of_isDigit (digit : c.isDigit = true) : 48 ≤ c.toNat ∧ c.toNat ≤ 57 := by
  rw [Char.isDigit, Bool.and_eq_true, decide_eq_true_eq, decide_eq_true_eq,
    ge_iff_le, UInt32.le_iff_toNat_le, UInt32.le_iff_toNat_le] at digit
  exact digit

theorem isBlank_of_isDigit (digit : c.isDigit = true) : isBlank c = false := by
  have range := toNat_of_isDigit digit
  simp only [isBlank, Bool.or_eq_false_iff, Bool.and_eq_false_iff, decide_eq_false_iff_not,
    beq_eq_false_iff_ne, ne_eq]
  omega

theorem isGap_of_isDigit (digit : c.isDigit = true) : isGap c = false := by
  rw [← Bool.not_eq_true]
  intro gap
  have blank := isBlank_of_isGap gap
  rw [isBlank_of_isDigit digit] at blank
  cases blank

theorem isDigit_of_mem_natNumeral {n : Nat} (member : c ∈ natNumeral n) : c.isDigit = true :=
  Nat.isDigit_of_mem_toDigits (by decide) (by decide) member

theorem natNumeral_ne_nil (n : Nat) : natNumeral n ≠ [] := Nat.toDigits_ne_nil

theorem natNumeral_eq_cons (n : Nat) :
    ∃ digit digits, natNumeral n = digit :: digits ∧ digit.isDigit = true := by
  obtain ⟨digit, digits, numeral⟩ := List.exists_cons_of_ne_nil (natNumeral_ne_nil n)
  refine ⟨digit, digits, numeral, isDigit_of_mem_natNumeral (n := n) ?_⟩
  rw [numeral]
  exact List.mem_cons_self

/-- The text does not start with a digit. -/
def HasNumberEnd (text : List Char) : Prop := ∀ c ∈ text.head?, c.isDigit = false

instance (text : List Char) : Decidable (HasNumberEnd text) :=
  Option.decidableForallMem text.head?

theorem hasNumberEnd_nil : HasNumberEnd [] := by
  intro c first
  cases first

theorem hasNumberEnd_space (rest : List Char) : HasNumberEnd (' ' :: rest) := by
  intro c first
  cases first
  decide

theorem HasNumberEnd.of_append {front back : List Char} (ends : HasNumberEnd (front ++ back)) :
    HasNumberEnd front := by
  intro c first
  exact ends c (List.mem_head?_append_of_mem_head? first)

theorem takeWhile_isDigit_append (ends : HasNumberEnd rest) (text : List Char) :
    (text ++ rest).takeWhile Char.isDigit = text.takeWhile Char.isDigit := by
  induction text with
  | nil =>
    cases rest with
    | nil => rfl
    | cons c rest =>
      rw [List.nil_append, List.takeWhile_cons_of_neg (by simp [ends c rfl]), List.takeWhile_nil]
  | cons c text ih => rw [List.cons_append, List.takeWhile_cons, List.takeWhile_cons, ih]

theorem dropWhile_isDigit_append (ends : HasNumberEnd rest) (text : List Char) :
    (text ++ rest).dropWhile Char.isDigit = text.dropWhile Char.isDigit ++ rest := by
  have whole : (text ++ rest).takeWhile Char.isDigit ++ (text ++ rest).dropWhile Char.isDigit =
      text.takeWhile Char.isDigit ++ (text.dropWhile Char.isDigit ++ rest) := by
    rw [List.takeWhile_append_dropWhile, ← List.append_assoc, List.takeWhile_append_dropWhile]
  rw [takeWhile_isDigit_append ends] at whole
  exact List.append_cancel_left whole

theorem takeWhile_isDigit_natNumeral (n : Nat) (ends : HasNumberEnd rest) :
    (natNumeral n ++ rest).takeWhile Char.isDigit = natNumeral n := by
  rw [takeWhile_isDigit_append ends, List.takeWhile_eq_self_iff]
  exact fun c member => isDigit_of_mem_natNumeral member

theorem dropWhile_isDigit_natNumeral (n : Nat) (ends : HasNumberEnd rest) :
    (natNumeral n ++ rest).dropWhile Char.isDigit = rest := by
  rw [dropWhile_isDigit_append ends, List.dropWhile_eq_nil_iff.2, List.nil_append]
  exact fun c member => isDigit_of_mem_natNumeral member

/-! ### Signs -/

theorem intNumeral_of_nonneg {value : Int} (nonneg : 0 ≤ value) :
    intNumeral value = natNumeral value.natAbs := by
  obtain ⟨n, rfl⟩ := Int.eq_ofNat_of_zero_le nonneg
  rfl

theorem intNumeral_of_neg {value : Int} (negative : value < 0) :
    intNumeral value = '-' :: natNumeral value.natAbs := by
  obtain ⟨n, rfl⟩ := Int.eq_negSucc_of_lt_zero negative
  rfl

/-- The first character of a written number is a minus sign or a digit. -/
theorem intNumeral_eq_cons (value : Int) :
    ∃ c rest, intNumeral value = c :: rest ∧ (c = '-' ∨ c.isDigit = true) := by
  by_cases negative : value < 0
  · exact ⟨'-', _, intNumeral_of_neg negative, .inl rfl⟩
  · obtain ⟨digit, digits, numeral, isDigit⟩ := natNumeral_eq_cons value.natAbs
    exact ⟨digit, digits, (intNumeral_of_nonneg (by omega)).trans numeral, .inr isDigit⟩

theorem mem_intNumeral {value : Int} (member : c ∈ intNumeral value) :
    c = '-' ∨ c.isDigit = true := by
  by_cases negative : value < 0
  · rw [intNumeral_of_neg negative, List.mem_cons] at member
    exact member.imp_right isDigit_of_mem_natNumeral
  · rw [intNumeral_of_nonneg (by omega)] at member
    exact .inr (isDigit_of_mem_natNumeral member)

/-- A digit is no sign. -/
theorem readSign_of_isDigit (digit : c.isDigit = true) :
    readSign (c :: rest) = (false, c :: rest) := by
  rw [readSign]
  · intro text same
    cases same
    exact absurd digit (by decide)
  · intro text same
    cases same
    exact absurd digit (by decide)

theorem readSign_natNumeral (n : Nat) (rest : List Char) :
    readSign (natNumeral n ++ rest) = (false, natNumeral n ++ rest) := by
  obtain ⟨digit, digits, numeral, isDigit⟩ := natNumeral_eq_cons n
  rw [numeral, List.cons_append, readSign_of_isDigit isDigit]

theorem readSign_append {text : List Char} (some_ : text ≠ []) (rest : List Char) :
    readSign (text ++ rest) = ((readSign text).1, (readSign text).2 ++ rest) := by
  fun_cases readSign text with
  | case1 text => rfl
  | case2 text => rfl
  | case3 text minus plus =>
    obtain ⟨c, text, rfl⟩ := List.exists_cons_of_ne_nil some_
    rw [List.cons_append, readSign]
    · intro digits same
      cases same
      exact minus text rfl
    · intro digits same
      cases same
      exact plus text rfl

theorem readSign_suffix (text : List Char) : (readSign text).2 <:+ text := by
  fun_cases readSign text with
  | case1 text => exact List.suffix_cons '-' text
  | case2 text => exact List.suffix_cons '+' text
  | case3 => exact List.suffix_rfl

theorem readSign_intNumeral (value : Int) (rest : List Char) :
    readSign (intNumeral value ++ rest) =
      (decide (value < 0), natNumeral value.natAbs ++ rest) := by
  by_cases negative : value < 0
  · rw [intNumeral_of_neg negative, decide_eq_true negative]
    rfl
  · rw [intNumeral_of_nonneg (by omega), decide_eq_false negative, readSign_natNumeral]

theorem signedValue?_natNumeral {value : Int} (range : InSignedRange value) :
    signedValue? (decide (value < 0)) (natNumeral value.natAbs) = some value := by
  obtain ⟨low, high⟩ := range
  rw [signedValue?, digitsValue_natNumeral]
  by_cases negative : value < 0
  · rw [decide_eq_true negative, if_pos rfl, if_pos (by omega)]
    congr 1
    omega
  · rw [decide_eq_false negative, if_neg Bool.false_ne_true, if_pos (by omega)]
    congr 1
    omega

theorem readSigned?_intNumeral {value : Int} (range : InSignedRange value) :
    readSigned? (intNumeral value) = some value := by
  have sign := readSign_intNumeral value []
  rw [List.append_nil, List.append_nil] at sign
  rw [readSigned?, sign]
  show (if isDigits (natNumeral value.natAbs) = true then _ else _) = _
  rw [if_pos (isDigits_natNumeral _)]
  exact signedValue?_natNumeral range

/-! ### Blanks and ends -/

theorem isBlank_of_mem_intNumeral {value : Int} (member : c ∈ intNumeral value) :
    isBlank c = false := by
  rcases mem_intNumeral member with rfl | digit
  · decide
  · exact isBlank_of_isDigit digit

theorem trim_intNumeral (value : Int) : trim (intNumeral value) = intNumeral value := by
  refine trim_eq_self_iff.2 ⟨?_, ?_⟩
  · intro c first
    exact isBlank_of_mem_intNumeral (List.mem_of_mem_head? first)
  · intro c last
    exact isBlank_of_mem_intNumeral (List.mem_of_mem_getLast? last)

theorem signedValue?_inSignedRange {negative : Bool} {digits : List Char} {value : Int}
    (read : signedValue? negative digits = some value) : InSignedRange value := by
  have bound : 0 < signedBound := by decide
  rw [signedValue?] at read
  rw [InSignedRange]
  split at read <;> split at read
  · cases read
    omega
  · cases read
  · cases read
    omega
  · cases read

/-! ### All numerals -/

theorem readDigits?_eq_some_iff {digits : List Char} {value : Nat} :
    readDigits? digits = some value ↔
      isDigits digits = true ∧ digitsValue digits = value ∧ value < unsignedBound := by
  rw [readDigits?]
  split
  · rename_i fine
    rw [Bool.and_eq_true, decide_eq_true_eq] at fine
    constructor
    · intro same
      cases same
      exact ⟨fine.1, rfl, fine.2⟩
    · rintro ⟨-, rfl, -⟩
      rfl
  · rename_i unfit
    rw [Bool.and_eq_true, decide_eq_true_eq] at unfit
    constructor
    · intro same
      cases same
    · rintro ⟨digits, rfl, small⟩
      exact absurd ⟨digits, small⟩ unfit

/-- The text is a number in the signed range: decimal digits, of which the first ones may be zeros,
after a sign or none. -/
inductive IsSignedNumeral : List Char → Int → Prop
  | plain {digits : List Char} : isDigits digits = true → digitsValue digits < signedBound →
      IsSignedNumeral digits (digitsValue digits)
  | plus {digits : List Char} : isDigits digits = true → digitsValue digits < signedBound →
      IsSignedNumeral ('+' :: digits) (digitsValue digits)
  | minus {digits : List Char} : isDigits digits = true → digitsValue digits ≤ signedBound →
      IsSignedNumeral ('-' :: digits) (-digitsValue digits)

theorem isDigit_of_isDigits {digits : List Char} (fine : isDigits digits = true)
    (member : c ∈ digits) : c.isDigit = true := by
  rw [isDigits, Bool.and_eq_true] at fine
  exact List.all_eq_true.1 fine.2 c member

theorem readSign_of_isDigits {digits : List Char} (fine : isDigits digits = true) :
    readSign digits = (false, digits) := by
  cases digits with
  | nil => rfl
  | cons digit digits => exact readSign_of_isDigit (isDigit_of_isDigits fine List.mem_cons_self)

theorem readSigned?_eq_some_iff {text : List Char} {value : Int} :
    readSigned? text = some value ↔ IsSignedNumeral text value := by
  constructor
  · intro read
    rw [readSigned?] at read
    obtain ⟨fine, inRange⟩ : isDigits (readSign text).2 = true ∧
        signedValue? (readSign text).1 (readSign text).2 = some value := by
      simpa using read
    revert fine inRange
    -- one case for each way to write the sign
    fun_cases readSign text with
    | case1 digits =>
      intro fine inRange
      obtain ⟨small, rfl⟩ : digitsValue digits ≤ signedBound ∧ -(digitsValue digits : Int) = value := by
        simpa [signedValue?] using inRange
      exact .minus fine small
    | case2 digits =>
      intro fine inRange
      obtain ⟨small, rfl⟩ : digitsValue digits < signedBound ∧ (digitsValue digits : Int) = value := by
        simpa [signedValue?] using inRange
      exact .plus fine small
    | case3 =>
      intro fine inRange
      obtain ⟨small, rfl⟩ : digitsValue text < signedBound ∧ (digitsValue text : Int) = value := by
        simpa [signedValue?] using inRange
      exact .plain fine small
  · intro numeral
    cases numeral with
    | plain fine small =>
      simp only [readSigned?, readSign_of_isDigits fine, fine, signedValue?, small, if_true,
        Bool.false_eq_true, if_false]
    | plus fine small =>
      simp only [readSigned?, readSign, fine, signedValue?, small, if_true, Bool.false_eq_true,
        if_false]
    | minus fine small =>
      simp only [readSigned?, readSign, fine, signedValue?, small, if_true]

theorem isBlank_of_isSignedNumeral {text : List Char} {value : Int}
    (numeral : IsSignedNumeral text value) (member : c ∈ text) : isBlank c = false := by
  cases numeral with
  | plain fine _ => exact isBlank_of_isDigit (isDigit_of_isDigits fine member)
  | plus fine _ | minus fine _ =>
    rcases List.mem_cons.1 member with rfl | digit
    · decide
    · exact isBlank_of_isDigit (isDigit_of_isDigits fine digit)

end Backbone.Text
