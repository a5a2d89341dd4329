import Mathlib.Data.List.Basic
import Mathlib.Data.List.TakeWhile
import Backbone.Proofs.Dimacs.Lexing
import Backbone.Proofs.Text.Lines

/-!
# Lines of numbers that are cut in two

A line of numbers may be cut between any two of them: its two parts are lines of numbers, too, and
hold the numbers on either side.  Between two numbers there are gaps, or just the sign of the second
one.

* `EndsInDigit`, `StartsNumber` — what the two parts are like where they meet;
* `trim_joined` — the line is trimmed at the far ends of its parts;
* `readNumbers_append` — the numbers of both parts, if the reading gets so far;
* `lexLine_cut` — a line that is cut in two.
-/

namespace Backbone.Dimacs

open Text

variable {text rest front gaps back : List Char} {values : List Int}

/-! ### The ends of the two parts -/

/-- The last character is a digit. -/
def EndsInDigit (text : List Char) : Prop := ∃ c ∈ text.getLast?, c.isDigit = true

/-- The first character is a sign or a digit. -/
def StartsNumber (text : List Char) : Prop :=
  ∃ c ∈ text.head?, c = '-' ∨ c = '+' ∨ c.isDigit = true

instance (text : List Char) : Decidable (EndsInDigit text) :=
  Option.decidableExistsMem text.getLast?

instance (text : List Char) : Decidable (StartsNumber text) :=
  Option.decidableExistsMem text.head?

theorem EndsInDigit.ne_nil (ends : EndsInDigit text) : text ≠ [] := by
  rintro rfl
  obtain ⟨c, last, -⟩ := ends
  cases last

theorem StartsNumber.ne_nil (starts : StartsNumber text) : text ≠ [] := by
  rintro rfl
  obtain ⟨c, first, -⟩ := starts
  cases first

theorem EndsInDigit.endsClear (ends : EndsInDigit text) : EndsClear text := by
  obtain ⟨c, last, digit⟩ := ends
  intro d last'
  cases last.symm.trans last'
  exact isBlank_of_isDigit digit

theorem StartsNumber.startsClear (starts : StartsNumber text) : StartsClear text := by
  obtain ⟨c, first, sign⟩ := starts
  intro d first'
  cases first.symm.trans first'
  rcases sign with rfl | rfl | digit
  · decide
  · decide
  · exact isBlank_of_isDigit digit

theorem EndsInDigit.of_suffix (ends : EndsInDigit text) (suffix : rest <:+ text) (some_ : rest ≠ []) :
    EndsInDigit rest := by
  obtain ⟨front, rfl⟩ := suffix
  obtain ⟨c, last, digit⟩ := ends
  exact ⟨c, List.getLast?_append_of_ne_nil front some_ ▸ last, digit⟩

theorem EndsInDigit.skipGaps_ne_nil (ends : EndsInDigit text) : skipGaps text ≠ [] := by
  obtain ⟨c, last, digit⟩ := ends
  intro none
  have gap := List.dropWhile_eq_nil_iff.1 none c (List.mem_of_mem_getLast? last)
  rw [isGap_of_isDigit digit] at gap
  cases gap

theorem StartsNumber.skipGaps_eq (starts : StartsNumber text) : skipGaps text = text :=
  skipGaps_of_head fun c first => isGap_eq_false_of_isBlank (starts.startsClear c first)

theorem EndsInDigit.trim (ends : EndsInDigit text) : EndsInDigit (trim text) := by
  obtain ⟨before, blank, cut⟩ := exists_append_trim ends.endsClear
  refine ends.of_suffix ⟨before, cut.symm⟩ ?_
  obtain ⟨c, last, digit⟩ := ends
  exact trim_ne_nil (List.mem_of_mem_getLast? last) (isBlank_of_isDigit digit)

theorem StartsNumber.trim (starts : StartsNumber text) : StartsNumber (trim text) := by
  obtain ⟨after, blank, cut⟩ := exists_trim_append starts.startsClear
  have clear := starts.startsClear
  obtain ⟨c, first, sign⟩ := starts
  have some_ := trim_ne_nil (List.mem_of_mem_head? first) (clear c first)
  rw [cut, List.head?_append_of_ne_nil _ some_] at first
  exact ⟨c, first, sign⟩

/-- A text that ends in a digit and one that starts a number are trimmed at their far ends only. -/
theorem trim_joined (gaps : List Char) (ends : EndsInDigit front) (starts : StartsNumber back) :
    Text.trim (front ++ gaps ++ back) = Text.trim front ++ gaps ++ Text.trim back := by
  obtain ⟨before, blank, cut⟩ := exists_append_trim ends.endsClear
  obtain ⟨after, blank', cut'⟩ := exists_trim_append starts.startsClear
  refine (trim_eq_iff ?_ ?_).2 ⟨before, after, blank, blank', ?_⟩
  · rw [List.append_assoc]
    exact startsClear_append_of_ne_nil ends.trim.ne_nil (startsClear_trim front)
  · exact endsClear_append_of_ne_nil starts.trim.ne_nil (endsClear_trim back)
  · calc front ++ gaps ++ back
        = before ++ Text.trim front ++ gaps ++ (Text.trim back ++ after) := by rw [← cut, ← cut']
      _ = before ++ (Text.trim front ++ gaps ++ Text.trim back) ++ after := by
          simp only [List.append_assoc]

/-! ### Reading the two parts -/

theorem skipGaps_append_of_ne_nil (some_ : skipGaps text ≠ []) (rest : List Char) :
    skipGaps (text ++ rest) = skipGaps text ++ rest := by
  rw [skipGaps, List.dropWhile_append, if_neg (by simpa [skipGaps] using some_), skipGaps]

theorem readNumber?_append (some_ : text ≠ []) (ends : HasNumberEnd rest) :
    readNumber? (text ++ rest) =
      (readNumber? text).map fun (value, tail) => (value, tail ++ rest) := by
  rw [readNumber?, readNumber?, readSign_append some_]
  simp only [takeWhile_isDigit_append ends, dropWhile_isDigit_append ends]
  cases (readSign text).2.takeWhile Char.isDigit with
  | nil => rfl
  | cons digit digits =>
    simp only [Option.map_map]
    rfl

theorem readNumber?_suffix {value : Int} (read : readNumber? text = some (value, rest)) :
    rest <:+ text := by
  simp only [readNumber?] at read
  split at read
  · cases read
  · obtain ⟨number, -, same⟩ := Option.map_eq_some_iff.1 read
    cases same
    exact (List.dropWhile_suffix Char.isDigit).trans (readSign_suffix text)

/-- The first number is the same with a rest that does not go on with its digits. -/
theorem readNumber?_skipGaps_append (ends : EndsInDigit text) (numberEnd : HasNumberEnd rest) :
    readNumber? (skipGaps (text ++ rest)) =
      (readNumber? (skipGaps text)).map fun (value, tail) => (value, tail ++ rest) := by
  rw [skipGaps_append_of_ne_nil ends.skipGaps_ne_nil,
    readNumber?_append ends.skipGaps_ne_nil numberEnd]

/-- Where a number ends the front, whatever follows is read on its own, unless the reading has come
to a halt before. -/
theorem readNumbers_append (ends : EndsInDigit text) (numberEnd : HasNumberEnd rest) :
    ((readNumbers text).2 = [] ∧ readNumbers (text ++ rest) =
      ((readNumbers text).1 ++ (readNumbers rest).1, (readNumbers rest).2)) ∨
    (EndsInDigit (readNumbers text).2 ∧ readNumbers (text ++ rest) =
      ((readNumbers text).1, (readNumbers text).2 ++ rest)) := by
  have number := readNumber?_skipGaps_append ends numberEnd
  induction text using readNumbers.induct with
  | case1 text nothing =>
    rw [nothing] at number
    rw [readNumbers_of_none nothing, readNumbers_of_none number]
    exact .inr ⟨ends, rfl⟩
  | case2 text value tail read shorter values last later ih =>
    rw [read] at number
    rw [readNumbers_of_some read, readNumbers_of_some number]
    by_cases done : tail = []
    · rw [done, readNumbers_of_none (by rfl)]
      exact .inl ⟨rfl, rfl⟩
    · have ends' := ends.of_suffix
        ((readNumber?_suffix read).trans (List.dropWhile_suffix isGap)) done
      rcases ih ends' (readNumber?_skipGaps_append ends' numberEnd) with
        ⟨none, same⟩ | ⟨some_, same⟩
      · exact .inl ⟨none, by rw [same]; rfl⟩
      · exact .inr ⟨some_, by rw [same]⟩

/-- The two parts of a line of numbers that is cut between two of these hold the numbers on either
side. -/
theorem lexLine_cut (lexed : lexLine (front ++ gaps ++ back) = .ok (.numbers values))
    (ends : EndsInDigit front) (allGaps : ∀ c ∈ gaps, isGap c = true) (starts : StartsNumber back)
    (numberEnd : HasNumberEnd (gaps ++ back)) :
    ∃ first second, values = first ++ second ∧ lexLine front = .ok (.numbers first) ∧
      lexLine back = .ok (.numbers second) := by
  obtain ⟨some_, same, rest⟩ := lexLine_eq_numbers_iff.1 lexed
  rw [List.append_assoc] at same rest
  have apart : skipGaps (gaps ++ back) = skipGaps back := List.dropWhile_append_of_pos allGaps
  rcases readNumbers_append ends numberEnd with ⟨whole, read⟩ | ⟨stuck, read⟩
  · rw [read] at same rest
    have first : (readNumbers front).1 ≠ [] := by
      intro none
      rw [readNumbers_of_empty none] at whole
      exact ends.ne_nil whole
    cases number : readNumber? (skipGaps back) with
    | none =>
      rw [← apart] at number
      rw [readNumbers_of_none number, apart, starts.skipGaps_eq] at rest
      exact absurd rest starts.ne_nil
    | some found =>
      have alike : readNumbers (gaps ++ back) = readNumbers back := by
        rw [readNumbers_of_some number, readNumbers_of_some (apart ▸ number)]
      have second : (readNumbers back).1 ≠ [] := by
        rw [readNumbers_of_some number]
        exact List.cons_ne_nil _ _
      rw [alike] at same rest
      exact ⟨_, _, same.symm, lexLine_eq_numbers_iff.2 ⟨first, rfl, by rw [whole]; rfl⟩,
        lexLine_eq_numbers_iff.2 ⟨second, rfl, rest⟩⟩
  · -- what the reading halts at is left over, and holds a digit
    rw [read, skipGaps_append_of_ne_nil stuck.skipGaps_ne_nil] at rest
    exact absurd (List.append_eq_nil_iff.1 rest).1 stuck.skipGaps_ne_nil

end Backbone.Dimacs
