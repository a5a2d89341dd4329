import Mathlib
import Backbone.Proofs.Dimacs.NumberLines

/-!
# What a line starts with

A text is lexed as what its longest understood beginning holds, and the rest is given back.  The
beginning stands on its own: lexed alone, without the text that followed, it holds the same.  What
it looks like is said here by its characters alone, without reference to how they are read.

* `AllGaps`, `HasGapEnd`, `CountField` — the parts of a line;
* `NumberList`, `ProblemText` — numbers, and a problem line, as they are written;
* `readNumber?_eq_some_iff`, `readField?_eq_some_iff` — all texts that start with a number, and all
  that start with gaps and a count;
* `exists_numberList`, `readNumbers_of_numberList` — the numbers at the start of a text are written
  there, and nothing after them is a number; written numbers are read;
* `exists_problemText`, `lexProblem?_of_problemText` — the same of a problem line;
* `lex_used_alone` — the beginning that is taken from a text, and what follows it.
-/

namespace Backbone.Dimacs

open Text

variable {text rest used gaps digits : List Char} {value : Int} {values : List Int} {n : Nat}
  {header : Header} {token : Line}

/-! ### Gaps -/

/-- The text consists of spaces and tabs. -/
def AllGaps (text : List Char) : Prop := ∀ c ∈ text, isGap c = true

/-- The text does not start with a space or a tab. -/
def HasGapEnd (text : List Char) : Prop := ∀ c ∈ text.head?, isGap c = false

instance (text : List Char) : Decidable (AllGaps text) :=
  List.decidableBAll (fun c => isGap c = true) text

instance (text : List Char) : Decidable (HasGapEnd text) :=
  Option.decidableForallMem text.head?

theorem hasGapEnd_nil : HasGapEnd [] := by
  intro c first
  cases first

theorem isDigit_of_isGap {c : Char} (gap : isGap c = true) : c.isDigit = false := by
  rw [← Bool.not_eq_true]
  intro digit
  rw [isGap_of_isDigit digit] at gap
  cases gap

theorem hasNumberEnd_of_allGaps (allGaps : AllGaps text) : HasNumberEnd text := by
  intro c first
  exact isDigit_of_isGap (allGaps c (List.mem_of_mem_head? first))

theorem hasGapEnd_skipGaps (text : List Char) : HasGapEnd (skipGaps text) :=
  clear_of_head?_dropWhile text

/-- A text is the gaps that it starts with and what is left without them. -/
theorem exists_gaps (text : List Char) : ∃ gaps, AllGaps gaps ∧ text = gaps ++ skipGaps text :=
  ⟨text.takeWhile isGap, List.all_eq_true.1 List.all_takeWhile,
    List.takeWhile_append_dropWhile.symm⟩

theorem skipGaps_append (allGaps : AllGaps gaps) (ends : HasGapEnd rest) :
    skipGaps (gaps ++ rest) = rest := by
  rw [skipGaps, List.dropWhile_append_of_pos allGaps]
  exact skipGaps_of_head ends

theorem skipGaps?_eq_some_iff : skipGaps? text = some rest ↔
    ∃ gaps, gaps ≠ [] ∧ AllGaps gaps ∧ HasGapEnd rest ∧ text = gaps ++ rest := by
  constructor
  · intro skipped
    cases text with
    | nil => cases skipped
    | cons c text =>
      rw [skipGaps?] at skipped
      split at skipped
      · rename_i gap
        cases skipped
        obtain ⟨gaps, allGaps, cut⟩ := exists_gaps text
        refine ⟨c :: gaps, List.cons_ne_nil c gaps, ?_, hasGapEnd_skipGaps text, ?_⟩
        · exact List.forall_mem_cons.2 ⟨gap, allGaps⟩
        · rw [List.cons_append, ← cut]
      · cases skipped
  · rintro ⟨gaps, some_, allGaps, ends, rfl⟩
    obtain ⟨c, gaps, rfl⟩ := List.exists_cons_of_ne_nil some_
    obtain ⟨gap, later⟩ := List.forall_mem_cons.1 allGaps
    rw [List.cons_append, skipGaps?, if_pos gap, skipGaps_append later ends]

/-! ### Numbers and counts -/

theorem ne_nil_of_isDigits (fine : isDigits digits = true) : digits ≠ [] := by
  rintro rfl
  cases fine

theorem isSignedNumeral_ne_nil {numeral : List Char} (isNumeral : IsSignedNumeral numeral value) :
    numeral ≠ [] := by
  cases isNumeral with
  | plain fine _ => exact ne_nil_of_isDigits fine
  | plus => exact List.cons_ne_nil _ _
  | minus => exact List.cons_ne_nil _ _

/-- No numeral starts with a gap. -/
theorem hasGapEnd_numeral_append {numeral : List Char} (isNumeral : IsSignedNumeral numeral value)
    (rest : List Char) : HasGapEnd (numeral ++ rest) := by
  obtain ⟨c, others, rfl⟩ := List.exists_cons_of_ne_nil (isSignedNumeral_ne_nil isNumeral)
  have clear := isBlank_of_isSignedNumeral isNumeral List.mem_cons_self
  exact head?_cons (isGap_eq_false_of_isBlank clear) (others ++ rest)

theorem hasNumberEnd_dropWhile (text : List Char) : HasNumberEnd (text.dropWhile Char.isDigit) :=
  clear_of_head?_dropWhile text

theorem readNumber?_hasNumberEnd (read : readNumber? text = some (value, rest)) :
    HasNumberEnd rest := by
  simp only [readNumber?] at read
  split at read
  · cases read
  · obtain ⟨number, -, same⟩ := Option.map_eq_some_iff.1 read
    cases same
    exact hasNumberEnd_dropWhile _

/-- A text that is a number to its end is a numeral. -/
theorem readNumber?_eq_whole_iff :
    readNumber? text = some (value, []) ↔ IsSignedNumeral text value := by
  rw [← readSigned?_eq_some_iff, readNumber?, readSigned?]
  generalize readSign text = signed
  obtain ⟨negative, digits⟩ := signed
  dsimp only
  constructor
  · intro read
    split at read
    · cases read
    · rename_i first some_
      obtain ⟨number, inRange, same⟩ := Option.map_eq_some_iff.1 read
      rw [Prod.mk.injEq] at same
      obtain ⟨rfl, rest⟩ := same
      have all := List.dropWhile_eq_nil_iff.1 rest
      have whole := List.takeWhile_eq_self_iff.2 all
      rw [whole] at inRange some_
      have fine : isDigits digits = true := by
        rw [isDigits, Bool.and_eq_true]
        exact ⟨by simpa using some_, List.all_eq_true.2 all⟩
      rw [if_pos fine, inRange]
  · intro read
    split at read
    · rename_i fine
      have all : ∀ c ∈ digits, c.isDigit = true := fun c => isDigit_of_isDigits fine
      rw [List.takeWhile_eq_self_iff.2 all, List.dropWhile_eq_nil_iff.2 all]
      cases digits with
      | nil => cases fine
      | cons digit digits =>
        show Option.map _ (signedValue? negative (digit :: digits)) = _
        rw [read]
        rfl
    · cases read

/-- A number is read where a numeral stands that takes all its digits. -/
theorem readNumber?_eq_some_iff : readNumber? text = some (value, rest) ↔
    ∃ numeral, IsSignedNumeral numeral value ∧ HasNumberEnd rest ∧ text = numeral ++ rest := by
  constructor
  · intro read
    obtain ⟨numeral, rfl⟩ := readNumber?_suffix read
    have shorter := length_lt_of_readNumber? read
    rw [List.length_append] at shorter
    have ends := readNumber?_hasNumberEnd read
    have some_ : numeral ≠ [] := List.length_pos_iff.1 (by omega)
    rw [readNumber?_append some_ ends] at read
    obtain ⟨⟨number, tail⟩, alone, same⟩ := Option.map_eq_some_iff.1 read
    rw [Prod.mk.injEq] at same
    obtain ⟨rfl, same⟩ := same
    have nothing : tail ++ rest = [] ++ rest := same
    obtain rfl := List.append_cancel_right nothing
    exact ⟨numeral, readNumber?_eq_whole_iff.1 alone, ends, rfl⟩
  · rintro ⟨numeral, isNumeral, ends, rfl⟩
    rw [readNumber?_append (isSignedNumeral_ne_nil isNumeral) ends,
      readNumber?_eq_whole_iff.2 isNumeral]
    rfl

/-- Gaps, at least one, and a number of 64 bits in decimal digits. -/
inductive CountField : List Char → Nat → Prop
  | intro {gaps digits : List Char} : gaps ≠ [] → AllGaps gaps → isDigits digits = true →
      digitsValue digits < unsignedBound → CountField (gaps ++ digits) (digitsValue digits)

theorem readCount?_eq_some_iff : readCount? text = some (n, rest) ↔
    ∃ digits, readDigits? digits = some n ∧ HasNumberEnd rest ∧ text = digits ++ rest := by
  constructor
  · intro read
    obtain ⟨count, counted, same⟩ := Option.map_eq_some_iff.1 read
    cases same
    exact ⟨text.takeWhile Char.isDigit, counted, hasNumberEnd_dropWhile text,
      List.takeWhile_append_dropWhile.symm⟩
  · rintro ⟨digits, counted, ends, rfl⟩
    have all : ∀ c ∈ digits, c.isDigit = true := by
      intro c
      exact isDigit_of_isDigits (readDigits?_eq_some_iff.1 counted).1
    rw [readCount?, takeWhile_isDigit_append ends, dropWhile_isDigit_append ends,
      List.takeWhile_eq_self_iff.2 all, List.dropWhile_eq_nil_iff.2 all, counted]
    rfl

theorem readField?_eq_some_iff : (skipGaps? text).bind readCount? = some (n, rest) ↔
    ∃ field, CountField field n ∧ HasNumberEnd rest ∧ text = field ++ rest := by
  rw [Option.bind_eq_some_iff]
  constructor
  · rintro ⟨middle, skipped, counted⟩
    obtain ⟨gaps, some_, allGaps, -, rfl⟩ := skipGaps?_eq_some_iff.1 skipped
    obtain ⟨digits, read, ends, rfl⟩ := readCount?_eq_some_iff.1 counted
    obtain ⟨fine, rfl, small⟩ := readDigits?_eq_some_iff.1 read
    exact ⟨gaps ++ digits, .intro some_ allGaps fine small, ends, (List.append_assoc _ _ _).symm⟩
  · rintro ⟨field, isField, ends, rfl⟩
    cases isField with
    | @intro gaps digits some_ allGaps fine small =>
      have counted := readDigits?_eq_some_iff.2 ⟨fine, rfl, small⟩
      have begins : HasGapEnd (digits ++ rest) := by
        obtain ⟨digit, others, rfl⟩ := List.exists_cons_of_ne_nil (ne_nil_of_isDigits fine)
        exact head?_cons (isGap_of_isDigit (isDigit_of_isDigits fine List.mem_cons_self)) _
      exact ⟨digits ++ rest,
        skipGaps?_eq_some_iff.2 ⟨gaps, some_, allGaps, begins, List.append_assoc _ _ _⟩,
        readCount?_eq_some_iff.2 ⟨digits, counted, ends, rfl⟩⟩

/-! ### Lists of numbers -/

/-- The text is the numerals of the numbers in their order, with any gaps in front of each and
behind the last one.  No digit stands right behind a numeral, so that each has all its digits. -/
inductive NumberList : List Char → List Int → Prop
  | gaps {after : List Char} : AllGaps after → NumberList after []
  | number {before numeral rest : List Char} {value : Int} {values : List Int} :
      AllGaps before → IsSignedNumeral numeral value → HasNumberEnd rest →
      NumberList rest values → NumberList (before ++ numeral ++ rest) (value :: values)

theorem NumberList.append_gaps (numberList : NumberList text values) (allGaps : AllGaps gaps) :
    NumberList (text ++ gaps) values := by
  induction numberList with
  | gaps allGaps' => exact .gaps (List.forall_mem_append.2 ⟨allGaps', allGaps⟩)
  | @number before numeral rest value values allGaps' isNumeral ends _ ih =>
    have ends' : HasNumberEnd (rest ++ gaps) := by
      cases rest with
      | nil => exact hasNumberEnd_of_allGaps allGaps
      | cons c rest => exact ends
    rw [List.append_assoc]
    exact .number allGaps' isNumeral ends' ih

/-- The numbers at the start of a text are written there, and no number follows them. -/
theorem exists_numberList (text : List Char) :
    ∃ used, text = used ++ (readNumbers text).2 ∧ NumberList used (readNumbers text).1 ∧
      readNumber? (skipGaps (readNumbers text).2) = none := by
  induction text using readNumbers.induct with
  | case1 text nothing =>
    rw [readNumbers_of_none nothing]
    exact ⟨[], rfl, .gaps (List.forall_mem_nil _), nothing⟩
  | case2 text value rest read shorter values last later ih =>
    rw [readNumbers_of_some read]
    obtain ⟨used, cut, numberList, nothing⟩ := ih
    obtain ⟨numeral, isNumeral, ends, skipped⟩ := readNumber?_eq_some_iff.1 read
    obtain ⟨gaps, allGaps, whole⟩ := exists_gaps text
    refine ⟨gaps ++ numeral ++ used, ?_, ?_, nothing⟩
    · rw [List.append_assoc, ← cut, List.append_assoc, ← skipped]
      exact whole
    · rw [cut] at ends
      exact .number allGaps isNumeral ends.of_append numberList

theorem readNumbers_of_numberList (numberList : NumberList text values) :
    (readNumbers text).1 = values ∧ skipGaps (readNumbers text).2 = [] := by
  induction numberList with
  | @gaps after allGaps =>
    have skipped : skipGaps after = [] := List.dropWhile_eq_nil_iff.2 allGaps
    have nothing : readNumber? (skipGaps after) = none := by
      rw [skipped]
      rfl
    rw [readNumbers_of_none nothing]
    exact ⟨rfl, skipped⟩
  | @number before numeral rest value values allGaps isNumeral ends _ ih =>
    have read : readNumber? (skipGaps (before ++ numeral ++ rest)) = some (value, rest) := by
      rw [List.append_assoc, skipGaps_append allGaps (hasGapEnd_numeral_append isNumeral rest)]
      exact readNumber?_eq_some_iff.2 ⟨numeral, isNumeral, ends, rfl⟩
    rw [readNumbers_of_some read]
    exact ⟨congrArg (value :: ·) ih.1, ih.2⟩

/-- A whole text is lexed as numbers just if it is a list of them. -/
theorem lex_eq_numbers_iff :
    Line.lex text = some (.numbers values, []) ↔ values ≠ [] ∧ NumberList text values := by
  rw [← lexLine_eq_ok_iff, lexLine_eq_numbers_iff]
  constructor
  · rintro ⟨some_, rfl, rest⟩
    obtain ⟨used, cut, numberList, -⟩ := exists_numberList text
    have allGaps : AllGaps (readNumbers text).2 := List.dropWhile_eq_nil_iff.1 rest
    have longer := numberList.append_gaps allGaps
    rw [← cut] at longer
    exact ⟨some_, longer⟩
  · rintro ⟨some_, numberList⟩
    exact ⟨some_, readNumbers_of_numberList numberList⟩

theorem lexNumbers?_used (lexed : lexNumbers? text = some (token, rest)) :
    ∃ used values, text = used ++ rest ∧ HasGapEnd rest ∧ token = .numbers values ∧
      Line.lex used = some (token, []) ∧ readNumber? rest = none := by
  by_cases none_ : (readNumbers text).1 = []
  · rw [lexNumbers?_of_empty none_] at lexed
    cases lexed
  · rw [lexNumbers?_of_nonempty none_, Option.some.injEq, Prod.mk.injEq] at lexed
    obtain ⟨rfl, rfl⟩ := lexed
    obtain ⟨used, cut, numberList, nothing⟩ := exists_numberList text
    obtain ⟨gaps, allGaps, skipped⟩ := exists_gaps (readNumbers text).2
    refine ⟨used ++ gaps, _, ?_, hasGapEnd_skipGaps _, rfl, ?_, nothing⟩
    · rw [List.append_assoc, ← skipped]
      exact cut
    · exact lex_eq_numbers_iff.2 ⟨none_, numberList.append_gaps allGaps⟩

theorem NumberList.gaps_append (allGaps : AllGaps gaps) (numberList : NumberList text values) :
    NumberList (gaps ++ text) values := by
  cases numberList with
  | gaps allGaps' => exact .gaps (List.forall_mem_append.2 ⟨allGaps, allGaps'⟩)
  | @number before numeral rest value values allGaps' isNumeral ends later =>
    have longer : AllGaps (gaps ++ before) := List.forall_mem_append.2 ⟨allGaps, allGaps'⟩
    have cut : gaps ++ (before ++ numeral ++ rest) = gaps ++ before ++ numeral ++ rest := by
      simp only [List.append_assoc]
    rw [cut]
    exact .number longer isNumeral ends later

/-- Written numbers with the same gaps between any two. -/
theorem numberList_intercalate (some_ : gaps ≠ []) (allGaps : AllGaps gaps)
    (range : ∀ value ∈ values, InSignedRange value) :
    NumberList (gaps.intercalate (values.map intNumeral)) values := by
  induction values with
  | nil => exact .gaps (List.forall_mem_nil _)
  | cons value values ih =>
    obtain ⟨first, later⟩ := List.forall_mem_cons.1 range
    have isNumeral := readSigned?_eq_some_iff.1 (readSigned?_intNumeral first)
    cases values with
    | nil =>
      have alone : NumberList ([] ++ intNumeral value ++ []) [value] :=
        .number (List.forall_mem_nil _) isNumeral hasNumberEnd_nil (.gaps (List.forall_mem_nil _))
      have single : gaps.intercalate [intNumeral value] = intNumeral value :=
        List.intercalate_singleton
      rwa [List.append_nil, List.nil_append, ← single] at alone
    | cons second values =>
      rw [List.map_cons, List.map_cons, List.intercalate_cons_cons, ← List.map_cons,
        List.append_assoc]
      refine @NumberList.number [] _ _ _ _ (List.forall_mem_nil _) isNumeral ?_
        ((ih later).gaps_append allGaps)
      obtain ⟨gap, gaps, rfl⟩ := List.exists_cons_of_ne_nil some_
      intro c first
      cases first
      exact isDigit_of_isGap (allGaps _ List.mem_cons_self)

/-! ### Problem lines -/

/-- The text is a problem line, with gaps between its parts and perhaps behind the last one. -/
inductive ProblemText : List Char → Header → Prop
  | intro {gaps first second after : List Char} {numVariables numClauses : Nat} : gaps ≠ [] →
      AllGaps gaps → CountField first numVariables → CountField second numClauses →
      AllGaps after →
      ProblemText ('p' :: (gaps ++ 'c' :: 'n' :: 'f' :: (first ++ (second ++ after))))
        ⟨numVariables, numClauses⟩

theorem CountField.hasNumberEnd {field : List Char} (isField : CountField field n)
    (rest : List Char) : HasNumberEnd (field ++ rest) := by
  cases isField with
  | @intro gaps digits some_ allGaps fine small =>
    obtain ⟨gap, gaps, rfl⟩ := List.exists_cons_of_ne_nil some_
    intro c first
    cases first
    exact isDigit_of_isGap (allGaps _ List.mem_cons_self)

/-- The problem line at the start of a text is written there. -/
theorem exists_problemText (lexed : lexProblem? text = some (token, rest)) :
    ∃ used header, text = used ++ rest ∧ HasGapEnd rest ∧ token = .problem header ∧
      ProblemText used header := by
  rw [lexProblem?.eq_def] at lexed
  split at lexed
  · obtain ⟨start, begun, format⟩ := Option.bind_eq_some_iff.1 lexed
    split at format
    · obtain ⟨first, skipped, rest₁⟩ := Option.bind_eq_some_iff.1 format
      obtain ⟨⟨numVariables, afterFirst⟩, counted, rest₂⟩ := Option.bind_eq_some_iff.1 rest₁
      obtain ⟨second, skipped', rest₃⟩ := Option.bind_eq_some_iff.1 rest₂
      obtain ⟨⟨numClauses, afterSecond⟩, counted', ended⟩ := Option.bind_eq_some_iff.1 rest₃
      cases ended
      obtain ⟨gaps, some_, allGaps, -, rfl⟩ := skipGaps?_eq_some_iff.1 begun
      obtain ⟨field, isField, -, rfl⟩ :=
        readField?_eq_some_iff.1 (Option.bind_eq_some_iff.2 ⟨first, skipped, counted⟩)
      obtain ⟨field', isField', -, rfl⟩ :=
        readField?_eq_some_iff.1 (Option.bind_eq_some_iff.2 ⟨second, skipped', counted'⟩)
      obtain ⟨after, allGaps', cut⟩ := exists_gaps afterSecond
      refine ⟨_, _, ?_, hasGapEnd_skipGaps afterSecond, rfl,
        .intro some_ allGaps isField isField' allGaps'⟩
      simp only [List.cons_append, List.append_assoc, ← cut]
    · cases format
  · cases lexed

theorem lexProblem?_of_problemText (problemText : ProblemText text header) :
    lexProblem? text = some (.problem header, []) := by
  cases problemText with
  | @intro gaps first second after _ _ some_ allGaps isField isField' allGaps' =>
    have skipped : skipGaps? (gaps ++ 'c' :: 'n' :: 'f' :: (first ++ (second ++ after))) =
        some ('c' :: 'n' :: 'f' :: (first ++ (second ++ after))) :=
      skipGaps?_eq_some_iff.2 ⟨gaps, some_, allGaps, head?_cons (by decide) _, rfl⟩
    obtain ⟨digits, skippedFirst, counted⟩ := Option.bind_eq_some_iff.1
      (readField?_eq_some_iff.2 ⟨first, isField, isField'.hasNumberEnd after, rfl⟩)
    obtain ⟨digits', skippedSecond, counted'⟩ := Option.bind_eq_some_iff.1
      (readField?_eq_some_iff.2 ⟨second, isField', hasNumberEnd_of_allGaps allGaps', rfl⟩)
    have ends : skipGaps after = [] := List.dropWhile_eq_nil_iff.2 allGaps'
    simp only [lexProblem?, skipped, skippedFirst, counted, skippedSecond, counted', ends,
      Option.bind_eq_bind, Option.bind_some]

/-- A written problem line is lexed whole. -/
theorem lex_of_problemText (problemText : ProblemText text header) :
    Line.lex text = some (.problem header, []) := by
  have numbers : lexNumbers? text = none := by
    cases problemText with
    | intro => exact lexNumbers?_of_head (by decide) (by decide) (by decide)
  rw [Line.lex, numbers, lexProblem?_of_problemText problemText]
  rfl

/-! ### All lines -/

theorem rest_of_lexName? (lexed : lexName? text = some (token, rest)) : rest = [] := by
  rw [lexName?.eq_def] at lexed
  split at lexed
  · obtain ⟨_, _, lexed⟩ := Option.bind_eq_some_iff.1 lexed
    obtain ⟨_, _, lexed⟩ := Option.bind_eq_some_iff.1 lexed
    obtain ⟨_, _, lexed⟩ := Option.bind_eq_some_iff.1 lexed
    split at lexed
    · cases lexed
    · cases lexed
      rfl
  · cases lexed

theorem rest_of_lexComment? (lexed : lexComment? text = some (token, rest)) : rest = [] := by
  rw [lexComment?.eq_def] at lexed
  split at lexed
  · cases lexed
    rfl
  · split at lexed
    · cases lexed
      rfl
    · cases lexed
  · cases lexed

theorem rest_of_lexStop? (lexed : lexStop? text = some (token, rest)) : rest = [] := by
  rw [lexStop?.eq_def] at lexed
  split at lexed
  · cases lexed
    rfl
  · cases lexed

/-- A text starts with numbers or a problem line, or it is taken as a whole. -/
theorem lex_cases_rest (lexed : Line.lex text = some (token, rest)) :
    lexNumbers? text = some (token, rest) ∨ lexProblem? text = some (token, rest) ∨ rest = [] := by
  rcases lex_cases lexed with numbers | problem | name | comment | stop
  · exact .inl numbers
  · exact .inr (.inl problem)
  · exact .inr (.inr (rest_of_lexName? name))
  · exact .inr (.inr (rest_of_lexComment? comment))
  · exact .inr (.inr (rest_of_lexStop? stop))

/-- What is lexed from the start of a text is lexed from the part alone that was taken for it; no
gap follows that part, and behind numbers no further number.  A whole text is lexed as numbers just
if it is a list of them, and so are written numbers with gaps between any two. -/
theorem lex_used_alone :
    (∀ text rest token, Line.lex text = some (token, rest) →
      ∃ used, text = used ++ rest ∧ HasGapEnd rest ∧ Line.lex used = some (token, []) ∧
        ∀ values, token = .numbers values → values ≠ [] ∧ NumberList used values ∧
          ∀ numeral value after, rest = numeral ++ after → HasNumberEnd after →
            ¬ IsSignedNumeral numeral value) ∧
    (∀ text values, Line.lex text = some (.numbers values, []) ↔
      values ≠ [] ∧ NumberList text values) ∧
    ∀ values gaps, values ≠ [] → (∀ value ∈ values, InSignedRange value) →
      gaps ≠ [] → AllGaps gaps →
      Line.lex (gaps.intercalate (values.map intNumeral)) = some (.numbers values, []) := by
  refine ⟨fun text rest token lexed => ?_, fun text values => lex_eq_numbers_iff, ?_⟩
  · rcases lex_cases_rest lexed with numbers | problem | rfl
    · obtain ⟨used, values, cut, ends, rfl, alone, nothing⟩ := lexNumbers?_used numbers
      refine ⟨used, cut, ends, alone, fun values' same => ?_⟩
      cases same
      obtain ⟨some_, numberList⟩ := lex_eq_numbers_iff.1 alone
      refine ⟨some_, numberList, fun numeral value after cut' ends' isNumeral => ?_⟩
      have more := readNumber?_eq_some_iff.2 ⟨numeral, isNumeral, ends', cut'⟩
      rw [nothing] at more
      cases more
    · obtain ⟨used, header, cut, ends, rfl, problemText⟩ := exists_problemText problem
      exact ⟨used, cut, ends, lex_of_problemText problemText, by nofun⟩
    · refine ⟨text, (List.append_nil text).symm, hasGapEnd_nil, lexed, fun values same => ?_⟩
      obtain ⟨some_, numberList⟩ := lex_eq_numbers_iff.1 (same ▸ lexed)
      refine ⟨some_, numberList, fun numeral value after cut ends isNumeral => ?_⟩
      obtain ⟨none_, -⟩ := List.append_eq_nil_iff.1 cut.symm
      exact isSignedNumeral_ne_nil isNumeral none_
  · intro values gaps some_ range someGaps allGaps
    exact lex_eq_numbers_iff.2 ⟨some_, numberList_intercalate someGaps allGaps range⟩

/-- Numbers without gaps between them, and one that is out of range by one behind a gap. -/
def tightNumbers : List Char := "\t+01-9223372036854775808 9223372036854775808 5".toList

theorem lex_used_alone_tightNumbers :
    Line.lex tightNumbers =
      some (.numbers [1, -9223372036854775808], "9223372036854775808 5".toList) ∧
    (∃ used, tightNumbers = used ++ "9223372036854775808 5".toList ∧
      NumberList used [1, -9223372036854775808] ∧
      Line.lex used = some (.numbers [1, -9223372036854775808], [])) ∧
    Line.lex "-9223372036854775808\t 9223372036854775807\t 0".toList =
      some (.numbers [-9223372036854775808, 9223372036854775807, 0], []) := by
  obtain ⟨alone, -, joined⟩ := lex_used_alone
  have lexed : Line.lex tightNumbers =
      some (.numbers [1, -9223372036854775808], "9223372036854775808 5".toList) := by cbv
  obtain ⟨used, cut, -, again, numbers⟩ := alone _ _ _ lexed
  refine ⟨lexed, ⟨used, cut, (numbers _ rfl).2.1, again⟩, ?_⟩
  exact joined [-9223372036854775808, 9223372036854775807, 0] ['\t', ' ']
    (by decide) (by decide) (by decide) (by decide)

end Backbone.Dimacs
