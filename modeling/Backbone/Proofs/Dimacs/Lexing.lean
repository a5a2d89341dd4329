import Backbone.Dimacs.Reader
import Backbone.Dimacs.Writer
import Backbone.Proofs.Text.Numeral

/-!
# Lines of a DIMACS text, written and lexed

Each kind of line that is written is lexed as what it was written for, with nothing left over.
Conversely, a line can hold no more numbers than it has characters, and no number, count or name
that could not be written again.

* `IsName` — a name that stands in a comment as it is;
* `lexLine_nameLine`, `lexLine_problemLine`, `lexLine_clauseLine` — the written lines;
* `lexLine_eq_stop_iff`, `lexLine_eq_numbers_iff` — the lines that end a text, and those that hold
  numbers;
* `Line.Fits`, `fits_of_lexLine` — what a lexed line can hold.
-/

namespace Backbone.Dimacs

open Text

variable {text rest : List Char} {line : List Char}

/-- The name is not empty, is trimmed and stays on one line. -/
structure IsName (name : String) : Prop where
  nonempty : name.toList ≠ []
  trimmed : trim name.toList = name.toList
  oneLine : '\n' ∉ name.toList

/-! ### Gaps -/

theorem skipGaps_of_head (clear : ∀ c ∈ text.head?, isGap c = false) : skipGaps text = text := by
  cases text with
  | nil => rfl
  | cons c rest => rw [skipGaps, List.dropWhile_cons, clear c rfl]; rfl

theorem skipGaps?_space (clear : ∀ c ∈ text.head?, isGap c = false) :
    skipGaps? (' ' :: text) = some text := by
  rw [skipGaps?, if_pos (by decide), skipGaps_of_head clear]

theorem head?_cons {c : Char} (clear : isGap c = false) (rest : List Char) :
    ∀ first ∈ (c :: rest).head?, isGap first = false := by
  intro first head
  cases head
  exact clear

theorem head?_natNumeral_append (n : Nat) (rest : List Char) :
    ∀ c ∈ (natNumeral n ++ rest).head?, isGap c = false := by
  obtain ⟨digit, digits, numeral, isDigit⟩ := natNumeral_eq_cons n
  rw [numeral]
  exact head?_cons (isGap_of_isDigit isDigit) _

theorem isGap_eq_false_of_isBlank {c : Char} (clear : isBlank c = false) : isGap c = false := by
  rw [← Bool.not_eq_true]
  intro gap
  rw [isBlank_of_isGap gap] at clear
  cases clear

/-! ### Numbers -/

theorem readNumber?_intNumeral {value : Int} (range : InSignedRange value)
    (ends : HasNumberEnd rest) : readNumber? (intNumeral value ++ rest) = some (value, rest) := by
  obtain ⟨digit, digits, numeral, -⟩ := natNumeral_eq_cons value.natAbs
  rw [readNumber?, readSign_intNumeral]
  simp only [takeWhile_isDigit_natNumeral _ ends, dropWhile_isDigit_natNumeral _ ends]
  rw [numeral]
  show Option.map _ (signedValue? _ (digit :: digits)) = _
  rw [← numeral, signedValue?_natNumeral range]
  rfl

theorem readCount?_natNumeral {n : Nat} (small : n < unsignedBound) (ends : HasNumberEnd rest) :
    readCount? (natNumeral n ++ rest) = some (n, rest) := by
  rw [readCount?, takeWhile_isDigit_natNumeral _ ends, dropWhile_isDigit_natNumeral _ ends,
    readDigits?_natNumeral small]
  rfl

theorem readCount?_natNumeral_of_le {n : Nat} (large : unsignedBound ≤ n)
    (ends : HasNumberEnd rest) : readCount? (natNumeral n ++ rest) = none := by
  rw [readCount?, takeWhile_isDigit_natNumeral _ ends, readDigits?, digitsValue_natNumeral,
    decide_eq_false (Nat.not_lt.2 large), Bool.and_false]
  rfl

/-- Where no number stands, none is read. -/
theorem readNumber?_of_head {c : Char} (sign : c ≠ '-' ∧ c ≠ '+') (digit : c.isDigit = false) :
    readNumber? (c :: rest) = none := by
  have unsigned : readSign (c :: rest) = (false, c :: rest) := by
    rw [readSign]
    · intro digits same
      cases same
      exact sign.1 rfl
    · intro digits same
      cases same
      exact sign.2 rfl
  rw [readNumber?, unsigned]
  simp only [List.takeWhile_cons, digit, Bool.false_eq_true, if_false]

theorem readNumbers_of_none (none_ : readNumber? (skipGaps text) = none) :
    readNumbers text = ([], text) := by
  rw [readNumbers.eq_def]
  split
  · rfl
  · rename_i value rest read
    rw [none_] at read
    cases read

theorem readNumbers_of_some {value : Int} (read : readNumber? (skipGaps text) = some (value, rest)) :
    readNumbers text = (value :: (readNumbers rest).1, (readNumbers rest).2) := by
  rw [readNumbers.eq_def]
  split
  · rename_i none_
    rw [none_] at read
    cases read
  · rename_i value' rest' read'
    rw [read] at read'
    cases read'
    rfl

theorem readNumbers_of_empty (none_ : (readNumbers text).1 = []) : (readNumbers text).2 = text := by
  cases number : readNumber? (skipGaps text) with
  | none => rw [readNumbers_of_none number]
  | some found =>
    rw [readNumbers_of_some number] at none_
    cases none_

/-! ### Written lines -/

theorem head?_clauseLine (clause : Clause) :
    ∀ c ∈ (clauseLine clause).head?, isGap c = false := by
  cases clause with
  | nil => exact head?_cons (by decide) _
  | cons literal clause =>
    obtain ⟨start, others, numeral, minusOrDigit⟩ := intNumeral_eq_cons literal
    rw [clauseLine, List.flatMap_cons, numeral]
    apply head?_cons
    rcases minusOrDigit with rfl | digit
    · decide
    · exact isGap_of_isDigit digit

theorem readNumbers_clauseLine {clause : Clause} (range : ∀ literal ∈ clause, InSignedRange literal)
    (same : skipGaps text = clauseLine clause) : readNumbers text = (clause ++ [0], []) := by
  induction clause generalizing text with
  | nil =>
    have zero : readNumber? (skipGaps text) = some (0, []) := by
      have range : InSignedRange 0 := ⟨by decide, by decide⟩
      rw [same]
      exact readNumber?_intNumeral range hasNumberEnd_nil
    rw [readNumbers_of_some zero, readNumbers_of_none (by rfl)]
    rfl
  | cons literal clause ih =>
    have first : readNumber? (skipGaps text) = some (literal, ' ' :: clauseLine clause) := by
      rw [same, clauseLine, List.flatMap_cons, List.append_assoc, List.append_assoc]
      exact readNumber?_intNumeral (range literal List.mem_cons_self) (hasNumberEnd_space _)
    have kept : skipGaps (' ' :: clauseLine clause) = clauseLine clause :=
      skipGaps_of_head (head?_clauseLine clause)
    have later := ih (fun other member => range other (List.mem_cons_of_mem _ member)) kept
    rw [readNumbers_of_some first, later]
    rfl

theorem lexLine_clauseLine {clause : Clause} (range : ∀ literal ∈ clause, InSignedRange literal) :
    lexLine (clauseLine clause) = .ok (.numbers (clause ++ [0])) := by
  have numbers := readNumbers_clauseLine range (skipGaps_of_head (head?_clauseLine clause))
  have lexed : lexNumbers? (clauseLine clause) = some (.numbers (clause ++ [0]), []) := by
    rw [lexNumbers?, numbers]
    cases clause with
    | nil => rfl
    | cons literal clause => rfl
  rw [lexLine, Line.lex, lexed]
  rfl

/-- A line that starts with a letter holds no numbers. -/
theorem lexNumbers?_of_head {c : Char} (sign : c ≠ '-' ∧ c ≠ '+') (digit : c.isDigit = false)
    (gap : isGap c = false) : lexNumbers? (c :: rest) = none := by
  have kept : skipGaps (c :: rest) = c :: rest := skipGaps_of_head (head?_cons gap rest)
  have nothing : readNumber? (skipGaps (c :: rest)) = none := by
    rw [kept]
    exact readNumber?_of_head sign digit
  rw [lexNumbers?, readNumbers_of_none nothing]

theorem lexProblem?_problemLine {header : Header}
    (fewVariables : header.numVariables < unsignedBound) :
    lexProblem? (problemLine header) = (readCount? (natNumeral header.numClauses)).map
      fun (numClauses, text) => (.problem ⟨header.numVariables, numClauses⟩, skipGaps text) := by
  have start : skipGaps? (' ' :: 'c' :: 'n' :: 'f' :: ' ' :: (natNumeral header.numVariables ++
      ' ' :: natNumeral header.numClauses)) = some _ :=
    skipGaps?_space (head?_cons (by decide) _)
  have first : skipGaps? (' ' :: (natNumeral header.numVariables ++
      ' ' :: natNumeral header.numClauses)) = some _ :=
    skipGaps?_space (head?_natNumeral_append _ _)
  have second : skipGaps? (' ' :: natNumeral header.numClauses) = some _ :=
    skipGaps?_space (List.append_nil (natNumeral header.numClauses) ▸ head?_natNumeral_append _ [])
  simp only [problemLine, List.cons_append, List.nil_append, lexProblem?, start, first, second,
    readCount?_natNumeral fewVariables (hasNumberEnd_space _), Option.bind_eq_bind,
    Option.bind_some]
  cases readCount? (natNumeral header.numClauses) with
  | none => rfl
  | some counted => rfl

theorem lexNumbers?_problemLine (header : Header) : lexNumbers? (problemLine header) = none :=
  lexNumbers?_of_head (by decide) (by decide) (by decide)

theorem lexLine_problemLine {header : Header} (fewVariables : header.numVariables < unsignedBound)
    (fewClauses : header.numClauses < unsignedBound) :
    lexLine (problemLine header) = .ok (.problem header) := by
  have count := readCount?_natNumeral fewClauses hasNumberEnd_nil
  rw [List.append_nil] at count
  rw [lexLine, Line.lex, lexNumbers?_problemLine, lexProblem?_problemLine fewVariables, count]
  rfl

/-- A problem line with a number of clauses that 64 bits do not hold is not understood. -/
theorem lexLine_problemLine_of_le {header : Header}
    (fewVariables : header.numVariables < unsignedBound)
    (many : unsignedBound ≤ header.numClauses) :
    lexLine (problemLine header) = .error (.unrecognized (String.ofList (problemLine header))) := by
  have count := readCount?_natNumeral_of_le many hasNumberEnd_nil
  rw [List.append_nil] at count
  rw [lexLine, Line.lex, lexNumbers?_problemLine, lexProblem?_problemLine fewVariables, count]
  rfl

theorem lexLine_nameLine {entry : Nat × String} (small : entry.1 < unsignedBound)
    (isName : IsName entry.2) :
    lexLine (nameLine entry) = .ok (.name entry.1 entry.2) := by
  have numbers : lexNumbers? (nameLine entry) = none :=
    lexNumbers?_of_head (by decide) (by decide) (by decide)
  have clear := (trim_eq_self_iff.1 isName.trimmed).1
  have first : skipGaps? (' ' :: (natNumeral entry.1 ++ ' ' :: entry.2.toList)) = some _ :=
    skipGaps?_space (head?_natNumeral_append _ _)
  have second : skipGaps? (' ' :: entry.2.toList) = some _ :=
    skipGaps?_space fun c head => isGap_eq_false_of_isBlank (clear c head)
  have lexed : lexName? (nameLine entry) = some (.name entry.1 entry.2, []) := by
    obtain ⟨c, others, letters⟩ := List.exists_cons_of_ne_nil isName.nonempty
    simp only [nameLine, lexName?, first, second,
      readCount?_natNumeral small (hasNumberEnd_space _), Option.bind_eq_bind, Option.bind_some, isName.trimmed]
    rw [letters]
    show some (Line.name entry.1 (String.ofList (c :: others)), []) = _
    rw [← letters, String.ofList_toList]
  rw [lexLine, Line.lex, numbers, lexed]
  rfl

/-! ### Whole lines -/

theorem lexLine_eq_ok_iff {token : Line} :
    lexLine line = .ok token ↔ Line.lex line = some (token, []) := by
  rw [lexLine]
  constructor
  · intro lexed
    split at lexed
    · cases lexed
    · rename_i same
      cases lexed
      exact same
    · cases lexed
  · intro whole
    rw [whole]

theorem eq_numbers_of_lexNumbers? {token : Line} (lexed : lexNumbers? text = some (token, rest)) :
    ∃ values, token = .numbers values := by
  rw [lexNumbers?] at lexed
  split at lexed
  · cases lexed
  · cases lexed
    exact ⟨_, rfl⟩

theorem eq_problem_of_lexProblem? {token : Line} (lexed : lexProblem? text = some (token, rest)) :
    ∃ header, token = .problem header := by
  rw [lexProblem?.eq_def] at lexed
  split at lexed
  · obtain ⟨_, _, lexed⟩ := Option.bind_eq_some_iff.1 lexed
    split at lexed
    · obtain ⟨_, _, lexed⟩ := Option.bind_eq_some_iff.1 lexed
      obtain ⟨_, _, lexed⟩ := Option.bind_eq_some_iff.1 lexed
      obtain ⟨_, _, lexed⟩ := Option.bind_eq_some_iff.1 lexed
      obtain ⟨_, _, lexed⟩ := Option.bind_eq_some_iff.1 lexed
      cases lexed
      exact ⟨_, rfl⟩
    · cases lexed
  · cases lexed

theorem eq_name_of_lexName? {token : Line} (lexed : lexName? text = some (token, rest)) :
    ∃ index given, token = .name index given := by
  rw [lexName?.eq_def] at lexed
  split at lexed
  · obtain ⟨_, _, lexed⟩ := Option.bind_eq_some_iff.1 lexed
    obtain ⟨_, _, lexed⟩ := Option.bind_eq_some_iff.1 lexed
    obtain ⟨_, _, lexed⟩ := Option.bind_eq_some_iff.1 lexed
    split at lexed
    · cases lexed
    · cases lexed
      exact ⟨_, _, rfl⟩
  · cases lexed

theorem eq_comment_of_lexComment? {token : Line} (lexed : lexComment? text = some (token, rest)) :
    token = .comment := by
  rw [lexComment?.eq_def] at lexed
  split at lexed
  · cases lexed
    rfl
  · split at lexed
    · cases lexed
      rfl
    · cases lexed
  · cases lexed

theorem eq_stop_of_lexStop? {token : Line} (lexed : lexStop? text = some (token, rest)) :
    token = .stop ∧ text.head? = some '%' := by
  rw [lexStop?.eq_def] at lexed
  split at lexed
  · cases lexed
    exact ⟨rfl, rfl⟩
  · cases lexed

/-- What a line starts with was found by one of the five readers. -/
theorem lex_cases {token : Line} (lexed : Line.lex text = some (token, rest)) :
    lexNumbers? text = some (token, rest) ∨ lexProblem? text = some (token, rest) ∨
      lexName? text = some (token, rest) ∨ lexComment? text = some (token, rest) ∨
      lexStop? text = some (token, rest) := by
  rw [Line.lex, Option.or_eq_some_iff, Option.or_eq_some_iff, Option.or_eq_some_iff,
    Option.or_eq_some_iff] at lexed
  exact lexed.imp_right fun later => later.2.imp_right fun later => later.2.imp_right
    fun later => later.2.imp_right And.right

/-- The end mark is the first character of a line, and no other line is taken for it. -/
theorem lexLine_eq_stop_iff : lexLine line = .ok .stop ↔ line.head? = some '%' := by
  rw [lexLine_eq_ok_iff]
  constructor
  · intro whole
    rcases lex_cases whole with numbers | problem | name | comment | stop
    · obtain ⟨_, same⟩ := eq_numbers_of_lexNumbers? numbers
      cases same
    · obtain ⟨_, same⟩ := eq_problem_of_lexProblem? problem
      cases same
    · obtain ⟨_, _, same⟩ := eq_name_of_lexName? name
      cases same
    · cases eq_comment_of_lexComment? comment
    · exact (eq_stop_of_lexStop? stop).2
  · intro mark
    obtain ⟨rest, rfl⟩ := List.head?_eq_some_iff.1 mark
    have numbers : lexNumbers? ('%' :: rest) = none :=
      lexNumbers?_of_head (by decide) (by decide) (by decide)
    rw [Line.lex, numbers]
    rfl

theorem lexNumbers?_of_nonempty (some_ : (readNumbers text).1 ≠ []) :
    lexNumbers? text = some (.numbers (readNumbers text).1, skipGaps (readNumbers text).2) := by
  rw [lexNumbers?]
  split
  · rename_i rest none
    rw [none] at some_
    exact absurd rfl some_
  · rename_i values rest _ read
    rw [read]

theorem lexNumbers?_of_empty (none_ : (readNumbers text).1 = []) : lexNumbers? text = none := by
  rw [lexNumbers?]
  split
  · rfl
  · rename_i values some_ read
    rw [read] at none_
    exact absurd none_ some_

theorem lexLine_eq_numbers_iff {values : List Int} : lexLine line = .ok (.numbers values) ↔
    values ≠ [] ∧ (readNumbers line).1 = values ∧ skipGaps (readNumbers line).2 = [] := by
  rw [lexLine_eq_ok_iff]
  constructor
  · intro whole
    rcases lex_cases whole with numbers | problem | name | comment | stop
    · by_cases none : (readNumbers line).1 = []
      · rw [lexNumbers?_of_empty none] at numbers
        cases numbers
      · rw [lexNumbers?_of_nonempty none, Option.some.injEq, Prod.mk.injEq,
          Line.numbers.injEq] at numbers
        exact ⟨numbers.1 ▸ none, numbers⟩
    · obtain ⟨_, same⟩ := eq_problem_of_lexProblem? problem
      cases same
    · obtain ⟨_, _, same⟩ := eq_name_of_lexName? name
      cases same
    · cases eq_comment_of_lexComment? comment
    · cases (eq_stop_of_lexStop? stop).1
  · rintro ⟨some_, rfl, rest⟩
    rw [Line.lex, lexNumbers?_of_nonempty some_, rest]
    rfl

/-! ### What a line can hold -/

/-- What is on the line could have been written on one line with so many characters. -/
def Line.Fits (room : Nat) : Line → Prop
  | .numbers values => values.length ≤ room ∧ ∀ value ∈ values, InSignedRange value
  | .problem header => header.numVariables < unsignedBound ∧ header.numClauses < unsignedBound
  | .name index given => index < unsignedBound ∧ IsName given
  | .comment => True
  | .stop => True

theorem skipGaps?_sublist (skipped : skipGaps? text = some rest) : rest.Sublist text := by
  cases text with
  | nil => cases skipped
  | cons c text =>
    rw [skipGaps?] at skipped
    split at skipped
    · cases skipped
      exact (List.dropWhile_sublist isGap).cons c
    · cases skipped

theorem readCount?_sound {n : Nat} (read : readCount? text = some (n, rest)) :
    n < unsignedBound ∧ rest.Sublist text := by
  obtain ⟨count, digits, same⟩ := Option.map_eq_some_iff.1 read
  cases same
  refine ⟨?_, List.dropWhile_sublist Char.isDigit⟩
  rw [readDigits?] at digits
  split at digits
  · rename_i small
    cases digits
    exact of_decide_eq_true (Bool.and_eq_true_iff.1 small).2
  · cases digits

theorem readNumber?_inSignedRange {value : Int} (read : readNumber? text = some (value, rest)) :
    InSignedRange value := by
  simp only [readNumber?] at read
  split at read
  · cases read
  · obtain ⟨number, signed, same⟩ := Option.map_eq_some_iff.1 read
    cases same
    exact signedValue?_inSignedRange signed

theorem readNumbers_fits (text : List Char) :
    (readNumbers text).1.length ≤ text.length ∧
      ∀ value ∈ (readNumbers text).1, InSignedRange value := by
  induction text using readNumbers.induct with
  | case1 text nothing =>
    rw [readNumbers_of_none nothing]
    exact ⟨Nat.zero_le _, fun value member => absurd member List.not_mem_nil⟩
  | case2 text value rest read shorter values last later ih =>
    obtain ⟨few, range⟩ := ih
    rw [readNumbers_of_some read]
    refine ⟨?_, ?_⟩
    · rw [List.length_cons]
      omega
    · rw [List.forall_mem_cons]
      exact ⟨readNumber?_inSignedRange read, range⟩

theorem fits_of_lexNumbers? {token : Line} (lexed : lexNumbers? text = some (token, rest)) :
    token.Fits text.length := by
  have fits := readNumbers_fits text
  rw [lexNumbers?] at lexed
  split at lexed
  · cases lexed
  · rename_i values rest' _ read
    cases lexed
    rw [read] at fits
    exact fits

theorem fits_of_lexProblem? {token : Line} (lexed : lexProblem? text = some (token, rest)) :
    token.Fits text.length := by
  rw [lexProblem?.eq_def] at lexed
  split at lexed
  · obtain ⟨start, _, lexed⟩ := Option.bind_eq_some_iff.1 lexed
    split at lexed
    · obtain ⟨first, _, lexed⟩ := Option.bind_eq_some_iff.1 lexed
      obtain ⟨⟨numVariables, afterFirst⟩, counted, lexed⟩ := Option.bind_eq_some_iff.1 lexed
      obtain ⟨second, _, lexed⟩ := Option.bind_eq_some_iff.1 lexed
      obtain ⟨⟨numClauses, afterSecond⟩, counted', lexed⟩ := Option.bind_eq_some_iff.1 lexed
      cases lexed
      exact ⟨(readCount?_sound counted).1, (readCount?_sound counted').1⟩
    · cases lexed
  · cases lexed

theorem fits_of_lexName? {token : Line} (oneLine : '\n' ∉ text)
    (lexed : lexName? text = some (token, rest)) : token.Fits text.length := by
  rw [lexName?.eq_def] at lexed
  split at lexed
  · rename_i text'
    obtain ⟨first, skipped, lexed⟩ := Option.bind_eq_some_iff.1 lexed
    obtain ⟨⟨index, afterFirst⟩, count, lexed⟩ := Option.bind_eq_some_iff.1 lexed
    obtain ⟨second, skipped', lexed⟩ := Option.bind_eq_some_iff.1 lexed
    have within : (trim second).Sublist text' :=
      ((trim_sublist second).trans (skipGaps?_sublist skipped')).trans
        ((readCount?_sound count).2.trans (skipGaps?_sublist skipped))
    split at lexed
    · cases lexed
    · rename_i name nonempty
      cases lexed
      refine ⟨(readCount?_sound count).1, ?_, ?_, ?_⟩
      · rw [String.toList_ofList]
        exact nonempty
      · rw [String.toList_ofList]
        exact trim_trim second
      · rw [String.toList_ofList]
        intro newline
        exact oneLine (List.mem_cons_of_mem _ (within.subset newline))
  · cases lexed

theorem fits_of_lexLine {token : Line} (oneLine : '\n' ∉ line)
    (lexed : lexLine line = .ok token) : token.Fits line.length := by
  have whole := lexLine_eq_ok_iff.1 lexed
  rcases lex_cases whole with numbers | problem | name | comment | stop
  · exact fits_of_lexNumbers? numbers
  · exact fits_of_lexProblem? problem
  · exact fits_of_lexName? oneLine name
  · cases eq_comment_of_lexComment? comment
    trivial
  · obtain ⟨rfl, -⟩ := eq_stop_of_lexStop? stop
    trivial

end Backbone.Dimacs
