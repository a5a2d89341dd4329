import Mathlib.Data.List.Forall2
import Backbone.Oracle.External
import Backbone.Proofs.Text.Numeral
import Backbone.Proofs.Text.Words

/-!
# Outputs of a solver

The lines that a solver prints for a formula with a solution, and what is read of them.  The
solution may be cut into lines anywhere and padded with blanks of any kind: only the order of the
words counts.  A word that is no number makes the whole output unreadable.

Nothing looks for the zero that ends a solution.  An output that breaks off behind one of its lines
of values is therefore not noticed, while one of a backbone extractor would be: it is read as a
solution of the literals that are left.

* `ValueLine` — a line with a tag and words;
* `Lists` — the lines hold these numbers;
* `SolutionOutput` — the lines are a complete output;
* `solutionWords_of_forall₂` — the words of such lines are their words in order;
* `Lists.of_append` — lines that are cut in two hold the numbers cut in two;
* `readSolution_wrapped` — a complete output is read as its solution, and any other word is named;
* `readSolution_truncated` — what is read of an output that breaks off.
-/

namespace Backbone.External

open Text

variable {body lines kept : List OutputLine} {chunks : List (List (List Char))}
  {words : List (List Char)} {numbers literals : List Literal}

/-! ### What the lines say -/

/-- The line is the tag of values and then the words, at least one, with blanks in front of each. -/
inductive ValueLine : OutputLine → List (List Char) → Prop
  | intro {text : List Char} {words : List (List Char)} : Spaced text words → words ≠ [] →
      ValueLine ('v' :: text) words

/-- The lines hold the numbers, cut into lines in some way. -/
inductive Lists : List OutputLine → List Literal → Prop
  | intro {body : List OutputLine} {chunks : List (List (List Char))} {numbers : List Literal} :
      List.Forall₂ ValueLine body chunks → List.Forall₂ IsSignedNumeral chunks.flatten numbers →
      Lists body numbers

/-- The lines are a complete output: the status, then the literals of a solution and a zero. -/
inductive SolutionOutput : List OutputLine → List Literal → Prop
  | intro {body : List OutputLine} {literals : List Literal} :
      Lists body (literals ++ [0]) → 0 ∉ literals → SolutionOutput (satisfiableLine :: body) literals

/-! ### Lines that are cut in two -/

theorem exists_of_forall₂_append {α β : Type} {R : α → β → Prop} {front back : List α}
    {images : List β} (related : List.Forall₂ R (front ++ back) images) :
    ∃ first second, images = first ++ second ∧
      List.Forall₂ R front first ∧ List.Forall₂ R back second := by
  induction front generalizing images with
  | nil => exact ⟨[], images, rfl, .nil, related⟩
  | cons head front ih =>
    cases related with
    | cons one later =>
      obtain ⟨first, second, rfl, whole, rest⟩ := ih later
      exact ⟨_ :: first, second, rfl, .cons one whole, rest⟩

theorem Lists.of_append {front back : List OutputLine} (lists : Lists (front ++ back) numbers) :
    ∃ first second, numbers = first ++ second ∧ Lists front first ∧ Lists back second := by
  cases lists with
  | intro cut numerals =>
    obtain ⟨chunks, chunks', rfl, cut, cut'⟩ := exists_of_forall₂_append cut
    rw [List.flatten_append] at numerals
    obtain ⟨first, second, same, some_, others⟩ := exists_of_forall₂_append numerals
    exact ⟨first, second, same, .intro cut some_, .intro cut' others⟩

/-- A line holds at least one number. -/
theorem Lists.ne_nil (lists : Lists body numbers) (some_ : body ≠ []) : numbers ≠ [] := by
  rintro rfl
  cases lists with
  | intro cut numerals =>
    cases cut with
    | nil => exact some_ rfl
    | cons value _ =>
      cases value with
      | intro _ nonempty =>
        have empty := List.forall₂_nil_right_iff.1 numerals
        rw [List.flatten_cons, List.append_eq_nil_iff] at empty
        exact nonempty empty.1

/-! ### Reading the words -/

theorem solutionWords_of_forall₂ (cut : List.Forall₂ ValueLine body chunks) :
    solutionWords body = chunks.flatten := by
  induction cut with
  | nil => rfl
  | @cons line chunk body chunks value _ ih =>
    have first : (Text.words line).drop 1 = chunk := by
      cases value with
      | @intro text words spaced _ =>
        have isWord : IsWord ['v'] := ⟨by decide, List.forall_mem_singleton.2 (by decide)⟩
        have tag : Text.words ['v'] = [['v']] := words_of_isWord isWord
        have cut := words_append_of_spaced spaced ['v']
        rw [tag] at cut
        exact congrArg (List.drop 1) cut
    rw [solutionWords, List.flatMap_cons, first, List.flatten_cons, ← ih, solutionWords]

theorem readLiterals_of_forall₂ (numerals : List.Forall₂ IsSignedNumeral words numbers) :
    readLiterals words = .ok numbers := by
  induction numerals with
  | nil => rfl
  | cons numeral _ ih =>
    rw [readLiterals, readSigned?_eq_some_iff.2 numeral, ih]
    rfl

/-- The reading stops at the first word that is no number. -/
theorem readLiterals_of_first {word : List Char} {after : List (List Char)}
    (numerals : ∀ other ∈ words, ∃ literal, IsSignedNumeral other literal)
    (none : ∀ literal, ¬ IsSignedNumeral word literal) :
    readLiterals (words ++ word :: after) = .error (.notLiteral (String.ofList word)) := by
  induction words with
  | nil =>
    have unread : readSigned? word = .none := by
      rw [Option.eq_none_iff_forall_ne_some]
      exact fun literal read => none literal (readSigned?_eq_some_iff.1 read)
    rw [List.nil_append, readLiterals, unread]
  | cons first words ih =>
    obtain ⟨⟨literal, numeral⟩, later⟩ := List.forall_mem_cons.1 numerals
    rw [List.cons_append, readLiterals, readSigned?_eq_some_iff.2 numeral, ih later]
    rfl

/-! ### Reading the lines -/

theorem readSolution_of_body (some_ : body ≠ []) :
    readSolution (satisfiableLine :: body) =
      ((readLiterals (solutionWords body)).mapError (malformed · (satisfiableLine :: body))).map
        fun numbers => .satisfiable (numbers.filter (· != 0)) := by
  rw [readSolution, if_pos rfl, if_neg some_]
  cases readLiterals (solutionWords body) with
  | error flaw => rfl
  | ok numbers => rfl

/-- The zeros are left out wherever they are, and none is needed. -/
theorem readSolution_of_lists (some_ : body ≠ []) (lists : Lists body numbers) :
    readSolution (satisfiableLine :: body) = .ok (.satisfiable (numbers.filter (· != 0))) := by
  cases lists with
  | intro cut numerals =>
    rw [readSolution_of_body some_, solutionWords_of_forall₂ cut, readLiterals_of_forall₂ numerals]
    rfl

theorem filter_nonzero (nonzero : 0 ∉ literals) : literals.filter (· != 0) = literals := by
  rw [List.filter_eq_self]
  intro literal member
  rw [bne_iff_ne]
  rintro rfl
  exact nonzero member

theorem readSolution_of_solutionOutput (output : SolutionOutput lines literals) :
    readSolution lines = .ok (.satisfiable literals) := by
  cases output with
  | @intro body _ lists nonzero =>
    have some_ : body ≠ [] := by
      rintro rfl
      cases lists with
      | intro cut numerals =>
        cases cut
        exact absurd (List.forall₂_nil_left_iff.1 numerals) (by simp)
    rw [readSolution_of_lists some_ lists, List.filter_append, filter_nonzero nonzero]
    exact congrArg (fun kept => Except.ok (Verdict.satisfiable kept)) (List.append_nil literals)

/-- A solution is read from any complete output, however it is cut into lines.  If some of the
words on its lines are no numbers, the first of these is named, and all lines are reported. -/
theorem readSolution_wrapped :
    (∀ lines literals, SolutionOutput lines literals →
      readSolution lines = .ok (.satisfiable literals)) ∧
    ∀ body chunks before word after, List.Forall₂ ValueLine body chunks →
      chunks.flatten = before ++ word :: after →
      (∀ other ∈ before, ∃ literal, IsSignedNumeral other literal) →
      (∀ literal, ¬ IsSignedNumeral word literal) →
      readSolution (satisfiableLine :: body) = .error (.malformedOutput
        (.notLiteral (String.ofList word))
        (String.ofList (['\n'].intercalate (satisfiableLine :: body)))) := by
  refine ⟨fun lines literals => readSolution_of_solutionOutput, ?_⟩
  intro body chunks before word after cut first numerals none
  have some_ : body ≠ [] := by
    rintro rfl
    cases cut
    exact absurd first (by simp)
  rw [readSolution_of_body some_, solutionWords_of_forall₂ cut, first,
    readLiterals_of_first numerals none]
  rfl

/-- Three numbers and the zero on two lines, with blanks of several kinds. -/
def wrappedLines : List OutputLine := ["v 1\t -2".toList, "v\u00a0+003 0 ".toList]

theorem valueLine_of_words {c : Char} {text : List Char} {words : List (List Char)}
    (blank : isBlank c = true) (cut : Text.words (c :: text) = words) (some_ : words ≠ []) :
    ValueLine ('v' :: c :: text) words := by
  refine .intro (spaced_iff.2 ⟨cut, fun d first => ?_⟩) some_
  cases first
  exact blank

theorem readSolution_wrapped_wrappedLines :
    readSolution (satisfiableLine :: wrappedLines) = .ok (.satisfiable [1, -2, 3]) ∧
    readSolution ["s SATISFIABLE".toList, "v 1 -x".toList, "v 3 + 0".toList] =
      .error (.malformedOutput (.notLiteral "-x") "s SATISFIABLE\nv 1 -x\nv 3 + 0") := by
  obtain ⟨whole, broken⟩ := readSolution_wrapped
  constructor
  · have cut : List.Forall₂ ValueLine wrappedLines
        [["1".toList, "-2".toList], ["+003".toList, "0".toList]] :=
      .cons (valueLine_of_words (by decide) (by decide) (by decide))
        (.cons (valueLine_of_words (by decide) (by decide) (by decide)) .nil)
    refine whole _ _ (.intro (.intro cut ?_) (by decide))
    exact .cons (readSigned?_eq_some_iff.1 (by decide)) (.cons (readSigned?_eq_some_iff.1 (by decide))
      (.cons (readSigned?_eq_some_iff.1 (by decide))
        (.cons (readSigned?_eq_some_iff.1 (by decide)) .nil)))
  · have cut : List.Forall₂ ValueLine ["v 1 -x".toList, "v 3 + 0".toList]
        [["1".toList, "-x".toList], ["3".toList, "+".toList, "0".toList]] :=
      .cons (valueLine_of_words (by decide) (by decide) (by decide))
        (.cons (valueLine_of_words (by decide) (by decide) (by decide)) .nil)
    refine broken _ _ ["1".toList] "-x".toList ["3".toList, "+".toList, "0".toList] cut rfl ?_ ?_
    · exact List.forall_mem_singleton.2 ⟨1, readSigned?_eq_some_iff.1 (by decide)⟩
    · intro literal numeral
      have unread : readSigned? "-x".toList = none := by decide
      rw [readSigned?_eq_some_iff.2 numeral] at unread
      cases unread

/-! ### Outputs that break off -/

/-- The last number of a complete output is its zero, so that a proper part of the lines holds a
first part of the literals. -/
theorem Lists.kept_of_append {rest : List OutputLine} (lists : Lists (kept ++ rest) (literals ++ [0]))
    (some_ : rest ≠ []) : ∃ front back, literals = front ++ back ∧ Lists kept front := by
  obtain ⟨front, lost, same, held, others⟩ := lists.of_append
  rcases List.eq_nil_or_concat lost with rfl | ⟨back, last, rfl⟩
  · exact absurd rfl (others.ne_nil some_)
  · rw [List.concat_eq_append, ← List.append_assoc] at same
    exact ⟨front, back, (List.append_inj' same rfl).1, held⟩

/-- Of a complete output that breaks off at the end of a line, nothing is read only if no line of
values is left.  Otherwise the literals on the lines that are left are taken for the solution. -/
theorem readSolution_truncated (output : SolutionOutput lines literals) (cut : kept <+: lines)
    (proper : kept ≠ lines) :
    ((∃ fault, readSolution kept = .error fault) ↔ kept.length ≤ 1) ∧
    (1 < kept.length → ∃ front back, literals = front ++ back ∧ Lists kept.tail front ∧
      readSolution kept = .ok (.satisfiable front)) := by
  cases output with
  | @intro body _ lists nonzero =>
    rcases List.prefix_cons_iff.1 cut with rfl | ⟨kept, rfl, rest, rfl⟩
    · exact ⟨⟨fun _ => Nat.zero_le 1, fun _ => ⟨_, rfl⟩⟩, fun long => absurd long (by decide)⟩
    · have some_ : rest ≠ [] := by
        rintro rfl
        exact proper (by rw [List.append_nil])
      obtain ⟨front, back, rfl, held⟩ := lists.kept_of_append some_
      have nonzero' : 0 ∉ front := fun member => nonzero (List.mem_append_left back member)
      by_cases none : kept = []
      · subst none
        exact ⟨⟨fun _ => Nat.le_refl 1, fun _ => ⟨_, rfl⟩⟩, fun long => absurd long (by decide)⟩
      · have long := List.length_pos_of_ne_nil none
        have read := readSolution_of_lists none held
        rw [filter_nonzero nonzero'] at read
        refine ⟨⟨?_, fun short => ?_⟩, fun _ => ⟨front, back, rfl, held, read⟩⟩
        · rintro ⟨fault, failed⟩
          rw [read] at failed
          cases failed
        · rw [List.length_cons] at short
          omega

/-- The complete output of a solution of two literals, one on each line. -/
def splitLines : List OutputLine := [satisfiableLine, "v 1".toList, "v -2 0".toList]

theorem solutionOutput_splitLines : SolutionOutput splitLines [1, -2] := by
  have cut : List.Forall₂ ValueLine ["v 1".toList, "v -2 0".toList]
      [["1".toList], ["-2".toList, "0".toList]] :=
    .cons (valueLine_of_words (by decide) (by decide) (by decide))
      (.cons (valueLine_of_words (by decide) (by decide) (by decide)) .nil)
  refine .intro (.intro cut ?_) (by decide)
  exact .cons (readSigned?_eq_some_iff.1 (by decide)) (.cons (readSigned?_eq_some_iff.1 (by decide))
    (.cons (readSigned?_eq_some_iff.1 (by decide)) .nil))

/-- What is left of the output when its last line is missing. -/
def brokenLines : List OutputLine := [satisfiableLine, "v 1".toList]

theorem brokenLines_prefix : brokenLines <+: splitLines := ⟨["v -2 0".toList], rfl⟩

theorem readSolution_truncated_splitLines :
    (∃ fault, readSolution [satisfiableLine] = .error fault) ∧
    ∃ front, readSolution brokenLines = .ok (.satisfiable front) := by
  have status : [satisfiableLine] <+: splitLines := ⟨["v 1".toList, "v -2 0".toList], rfl⟩
  constructor
  · exact (readSolution_truncated solutionOutput_splitLines status (by decide)).1.2 (by decide)
  · obtain ⟨-, goesOn⟩ :=
      readSolution_truncated solutionOutput_splitLines brokenLines_prefix (by decide)
    obtain ⟨front, back, -, -, read⟩ := goesOn (by decide)
    exact ⟨front, read⟩

/-- The first two of three lines are taken for a solution, though its second literal is missing. -/
theorem readSolution_brokenLines : SolutionOutput splitLines [1, -2] ∧
    brokenLines <+: splitLines ∧ brokenLines ≠ splitLines ∧
    readSolution brokenLines = .ok (.satisfiable [1]) :=
  ⟨solutionOutput_splitLines, brokenLines_prefix, by decide, rfl⟩

end Backbone.External
