import Mathlib.Data.List.Forall2
import Backbone.Oracle.External
import Backbone.Proofs.Text.Numeral

/-!
# Outputs of a backbone extractor

The lines that a backbone extractor may print, and what is read of each.  A core is taken over only
from a complete output: a line for each of its literals and the two trailer lines.  Anything else is
refused with all lines, unless one of them says that there is no solution, or that the formula was
not decided.

* `Gives` — a line gives a literal;
* `CoreOutput` — the lines are a complete output;
* `Flawed` — what is wrong with lines that are none;
* `coreReport` — the complete output in its tidiest form;
* `coreOutput_or_flawed` — all lines are the one or the other;
* `readCore_of_coreOutput`, `readCore_of_flawed` — both are read as what they are;
* `readCore_complete` — what is read of any lines, and of an output that breaks off.
-/

namespace Backbone.External

open Text

variable {lines : List OutputLine} {line terminator status : OutputLine} {literal : Literal}
  {core : List Literal} {flaw : OutputFlaw}

/-! ### What the lines say -/

/-- The line gives a literal: the letter, a space, and a nonzero number with blanks around it. -/
inductive Gives : OutputLine → Literal → Prop
  | intro {before numeral after : List Char} {literal : Literal} : AllBlank before →
      AllBlank after → IsSignedNumeral numeral literal → literal ≠ 0 →
      Gives ('b' :: ' ' :: (before ++ numeral ++ after)) literal

/-- The two lines end a core. -/
structure Ends (terminator status : OutputLine) : Prop where
  terminator : trim terminator = "b 0".toList
  status : "s ".toList <+: status

/-- The lines are a complete output: one for each literal of the core, then the two that end it. -/
inductive CoreOutput : List OutputLine → List Literal → Prop
  | intro {body : List OutputLine} {terminator status : OutputLine} {core : List Literal} :
      List.Forall₂ Gives body core → Ends terminator status →
      CoreOutput (body ++ [terminator, status]) core

/-- The lines are no complete output, for the reason given. -/
inductive Flawed : List OutputLine → OutputFlaw → Prop
  | empty : Flawed [] .empty
  | noTrailer (line : OutputLine) : Flawed [line] .noTrailer
  | unterminated {body : List OutputLine} {terminator status : OutputLine} :
      ¬ Ends terminator status → Flawed (body ++ [terminator, status]) .unterminated
  /-- The first line that gives no literal is named. -/
  | notCoreLiteral {before after : List OutputLine} {line terminator status : OutputLine}
      {core : List Literal} : List.Forall₂ Gives before core → (∀ literal, ¬ Gives line literal) →
      Ends terminator status → Flawed (before ++ line :: after ++ [terminator, status])
        (.notCoreLiteral (String.ofList line))

theorem forall₂_gives_or_first (body : List OutputLine) :
    (∃ core, List.Forall₂ Gives body core) ∨
      ∃ before line after core, body = before ++ line :: after ∧
        List.Forall₂ Gives before core ∧ ∀ literal, ¬ Gives line literal := by
  induction body with
  | nil => exact .inl ⟨[], .nil⟩
  | cons head body ih =>
    by_cases gives : ∃ literal, Gives head literal
    · obtain ⟨literal, gives⟩ := gives
      rcases ih with ⟨core, all⟩ | ⟨before, line, after, core, rfl, all, none⟩
      · exact .inl ⟨literal :: core, .cons gives all⟩
      · exact .inr ⟨head :: before, line, after, literal :: core, rfl, .cons gives all, none⟩
    · exact .inr ⟨[], head, body, [], rfl, .nil, fun literal given => gives ⟨literal, given⟩⟩

theorem coreOutput_or_flawed (lines : List OutputLine) :
    (∃ core, CoreOutput lines core) ∨ ∃ flaw, Flawed lines flaw := by
  rcases List.eq_nil_or_concat lines with rfl | ⟨front, status, rfl⟩
  · exact .inr ⟨_, .empty⟩
  · rcases List.eq_nil_or_concat front with rfl | ⟨body, terminator, rfl⟩
    · exact .inr ⟨_, .noTrailer status⟩
    · rw [List.concat_eq_append, List.concat_eq_append, List.append_assoc, List.singleton_append]
      by_cases ends : Ends terminator status
      · rcases forall₂_gives_or_first body with
          ⟨core, all⟩ | ⟨before, line, after, core, rfl, all, none⟩
        · exact .inl ⟨core, .intro all ends⟩
        · exact .inr ⟨_, .notCoreLiteral all none ends⟩
      · exact .inr ⟨_, .unterminated ends⟩

/-! ### Reading a line -/

theorem readCoreLine?_eq_some_iff : readCoreLine? line = some literal ↔ Gives line literal := by
  constructor
  · intro read
    unfold readCoreLine? at read
    split at read
    · rename_i rest
      rw [Option.filter_eq_some_iff] at read
      obtain ⟨number, nonzero⟩ := read
      have numeral := readSigned?_eq_some_iff.1 number
      obtain ⟨before, after, blank, blankAfter, cut⟩ := exists_blanks_around rest
      rw [cut]
      exact .intro blank blankAfter numeral (by simpa using nonzero)
    · cases read
  · intro gives
    cases gives with
    | @intro before numeral after _ blank blankAfter isNumeral nonzero =>
      have starts : StartsClear numeral := fun c first =>
        isBlank_of_isSignedNumeral isNumeral (List.mem_of_mem_head? first)
      have ends : EndsClear numeral := fun c last =>
        isBlank_of_isSignedNumeral isNumeral (List.mem_of_mem_getLast? last)
      have trimmed := (trim_eq_iff starts ends).2 ⟨before, after, blank, blankAfter, rfl⟩
      rw [readCoreLine?, trimmed, readSigned?_eq_some_iff.2 isNumeral, Option.filter_some,
        if_pos (by simpa using nonzero)]

theorem readCoreLine?_eq_none (none : ∀ literal, ¬ Gives line literal) :
    readCoreLine? line = .none := by
  rw [Option.eq_none_iff_forall_ne_some]
  exact fun literal read => none literal (readCoreLine?_eq_some_iff.1 read)

theorem readCoreLines_cons (gives : Gives line literal) :
    readCoreLines (line :: lines) = (readCoreLines lines).map (literal :: ·) := by
  rw [readCoreLines, readCoreLine?_eq_some_iff.2 gives]

theorem readCoreLines_of_forall₂ (all : List.Forall₂ Gives lines core) :
    readCoreLines lines = .ok core := by
  induction all with
  | nil => rfl
  | cons gives _ ih =>
    rw [readCoreLines_cons gives, ih]
    rfl

/-- The reading stops at the first line that gives no literal. -/
theorem readCoreLines_of_first {after : List OutputLine} (all : List.Forall₂ Gives lines core)
    (none : ∀ literal, ¬ Gives line literal) :
    readCoreLines (lines ++ line :: after) = .error (.notCoreLiteral (String.ofList line)) := by
  induction all with
  | nil => rw [List.nil_append, readCoreLines, readCoreLine?_eq_none none]
  | cons gives _ ih =>
    rw [List.cons_append, readCoreLines_cons gives, ih]
    rfl

/-! ### Reading the lines -/

theorem isTrailer_iff : isTrailer terminator status = true ↔ Ends terminator status := by
  rw [isTrailer, Bool.and_eq_true, beq_iff_eq, List.isPrefixOf_iff_prefix]
  exact ⟨fun ⟨terminator, status⟩ => ⟨terminator, status⟩, fun ends => ⟨ends.terminator, ends.status⟩⟩

theorem coreLines_concat (body : List OutputLine) (terminator status : OutputLine) :
    coreLines (body ++ [terminator, status]) =
      if isTrailer terminator status then .ok body else .error .unterminated := by
  rw [coreLines, List.reverse_append]
  show (if isTrailer terminator status = true then
    Except.ok body.reverse.reverse else .error OutputFlaw.unterminated) = _
  rw [List.reverse_reverse]

theorem readCore_of_undecided (nonempty : lines ≠ []) (solvable : unsatisfiableLine ∉ lines)
    (decided : unknownLine ∉ lines) :
    readCore lines = ((coreLines lines >>= readCoreLines).mapError (malformed · lines)) := by
  rw [readCore, if_neg nonempty, if_neg solvable, if_neg decided]
  cases coreLines lines >>= readCoreLines with
  | error flaw => rfl
  | ok literals => rfl

/-- A complete output is read as its core. -/
theorem readCore_of_coreOutput (solvable : unsatisfiableLine ∉ lines)
    (decided : unknownLine ∉ lines) (output : CoreOutput lines core) :
    readCore lines = .ok core := by
  cases output with
  | @intro body terminator status _ all ends =>
    rw [readCore_of_undecided (by simp) solvable decided, coreLines_concat,
      if_pos (isTrailer_iff.2 ends)]
    show Except.mapError _ (readCoreLines body) = _
    rw [readCoreLines_of_forall₂ all]
    rfl

/-- Lines with a flaw are refused for it. -/
theorem readCore_of_flawed (solvable : unsatisfiableLine ∉ lines) (decided : unknownLine ∉ lines)
    (flawed : Flawed lines flaw) : readCore lines = .error (malformed flaw lines) := by
  cases flawed with
  | empty => rfl
  | noTrailer line =>
    rw [readCore_of_undecided (by simp) solvable decided]
    rfl
  | unterminated open_ =>
    rw [readCore_of_undecided (by simp) solvable decided, coreLines_concat,
      if_neg (isTrailer_iff.not.2 open_)]
    rfl
  | @notCoreLiteral before after line terminator status _ all none ends =>
    rw [readCore_of_undecided (by simp) solvable decided, coreLines_concat,
      if_pos (isTrailer_iff.2 ends)]
    show Except.mapError _ (readCoreLines (before ++ line :: after)) = _
    rw [readCoreLines_of_first all none]
    rfl

theorem readCore_eq_ok_iff (solvable : unsatisfiableLine ∉ lines) (decided : unknownLine ∉ lines) :
    readCore lines = .ok core ↔ CoreOutput lines core := by
  constructor
  · intro read
    rcases coreOutput_or_flawed lines with ⟨other, output⟩ | ⟨flaw, flawed⟩
    · rw [readCore_of_coreOutput solvable decided output] at read
      exact Except.ok.inj read ▸ output
    · rw [readCore_of_flawed solvable decided flawed] at read
      cases read
  · exact readCore_of_coreOutput solvable decided

theorem readCore_of_unsatisfiable (unsatisfiable : unsatisfiableLine ∈ lines) :
    readCore lines = .error .unsatisfiable := by
  rw [readCore, if_neg (List.ne_nil_of_mem unsatisfiable), if_pos unsatisfiable]

theorem readCore_of_unknown (solvable : unsatisfiableLine ∉ lines) (unknown : unknownLine ∈ lines) :
    readCore lines = .error .indeterminate := by
  rw [readCore, if_neg (List.ne_nil_of_mem unknown), if_neg solvable, if_pos unknown]

/-- Without a line that says so, no other cause than a flaw of the lines stops the reading. -/
theorem readCore_eq_error (solvable : unsatisfiableLine ∉ lines) (decided : unknownLine ∉ lines)
    {fault : Fault} (failed : readCore lines = .error fault) :
    ∃ flaw, fault = malformed flaw lines := by
  rcases coreOutput_or_flawed lines with ⟨core, output⟩ | ⟨flaw, flawed⟩
  · rw [readCore_of_coreOutput solvable decided output] at failed
    cases failed
  · rw [readCore_of_flawed solvable decided flawed] at failed
    exact ⟨flaw, (Except.error.inj failed).symm⟩

theorem readCore_eq_unsatisfiable_iff :
    readCore lines = .error .unsatisfiable ↔ unsatisfiableLine ∈ lines := by
  refine ⟨fun failed => ?_, readCore_of_unsatisfiable⟩
  by_contra solvable
  by_cases unknown : unknownLine ∈ lines
  · rw [readCore_of_unknown solvable unknown] at failed
    cases failed
  · obtain ⟨flaw, same⟩ := readCore_eq_error solvable unknown failed
    cases same

theorem readCore_eq_indeterminate_iff (solvable : unsatisfiableLine ∉ lines) :
    readCore lines = .error .indeterminate ↔ unknownLine ∈ lines := by
  refine ⟨fun failed => ?_, readCore_of_unknown solvable⟩
  by_contra decided
  obtain ⟨flaw, same⟩ := readCore_eq_error solvable decided failed
  cases same

/-! ### The complete output in its tidiest form -/

/-- The line of a core literal. -/
def coreLine (literal : Literal) : OutputLine := 'b' :: ' ' :: intNumeral literal

/-- The line after the last core literal. -/
def terminatorLine : OutputLine := "b 0".toList

/-- The complete output that lists the core. -/
def coreReport (core : List Literal) : List OutputLine :=
  core.map coreLine ++ [terminatorLine, satisfiableLine]

theorem gives_coreLine (nonzero : literal ≠ 0) (range : InSignedRange literal) :
    Gives (coreLine literal) literal := by
  rw [← readCoreLine?_eq_some_iff, coreLine, readCoreLine?, trim_intNumeral,
    readSigned?_intNumeral range, Option.filter_some, if_pos (by simpa using nonzero)]

theorem coreOutput_coreReport (fine : ∀ literal ∈ core, literal ≠ 0 ∧ InSignedRange literal) :
    CoreOutput (coreReport core) core := by
  have body : List.Forall₂ Gives (core.map coreLine) core := by
    rw [List.forall₂_map_left_iff, List.forall₂_same]
    exact fun literal member => gives_coreLine (fine literal member).1 (fine literal member).2
  exact .intro body ⟨by decide, by decide⟩

theorem coreReport_eq_concat (core : List Literal) :
    coreReport core = (core.map coreLine ++ [terminatorLine]) ++ [satisfiableLine] := by
  rw [coreReport, List.append_assoc, List.singleton_append]

/-- All lines before the last one begin with the letter of the core lines. -/
theorem head?_of_mem_front (member : line ∈ core.map coreLine ++ [terminatorLine]) :
    line.head? = some 'b' := by
  rw [List.mem_append, List.mem_map, List.mem_singleton] at member
  rcases member with ⟨literal, -, rfl⟩ | rfl
  · rfl
  · rfl

theorem notMem_coreReport (letter : line.head? ≠ some 'b') (other : line ≠ satisfiableLine) :
    line ∉ coreReport core := by
  rw [coreReport_eq_concat, List.mem_append, List.mem_singleton]
  rintro (front | last)
  · exact letter (head?_of_mem_front front)
  · exact other last

theorem readCore_coreReport (fine : ∀ literal ∈ core, literal ≠ 0 ∧ InSignedRange literal) :
    readCore (coreReport core) = .ok core :=
  readCore_of_coreOutput (notMem_coreReport (by decide) (by decide))
    (notMem_coreReport (by decide) (by decide)) (coreOutput_coreReport fine)

/-! ### Outputs that break off -/

theorem readCore_of_prefix {shorter : List OutputLine} (cut : shorter <+: coreReport core)
    (proper : shorter ≠ coreReport core) :
    ∃ flaw, readCore shorter = .error (malformed flaw shorter) := by
  rw [coreReport_eq_concat] at cut proper
  have front := (List.prefix_concat_iff.1 cut).resolve_left proper
  have letter : ∀ line ∈ shorter, line.head? = some 'b' := fun line member =>
    head?_of_mem_front (front.subset member)
  have solvable : unsatisfiableLine ∉ shorter := fun member => by cases letter _ member
  have decided : unknownLine ∉ shorter := fun member => by cases letter _ member
  rcases coreOutput_or_flawed shorter with ⟨other, output⟩ | ⟨flaw, flawed⟩
  · -- a complete output ends with a status line, and such a line is missing
    cases output with
    | @intro body terminator status _ _ ends =>
      have last := letter status (by simp)
      obtain ⟨rest, rfl⟩ := ends.status
      cases last
  · exact ⟨flaw, readCore_of_flawed solvable decided flawed⟩

/-! ### The whole -/

/-- Of any lines, a line that says so makes the formula unsatisfiable, or else undecided; without
them a core is read from complete outputs and from nothing else, and all other lines are refused as
they are.  So a complete output is read as its core, while one that breaks off is refused wherever
it does. -/
theorem readCore_complete :
    (∀ lines,
      (readCore lines = .error .unsatisfiable ↔ unsatisfiableLine ∈ lines) ∧
      (unsatisfiableLine ∉ lines →
        (readCore lines = .error .indeterminate ↔ unknownLine ∈ lines)) ∧
      (unsatisfiableLine ∉ lines → unknownLine ∉ lines →
        (∀ core, readCore lines = .ok core ↔ CoreOutput lines core) ∧
        ((∀ core, ¬ CoreOutput lines core) → ∃ flaw, Flawed lines flaw ∧
          readCore lines =
            .error (.malformedOutput flaw (String.ofList (['\n'].intercalate lines)))))) ∧
    ∀ core : List Literal, (∀ literal ∈ core, literal ≠ 0 ∧ InSignedRange literal) →
      readCore (coreReport core) = .ok core ∧
      ∀ shorter, shorter <+: coreReport core → shorter ≠ coreReport core →
        ∃ flaw, readCore shorter =
          .error (.malformedOutput flaw (String.ofList (['\n'].intercalate shorter))) := by
  refine ⟨fun lines => ⟨readCore_eq_unsatisfiable_iff, readCore_eq_indeterminate_iff,
    fun solvable decided => ⟨fun core => readCore_eq_ok_iff solvable decided, fun none => ?_⟩⟩,
    fun core fine => ⟨readCore_coreReport fine, fun shorter => readCore_of_prefix⟩⟩
  rcases coreOutput_or_flawed lines with ⟨core, output⟩ | ⟨flaw, flawed⟩
  · exact absurd output (none core)
  · exact ⟨flaw, flawed, readCore_of_flawed solvable decided flawed⟩

/-- A complete output in a loose form: more blanks than needed, a plus sign and leading zeros. -/
def looseLines : List OutputLine :=
  ["b  +7\t".toList, "b -003".toList, " b 0 ".toList, "s ".toList]

theorem readCore_complete_looseLines :
    readCore looseLines = .ok [7, -3] ∧
    ∃ flaw, readCore ["b 7".toList, "b -3".toList, "b 0".toList] =
      .error (.malformedOutput flaw "b 7\nb -3\nb 0") := by
  obtain ⟨whole, report⟩ := readCore_complete
  constructor
  · obtain ⟨-, -, undecided⟩ := whole looseLines
    have body : List.Forall₂ Gives ["b  +7\t".toList, "b -003".toList] [7, -3] :=
      .cons (readCoreLine?_eq_some_iff.1 (by decide))
        (.cons (readCoreLine?_eq_some_iff.1 (by decide)) .nil)
    have output : CoreOutput looseLines [7, -3] := .intro body ⟨by decide, by decide⟩
    exact ((undecided (by decide) (by decide)).1 [7, -3]).2 output
  · exact (report [7, -3] (by decide)).2 _ ⟨["s SATISFIABLE".toList], rfl⟩ (by decide)

end Backbone.External
