import Mathlib
import Backbone.Proofs.Dimacs.Tokens

/-!
# The line at which a text is refused

A text that describes no formula is refused at its first flawed line, and after its last line if
just the problem line is missing.  Whether a line is flawed depends on the lines before it only
through the problem line among them.

* `Flawed` — what can be wrong with a line after a given problem line, or before it;
* `Flawed.collect`, `collect_of_fine` — the reader on a line that is flawed, or is not;
* `Refuses`, `collect_eq_error_iff` — the number of the line at which the reader stops, and why;
* `ofDimacs_grammar` — a text is accepted with the formula that its tokens describe, or refused for
  the first thing that is wrong with it.
-/

namespace Backbone.Dimacs

variable {total number : Nat} {header? : Option Header} {line : List Char} {flaw : DimacsFlaw}
  {fault : Fault} {rest numbered : List (Nat × List Char)}

/-! ### Flaws of one line -/

/-- What is wrong with a line, given the problem line before it, if there was one. -/
inductive Flawed : Option Header → List Char → DimacsFlaw → Prop
  /-- No kind of line begins like this one. -/
  | unrecognized {header? : Option Header} {line : List Char} :
      Line.lex line = none → Flawed header? line (.unrecognized (String.ofList line))
  /-- The line goes on after what could be lexed. -/
  | leftover {header? : Option Header} {line : List Char} {token : Line} {c : Char}
      {rest : List Char} :
      Line.lex line = some (token, c :: rest) →
      Flawed header? line (.leftover (String.ofList (c :: rest)))
  /-- There was a problem line before. -/
  | second {header another : Header} {line : List Char} :
      Line.lex line = some (.problem another, []) → Flawed (some header) line .secondProblem
  /-- There was no problem line before. -/
  | early {line : List Char} {values : List Int} :
      Line.lex line = some (.numbers values, []) → Flawed none line .clauseBeforeProblem
  /-- The literal is the first of the line with a variable that the formula has not. -/
  | undeclared {header : Header} {line : List Char} {before after : List Int}
      {literal : Literal} :
      Line.lex line = some (.numbers (before ++ literal :: after), []) →
      (∀ number ∈ before, number.natAbs ≤ header.numVariables) →
      header.numVariables < literal.natAbs →
      Flawed (some header) line (.undeclaredLiteral literal header.numVariables)

theorem undeclared?_eq_some_iff {header : Header} {values : List Int} {literal : Literal} :
    undeclared? header values = some literal ↔ ∃ before after,
      values = before ++ literal :: after ∧
        (∀ number ∈ before, number.natAbs ≤ header.numVariables) ∧
          header.numVariables < literal.natAbs := by
  simp only [undeclared?, List.find?_eq_some_iff_append, decide_eq_true_eq, Bool.not_eq_true',
    decide_eq_false_iff_not, Nat.not_lt]
  constructor
  · intro found
    obtain ⟨above, before, after, same, within⟩ := found
    exact ⟨before, after, same, within, above⟩
  · intro given
    obtain ⟨before, after, same, within, above⟩ := given
    exact ⟨above, before, after, same, within⟩

theorem Flawed.of_error (lexed : lexLine line = .error flaw) : Flawed header? line flaw := by
  rw [lexLine] at lexed
  split at lexed
  · rename_i nothing
    cases lexed
    exact .unrecognized nothing
  · cases lexed
  · rename_i token rest notWhole found
    cases lexed
    cases rest with
    | nil => exact absurd rfl notWhole
    | cons c rest => exact .leftover found

theorem Flawed.of_problem {header another : Header}
    (lexed : lexLine line = .ok (.problem another)) : Flawed (some header) line .secondProblem :=
  .second (lexLine_eq_ok_iff.1 lexed)

theorem Flawed.of_numbers {values : List Int} (lexed : lexLine line = .ok (.numbers values)) :
    Flawed none line .clauseBeforeProblem :=
  .early (lexLine_eq_ok_iff.1 lexed)

theorem Flawed.of_undeclared {header : Header} {values : List Int} {literal : Literal}
    (lexed : lexLine line = .ok (.numbers values))
    (above : undeclared? header values = some literal) :
    Flawed (some header) line (.undeclaredLiteral literal header.numVariables) := by
  obtain ⟨before, after, rfl, within, above⟩ := undeclared?_eq_some_iff.1 above
  exact .undeclared (lexLine_eq_ok_iff.1 lexed) within above

/-- Whatever comes after a flawed line, the reader stops there. -/
theorem Flawed.collect (flawed : Flawed header? line flaw) :
    collect total header? ((number, line) :: rest) = .error (.invalidDimacs number flaw) := by
  rw [Dimacs.collect.eq_def]
  cases flawed with
  | unrecognized nothing => simp only [lexLine, nothing]
  | leftover found => simp only [lexLine, found]
  | second whole => simp only [lexLine_eq_ok_iff.2 whole]
  | early whole => simp only [lexLine_eq_ok_iff.2 whole]
  | @undeclared header line before after literal whole within above =>
    have first : undeclared? header (before ++ literal :: after) = some literal :=
      undeclared?_eq_some_iff.2 ⟨before, after, rfl, within, above⟩
    simp only [lexLine_eq_ok_iff.2 whole, first]

/-- The reader itself shows that there is one flaw at most. -/
theorem Flawed.unique {other : DimacsFlaw} (flawed : Flawed header? line flaw)
    (also : Flawed header? line other) : flaw = other := by
  have first : Dimacs.collect 0 header? [(0, line)] = .error (.invalidDimacs 0 flaw) :=
    flawed.collect
  rw [also.collect] at first
  cases first
  rfl

/-- The problem line, if the line is one. -/
def problem? (line : List Char) : Option Header :=
  match Line.lex line with
  | some (.problem header, []) => some header
  | _ => none

theorem problem?_of_lexLine {token : Line} (lexed : lexLine line = .ok token) :
    problem? line = match token with
      | .problem header => some header
      | _ => none := by
  rw [problem?, lexLine_eq_ok_iff.1 lexed]
  cases token <;> rfl

/-- After a line without a flaw the reader fails just if it fails on the lines after it. -/
theorem collect_of_fine (fine : ∀ flaw, ¬ Flawed header? line flaw) (goes : goesOn line = true) :
    collect total header? ((number, line) :: rest) = .error fault ↔
      collect total (header?.or (problem? line)) rest = .error fault := by
  cases lexed : lexLine line with
  | error flaw => exact absurd (.of_error lexed) (fine flaw)
  | ok token =>
    rw [problem?_of_lexLine lexed]
    cases token with
    | comment => rw [collect_comment lexed, Option.or_none]
    | name index given => rw [collect_name lexed, except_map_eq_error_iff, Option.or_none]
    | problem header =>
      cases header? with
      | none => rw [collect_problem lexed, Option.none_or]
      | some known => exact absurd (.of_problem lexed) (fine _)
    | numbers values =>
      cases header? with
      | none => exact absurd (.of_numbers lexed) (fine _)
      | some header =>
        cases above : undeclared? header values with
        | some literal => exact absurd (.of_undeclared lexed above) (fine _)
        | none => rw [collect_numbers lexed above, except_map_eq_error_iff, Option.or_none]
    | stop => exact absurd lexed (goesOn_iff.1 goes)

theorem collect_mark (ends : goesOn line = false) :
    collect total header? ((number, line) :: rest) = collect total header? [] := by
  rw [collect.eq_def]
  simp only [goesOn_eq_false_iff.1 ends]
  cases header? with
  | none => rfl
  | some header => rfl

/-! ### The first flawed line -/

/-- The problem line that was read before the lines, or else the first one among them. -/
def problemAfter (header? : Option Header) (numbered : List (Nat × List Char)) : Option Header :=
  header?.or (numbered.findSome? fun entry => problem? entry.2)

/-- Nothing is wrong with any of the lines. -/
def Flawless (header? : Option Header) (numbered : List (Nat × List Char)) : Prop :=
  ∀ before number line after, numbered = before ++ (number, line) :: after →
    ∀ flaw, ¬ Flawed (problemAfter header? before) line flaw

/-- The number of the first flawed line and its flaw; if no line is flawed, but there is no problem
line either, the given number of lines. -/
inductive Refuses (total : Nat) (header? : Option Header) (numbered : List (Nat × List Char)) :
    Nat → DimacsFlaw → Prop
  | flawed {before after : List (Nat × List Char)} {number : Nat} {line : List Char}
      {flaw : DimacsFlaw} :
      numbered = before ++ (number, line) :: after → Flawless header? before →
      Flawed (problemAfter header? before) line flaw → Refuses total header? numbered number flaw
  | noProblem :
      Flawless header? numbered → problemAfter header? numbered = none →
      Refuses total header? numbered total .noProblem

theorem problemAfter_nil : problemAfter header? [] = header? := by
  rw [problemAfter, List.findSome?_nil, Option.or_none]

theorem problemAfter_cons :
    problemAfter header? ((number, line) :: numbered) =
      problemAfter (header?.or (problem? line)) numbered := by
  rw [problemAfter, problemAfter, List.findSome?_cons, Option.or_assoc]
  cases problem? line with
  | none => rfl
  | some header => rfl

theorem flawless_nil : Flawless header? [] := by
  intro before number line after same
  exact absurd same.symm (List.append_ne_nil_of_right_ne_nil before (List.cons_ne_nil _ after))

theorem flawless_cons :
    Flawless header? ((number, line) :: numbered) ↔
      (∀ flaw, ¬ Flawed header? line flaw) ∧
        Flawless (header?.or (problem? line)) numbered := by
  constructor
  · intro flawless
    constructor
    · have first := flawless [] number line numbered rfl
      rwa [problemAfter_nil] at first
    · intro before number' line' after same
      have later := flawless ((number, line) :: before) number' line' after (by rw [same]; rfl)
      rwa [problemAfter_cons] at later
  · intro fine before number' line' after same
    cases before with
    | nil =>
      cases same
      rw [problemAfter_nil]
      exact fine.1
    | cons first before =>
      cases same
      rw [problemAfter_cons]
      exact fine.2 before number' line' after rfl

theorem refuses_nil :
    Refuses total header? [] number flaw ↔
      header? = none ∧ number = total ∧ flaw = .noProblem := by
  constructor
  · intro refuses
    cases refuses with
    | @flawed before after _ _ _ same =>
      exact absurd same.symm (List.append_ne_nil_of_right_ne_nil before (List.cons_ne_nil _ after))
    | noProblem _ missing =>
      rw [problemAfter_nil] at missing
      exact ⟨missing, rfl, rfl⟩
  · intro given
    obtain ⟨rfl, rfl, rfl⟩ := given
    exact .noProblem flawless_nil rfl

theorem Flawed.refuses_iff {n : Nat} {other : DimacsFlaw} (flawed : Flawed header? line flaw) :
    Refuses total header? ((number, line) :: numbered) n other ↔ n = number ∧ other = flaw := by
  constructor
  · intro refuses
    cases refuses with
    | @flawed before after _ _ _ same flawless also =>
      cases before with
      | nil =>
        cases same
        rw [problemAfter_nil] at also
        exact ⟨rfl, also.unique flawed⟩
      | cons first before =>
        cases same
        exact absurd flawed ((flawless_cons.1 flawless).1 flaw)
    | noProblem flawless _ => exact absurd flawed ((flawless_cons.1 flawless).1 flaw)
  · intro given
    obtain ⟨rfl, rfl⟩ := given
    refine .flawed (List.nil_append _).symm flawless_nil ?_
    rwa [problemAfter_nil]

theorem refuses_cons {n : Nat} (fine : ∀ flaw, ¬ Flawed header? line flaw) :
    Refuses total header? ((number, line) :: numbered) n flaw ↔
      Refuses total (header?.or (problem? line)) numbered n flaw := by
  constructor
  · intro refuses
    cases refuses with
    | @flawed before after _ _ _ same flawless flawed =>
      cases before with
      | nil =>
        cases same
        rw [problemAfter_nil] at flawed
        exact absurd flawed (fine flaw)
      | cons first before =>
        cases same
        rw [problemAfter_cons] at flawed
        exact .flawed rfl (flawless_cons.1 flawless).2 flawed
    | noProblem flawless missing =>
      rw [problemAfter_cons] at missing
      exact .noProblem (flawless_cons.1 flawless).2 missing
  · intro refuses
    cases refuses with
    | flawed same flawless flawed =>
      refine .flawed (congrArg ((number, line) :: ·) same) (flawless_cons.2 ⟨fine, flawless⟩) ?_
      rwa [problemAfter_cons]
    | noProblem flawless missing =>
      refine .noProblem (flawless_cons.2 ⟨fine, flawless⟩) ?_
      rwa [problemAfter_cons]

/-! ### Refused texts -/

theorem collect_nil_eq_error_iff :
    collect total header? [] = .error fault ↔
      ∃ number flaw, fault = .invalidDimacs number flaw ∧ Refuses total header? [] number flaw := by
  simp only [refuses_nil]
  cases header? with
  | none =>
    constructor
    · intro failed
      cases failed
      exact ⟨total, .noProblem, rfl, rfl, rfl, rfl⟩
    · intro refused
      obtain ⟨_, _, rfl, -, rfl, rfl⟩ := refused
      rfl
  | some header =>
    constructor
    · intro failed
      cases failed
    · intro refused
      obtain ⟨_, _, _, none_, _⟩ := refused
      cases none_

theorem collect_eq_error_iff :
    collect total header? numbered = .error fault ↔
      ∃ number flaw, fault = .invalidDimacs number flaw ∧
        Refuses total header? (numbered.takeWhile fun entry => goesOn entry.2) number flaw := by
  induction numbered generalizing header? with
  | nil => exact collect_nil_eq_error_iff
  | cons entry rest ih =>
    obtain ⟨number, line⟩ := entry
    rw [List.takeWhile_cons]
    cases goes : goesOn line with
    | false =>
      rw [collect_mark goes, if_neg Bool.false_ne_true]
      exact collect_nil_eq_error_iff
    | true =>
      rw [if_pos rfl]
      -- a line that is not flawed has a part in the rest only by the problem line that it may be
      by_cases flawed : ∃ flaw, Flawed header? line flaw
      · obtain ⟨flaw, flawed⟩ := flawed
        simp only [flawed.collect, flawed.refuses_iff]
        constructor
        · intro failed
          cases failed
          exact ⟨number, flaw, rfl, rfl, rfl⟩
        · intro refused
          obtain ⟨_, _, rfl, rfl, rfl⟩ := refused
          rfl
      · have fine := not_exists.1 flawed
        simp only [collect_of_fine fine goes, refuses_cons fine]
        exact ih

theorem ofDimacs_eq_error_iff {text : String} :
    Formula.ofDimacs text = .error fault ↔
      ∃ number flaw, fault = .invalidDimacs number flaw ∧
        Refuses (Text.lines text.toList).length none (linesRead text.toList) number flaw := by
  rw [Formula.ofDimacs, except_map_eq_error_iff, read, except_map_eq_error_iff, linesRead_eq]
  exact collect_eq_error_iff

/-- Every text is accepted with the formula that the tokens of its lines describe, or refused at
its first flawed line. -/
theorem ofDimacs_grammar (text : String) :
    (∀ formula, Formula.ofDimacs text = .ok formula ↔
      ∃ tokens, (linesRead text.toList).map (fun entry => Line.lex entry.2) =
          tokens.map (fun token => some (token, [])) ∧
        Describes tokens formula) ∧
    ∀ fault, Formula.ofDimacs text = .error fault ↔
      ∃ number flaw, fault = .invalidDimacs number flaw ∧
        Refuses (Text.lines text.toList).length none (linesRead text.toList) number flaw :=
  ⟨fun _ => ofDimacs_eq_ok_iff_describes, fun _ => ofDimacs_eq_error_iff⟩

/-- A text with blanks and a carriage return around its lines, a line with nothing on it, a clause
that is spread over two lines, and numbers after the end mark. -/
def looseText : String := "c 2 b\r\n\n  p cnf 2 1\t\n\u00a0 1\n-2 0 2\n%\n7 0\n"

/-- A text with two undeclared literals on its fourth line. -/
def boldText : String := "\r\n p cnf 2 1\n\n1 0 -3 4 0\r\n"

theorem ofDimacs_grammar_looseText :
    linesRead looseText.toList =
      [(1, "c 2 b".toList), (3, "p cnf 2 1".toList), (4, "1".toList), (5, "-2 0 2".toList)] ∧
    Formula.ofDimacs looseText = .ok ⟨2, [[1, -2], [2]], .ofList [(2, "b")]⟩ ∧
    linesRead boldText.toList = [(2, "p cnf 2 1".toList), (4, "1 0 -3 4 0".toList)] ∧
    Formula.ofDimacs boldText = .error (.invalidDimacs 4 (.undeclaredLiteral (-3) 2)) := by
  have accepted : linesRead looseText.toList =
      [(1, "c 2 b".toList), (3, "p cnf 2 1".toList), (4, "1".toList), (5, "-2 0 2".toList)] := by
    cbv
  have refused : linesRead boldText.toList =
      [(2, "p cnf 2 1".toList)] ++ (4, "1 0 -3 4 0".toList) :: [] := by cbv
  refine ⟨accepted, ?_, refused, ?_⟩
  · refine ((ofDimacs_grammar looseText).1 _).2
      ⟨[.name 2 "b", .problem ⟨2, 1⟩, .numbers [1], .numbers [-2, 0, 2]], ?_, ?_⟩
    · rw [accepted]
      cbv
    · exact {
        headed := ⟨⟨2, 1⟩, ⟨[.name 2 "b"], _, rfl, by simp, by simp⟩, rfl⟩
        within := by decide
        clauses := ⟨[[1, -2]], [2], rfl, by decide, by decide, rfl⟩
        names := rfl }
  · have first : Line.lex "p cnf 2 1".toList = some (.problem ⟨2, 1⟩, []) := by cbv
    have fine : ∀ flaw, ¬ Flawed none "p cnf 2 1".toList flaw := by
      intro flaw flawed
      cases flawed with
      | unrecognized nothing => cases first.symm.trans nothing
      | leftover found => cases first.symm.trans found
      | early whole => cases first.symm.trans whole
    have second : Line.lex "1 0 -3 4 0".toList =
        some (.numbers ([1, 0] ++ -3 :: [4, 0]), []) := by cbv
    have known : problemAfter none [(2, "p cnf 2 1".toList)] = some ⟨2, 1⟩ := by cbv
    refine ((ofDimacs_grammar boldText).2 _).2 ⟨4, _, rfl, ?_⟩
    refine .flawed refused (flawless_cons.2 ⟨fine, flawless_nil⟩) ?_
    rw [known]
    exact .undeclared second (by decide) (by decide)

end Backbone.Dimacs
