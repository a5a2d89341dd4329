import Backbone.Proofs.CommandLine.Delivery
import Backbone.Proofs.CommandLine.TextOutput
import Backbone.Proofs.Dimacs.Accepted
import Backbone.Proofs.Enumeration.Solutions

/-!
# The answer to the task of finding a solution

The output is either a solution or the line `false`, and both go the same way.  A solution that is
shown as a table or as a list never looks like that line.  As a text it does in one case: there is a
single variable, its name is `false`, and it is true.  Since by enumeration the solution that makes
it false comes first, this is what is written only if the variable is true in every solution.

* `LiteralSets.render_eq_false_iff` — when a set of literals is shown as the line `false`;
* `Enumeration.holdsIn_first_iff` — the first solution of a formula with one variable;
* `render_first_iff` — when the first solution is shown as the line `false`;
* `run_solution_false_iff` — the whole command line;
* `solution_shown_as_false` — a formula with a solution for which the line is written.
-/

namespace Backbone

open CommandLine

/-! ### A set that is shown as `false` -/

namespace LiteralSets

variable {names : Names} {literal : Literal} {literals : List Literal} {numVariables : Nat}

theorem toList_falseWord : "false".toList = ['f', 'a', 'l', 's', 'e'] := by rfl

/-- A literal is shown as `false` only if that is the name of its variable. -/
theorem literalLabel_eq_false_iff :
    names.literalLabel literal = "false" ↔
      ¬literal < 0 ∧ names.name? literal.var = some "false" := by
  by_cases negative : literal < 0
  · rw [Names.literalLabel_of_neg negative]
    refine iff_of_false (fun same => ?_) fun given => given.1 negative
    have letters := congrArg String.toList same
    rw [toList_minus_label, toList_falseWord] at letters
    cases letters
  · rw [Names.literalLabel, if_neg negative, and_iff_right negative]
    cases called : names.name? literal.var with
    | some name =>
      rw [Names.label_of_name called, Option.some_inj]
    | none =>
      obtain ⟨digit, digits, numeral, isDigit⟩ := Text.natNumeral_eq_cons literal.var
      rw [Names.label_of_none called]
      refine iff_of_false (fun same => ?_) fun absurd => by cases absurd
      have letters := congrArg String.toList same
      rw [String.toList_ofList, numeral, toList_falseWord] at letters
      cases letters
      cases isDigit

/-- The text of one set is the line `false` only if the set is one literal shown as that. -/
theorem text_eq_false_iff :
    (LiteralSets.mk [literals] numVariables names).text = "false\n" ↔
      ∃ literal, literals = [literal] ∧ names.literalLabel literal = "false" := by
  have line : (LiteralSets.mk [literals] numVariables names).text =
      names.literalsLabel literals ++ "\n" := by
    rw [text, textLines, List.map_singleton, List.map_singleton, String.join_cons, String.join_nil,
      String.append_empty]
  have written : "false\n" = "false" ++ "\n" := by rfl
  rw [line, written, String.append_left_inj]
  cases literals with
  | nil => simp [Names.literalsLabel]
  | cons first others =>
    cases others with
    | nil => simp [Names.literalsLabel]
    | cons second others =>
      refine iff_of_false (fun same => ?_) fun given => by simp at given
      have letters := congrArg String.toList same
      rw [toList_literalsLabel, toList_falseWord, List.map_cons, List.map_cons,
        List.intercalate_cons_cons] at letters
      have space : ' ' ∈ ['f', 'a', 'l', 's', 'e'] := by
        rw [← letters]
        simp
      revert space
      decide

/-- A table begins with the title of its first column. -/
theorem exists_csv_eq (sets : LiteralSets) : ∃ rest, sets.csv.toList = 'S' :: rest := by
  have first : ∃ rest, Text.Csv.record sets.headerRow = 'S' :: rest := by
    rw [headerRow, Text.Csv.record, if_neg (by simp), List.map_cons]
    cases (List.range' 1 sets.numVariables).map fun index => (sets.names.label index).toList with
    | nil => exact ⟨_, rfl⟩
    | cons column columns => exact ⟨_, rfl⟩
  obtain ⟨rest, header⟩ := first
  rw [csv, String.toList_ofList, rows, Text.Csv.table, List.flatMap_cons, header]
  exact ⟨_, rfl⟩

/-- Only a text can be the line `false`, and only that of a single literal without a sign whose
variable has this name. -/
theorem render_eq_false_iff {format : Format} :
    (LiteralSets.mk [literals] numVariables names).render format = "false\n" ↔
      format = .text ∧ ∃ literal, literals = [literal] ∧ ¬literal < 0 ∧
        names.name? literal.var = some "false" := by
  have word : "false\n".toList = ['f', 'a', 'l', 's', 'e', '\n'] := by rfl
  cases format with
  | text =>
    rw [render, text_eq_false_iff, and_iff_right rfl]
    simp only [literalLabel_eq_false_iff]
  | csv =>
    refine iff_of_false (fun same => ?_) fun given => by cases given.1
    obtain ⟨rest, begins⟩ := exists_csv_eq (LiteralSets.mk [literals] numVariables names)
    rw [show csv _ = _ from same, word] at begins
    cases begins
  | json =>
    refine iff_of_false (fun same => ?_) fun given => by cases given.1
    have letters := congrArg String.toList same
    rw [render, json, String.toList_append, String.toList_ofList, word] at letters
    cases letters

end LiteralSets

/-! ### The least solution of one variable -/

namespace Enumeration

variable {formula : Formula} {mask : Nat}

theorem solutionOf_of_single (single : formula.numVariables = 1) (mask : Nat) :
    solutionOf formula mask = [literalOf mask 1] := by
  rw [solutionOf, Formula.vars, single]
  rfl

theorem single_of_solutionOf {literal : Literal} (alone : solutionOf formula mask = [literal]) :
    formula.numVariables = 1 := by
  have counted := congrArg List.length alone
  rwa [solutionOf, List.length_map, Formula.vars, List.length_range'] at counted

theorem literalOf_one_neg_iff : literalOf mask 1 < 0 ↔ ¬holdsIn mask 1 = true := by
  show (if holdsIn mask 1 then (1 : Literal) else -1) < 0 ↔ _
  cases holdsIn mask 1 <;> decide

/-- The first solution of a formula with one variable makes it true only if all solutions do. -/
theorem holdsIn_first_iff (wellFormed : formula.WellFormed) (single : formula.numVariables = 1)
    (small : mask < 2 ^ formula.numVariables) (accepted : accepts formula mask = true)
    (first : ∀ other < mask, accepts formula other = false) :
    holdsIn mask 1 = true ↔ formula.Entails 1 := by
  have declared : formula.declares (1 : Literal).var = true := by
    rw [Formula.declares_iff, single]
    decide
  rw [Formula.entails_iff_confined wellFormed declared,
    forall_confined_iff wellFormed.literalsWithin (by decide)]
  constructor
  · intro holds other small' accepted'
    have nonzero : mask ≠ 0 := by
      intro zero
      rw [zero] at holds
      cases holds
    have notBelow : ¬other < mask := by
      intro below
      rw [first other below] at accepted'
      cases accepted'
    have same : other = mask := by
      rw [single] at small small'
      omega
    rw [same, holds]
  · intro entails
    exact entails mask small accepted

end Enumeration

namespace CommandLine

variable {formula : Formula}

open Enumeration hiding Ending

/-- What is said about a solution, or about there being none. -/
def solutionOutcome (formula : Formula) : Option (List Literal) → Outcome
  | some literals => .found (.ofFormula formula [literals])
  | none => .flag false

/-- The first solution is shown as the line `false` only if it makes true a single variable of this
name, and then every solution does. -/
theorem render_first_iff {mask : Nat} {format : Format} (wellFormed : formula.WellFormed)
    (small : mask < 2 ^ formula.numVariables) (accepted : accepts formula mask = true)
    (first : ∀ other < mask, accepts formula other = false) :
    (solutionOutcome formula (some (solutionOf formula mask))).render format = "false\n" ↔
      format = .text ∧ formula.numVariables = 1 ∧ formula.names.name? 1 = some "false" ∧
        formula.Entails 1 := by
  refine LiteralSets.render_eq_false_iff.trans (and_congr_right fun _ => ?_)
  constructor
  · intro given
    obtain ⟨literal, alone, positive, named⟩ := given
    have single := single_of_solutionOf alone
    cases alone.symm.trans (solutionOf_of_single single mask)
    rw [literalOf_one_neg_iff, not_not,
      holdsIn_first_iff wellFormed single small accepted first] at positive
    rw [var_literalOf] at named
    exact ⟨single, named, positive⟩
  · intro given
    obtain ⟨single, named, entailed⟩ := given
    refine ⟨_, solutionOf_of_single single mask, ?_, ?_⟩
    · rw [literalOf_one_neg_iff, not_not]
      exact (holdsIn_first_iff wellFormed single small accepted first).2 entailed
    · rwa [var_literalOf]

theorem exists_found (wellFormed : formula.WellFormed) (format : Format) :
    ∃ found, solutionIn (Id.run (solve none formula)) = .ok found ∧
      ((solutionOutcome formula found).render format = "false\n" ↔ ¬formula.Satisfiable ∨
        format = .text ∧ formula.numVariables = 1 ∧ formula.names.name? 1 = some "false" ∧
          formula.Entails 1) := by
  rcases solve_cases wellFormed with ⟨same, hopeless⟩ | ⟨mask, small, same, accepted, first⟩
  · rw [same]
    exact ⟨none, rfl, iff_of_true rfl (.inl hopeless)⟩
  · have satisfiable := (satisfiable_iff_accepts wellFormed).2 ⟨mask, small, accepted⟩
    rw [same, or_iff_right (not_not_intro satisfiable)]
    exact ⟨_, rfl, render_first_iff wellFormed small accepted first⟩

/-! ### The command line -/

section Run

variable {m : Type → Type} [Monad m] [LawfulMonad m] {invocation : Invocation}
  (stopwatch : Enumeration.Stopwatch m) (launch : External.Launcher m) (files : Files)
  (stdin : String)

theorem solve_oracleIn (enumerates : invocation.oracle = .enumeration)
    (untimed : invocation.timeout = 0) (few : formula.numVariables ≤ 24) :
    (invocation.oracleIn stopwatch launch).solve formula (invocation.timeout * 1000) =
      pure (.ok (Id.run (solve none formula))) := by
  rw [Invocation.oracleIn, enumerates, untimed]
  exact oracle_solve_untimed stopwatch few

/-- The one query of the task, and then the output. -/
theorem run_solution {verdict : Verdict} {found : Option (List Literal)}
    (read : (invocation.inputText files stdin >>= Formula.ofDimacs) = .ok formula)
    (task : invocation.task = .solution)
    (replied : (invocation.oracleIn stopwatch launch).solve formula (invocation.timeout * 1000) =
      pure (.ok verdict))
    (answered : solutionIn verdict = .ok found) :
    invocation.run stopwatch launch files stdin =
      pure (invocation.conclude files
        (.ok ((solutionOutcome formula found).render invocation.format))) := by
  rw [Invocation.run, Invocation.analysis, read, task]
  change ((_ >>= _) >>= _) = _
  rw [replied, bind_assoc, pure_bind]
  cases verdict with
  | indeterminate => cases answered
  | unsatisfiable =>
    cases answered
    change ((pure _ >>= _) >>= _) = _
    rw [pure_bind, pure_bind]
    rfl
  | satisfiable solution =>
    cases answered
    change ((pure _ >>= _) >>= _) = _
    rw [pure_bind, pure_bind]
    rfl

/-- By enumeration without a time limit, the output of the task of finding a solution is the line
`false` if and only if there is no solution, but for one case: as a text, the solution that makes
true a single variable of the name `false` is shown by the same line, and so it is if that variable
is true in every solution. -/
theorem run_solution_false_iff {arguments : List String} {environment : Environment}
    (accepted : readWords arguments environment = .ok invocation)
    (task : invocation.task = .solution) (enumerates : invocation.oracle = .enumeration)
    (untimed : invocation.timeout = 0) (can : invocation.CanWrite files)
    (read : (invocation.inputText files stdin >>= Formula.ofDimacs) = .ok formula)
    (few : formula.numVariables ≤ 24) :
    ∃ ending result, run arguments environment stopwatch launch files stdin = pure ending ∧
      invocation.Delivers files ending result ∧
      (result = "false\n" ↔ ¬formula.Satisfiable ∨
        invocation.format = .text ∧ formula.numVariables = 1 ∧
          formula.names.name? 1 = some "false" ∧ formula.Entails 1) := by
  have wellFormed : formula.WellFormed := by
    obtain ⟨text, -, parsed⟩ := bind_eq_ok_iff.1 read
    exact Dimacs.wellFormed_of_ofDimacs parsed
  have begun := run_of_accepted accepted stopwatch launch files stdin
  have replied := solve_oracleIn stopwatch launch enumerates untimed few
  obtain ⟨found, answered, shown⟩ := exists_found wellFormed invocation.format
  have ran := begun.trans (run_solution stopwatch launch files stdin read task replied answered)
  exact ⟨_, _, ran, delivers_conclude can _, shown⟩

end Run

/-- A text with one variable, of the name `false`, that is true in the only solution. -/
def falseNameText : String := "c 1 false\np cnf 1 1\n1 0\n"

theorem ofDimacs_falseNameText :
    Formula.ofDimacs falseNameText = .ok ⟨1, [[1]], .ofList [(1, "false")]⟩ := by cbv

/-- As a table the solution is told apart from there being none, but not as a text. -/
theorem run_solution_false_iff_falseNameText :
    (ending ["--oracle", "enumeration", "--format", "csv", "solution"] falseNameText).stdout ≠
        "false\n" ∧
      (ending ["--oracle", "enumeration", "solution"] falseNameText).stdout = "false\n" := by
  let formula : Formula := ⟨1, [[1]], .ofList [(1, "false")]⟩
  have entailed : formula.Entails 1 := by
    intro valuation solution
    obtain ⟨literal, member, holds⟩ := solution [1] List.mem_cons_self
    rwa [List.mem_singleton.1 member] at holds
  have satisfiable : formula.Satisfiable := ⟨fun _ => true, by decide⟩
  have told {arguments : List String} {format : Format} (accepted : readWords arguments {} =
      .ok { task := .solution, oracle := .enumeration, format }) :
      (ending arguments falseNameText).stdout = "false\n" ↔ ¬formula.Satisfiable ∨
        format = .text ∧ formula.numVariables = 1 ∧ formula.names.name? 1 = some "false" ∧
          formula.Entails 1 := by
    obtain ⟨ended, result, ran, delivers, shown⟩ :=
      run_solution_false_iff (m := Id) (fun _ _ => false) noPrograms {} falseNameText
        accepted rfl rfl rfl (fun _ named => by cases named) ofDimacs_falseNameText
        (by decide)
    have same : ending arguments falseNameText = ended := ran
    rw [same, (delivers.printed rfl).1, shown]
  constructor
  · have accepted : readWords ["--oracle", "enumeration", "--format", "csv", "solution"] {} =
        .ok { task := .solution, oracle := .enumeration, format := .csv } := by rfl
    rw [ne_eq, told accepted, not_or, not_not]
    exact ⟨satisfiable, fun asText => by cases asText.1⟩
  · have accepted : readWords ["--oracle", "enumeration", "solution"] {} =
        .ok { task := .solution, oracle := .enumeration } := by rfl
    exact (told accepted).2 (.inr ⟨rfl, rfl, by cbv, entailed⟩)

/-- A formula with a solution for which the output is the line `false`. -/
theorem solution_shown_as_false :
    ∃ formula, Formula.ofDimacs falseNameText = .ok formula ∧ formula.numVariables ≤ 24 ∧
      ¬((ending ["--oracle", "enumeration", "solution"] falseNameText).stdout = "false\n" ↔
        ¬formula.Satisfiable) := by
  let formula : Formula := ⟨1, [[1]], .ofList [(1, "false")]⟩
  let invocation : Invocation := { task := .solution, oracle := .enumeration }
  have satisfiable : formula.Satisfiable := ⟨fun _ => true, by decide⟩
  have accepted : readWords ["--oracle", "enumeration", "solution"] {} = .ok invocation := by rfl
  have read : (invocation.inputText {} falseNameText >>= Formula.ofDimacs) = .ok formula :=
    ofDimacs_falseNameText
  have few : formula.numVariables ≤ 24 := by decide
  have replied := solve_oracleIn (m := Id) (fun _ _ => false) noPrograms
    (rfl : invocation.oracle = .enumeration) rfl few
  have answered : solutionIn (Id.run (solve none formula)) = .ok (some [1]) := by rfl
  have ran := run_solution (m := Id) (fun _ _ => false) noPrograms {}
    falseNameText read rfl replied answered
  have shown : (ending ["--oracle", "enumeration", "solution"] falseNameText).stdout =
      "false\n" := by
    rw [ending, run, accepted]
    dsimp only
    rw [ran]
    cbv
  exact ⟨formula, ofDimacs_falseNameText, few, fun told => told.1 shown satisfiable⟩

end CommandLine

end Backbone
