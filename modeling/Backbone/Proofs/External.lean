import Backbone.Proofs.Contract
import Backbone.Proofs.Dimacs.RoundTrip
import Backbone.Proofs.External.CoreOutput

/-!
# The oracle that asks a faithful program

A backbone extractor is faithful if it prints, for each text that denotes a formula, a report that
tells the whole truth about its core, in an order of its own.  The oracle that asks it gives exact
replies about every formula that can be written.

* `Report` — the lines to be printed about a formula;
* `Prints` — the program prints the lines, each with a newline after it;
* `Faithful` — whatever its state, the program prints a report about the formula of its input;
* `readCore_report` — a report is read as the core that it lists;
* `oracle_core_isCoreReply` — the reply of the oracle.
-/

namespace Backbone.External

open Text

/-! ### Reports -/

/-- The lines tell the whole truth about the core of the formula. -/
inductive Report (formula : Formula) : List OutputLine → Prop
  | unsatisfiable : ¬formula.Satisfiable → Report formula [unsatisfiableLine]
  | core {core : List Literal} : formula.Satisfiable → formula.IsCore core →
      Report formula (core.map coreLine ++ [terminatorLine, satisfiableLine])

/-- The program printed the lines, whatever else it had to say on its standard error. -/
def Prints (output : Output) (ls : List OutputLine) : Prop :=
  output.stdout = (ls.flatMap fun line => line ++ ['\n']).flatMap String.utf8EncodeChar

/-- Whatever its state, the backbone extractor prints a report about the formula that its input
denotes. -/
def Faithful {σ : Type} (programs : Programs) (launch : Launcher (StateM σ)) : Prop :=
  ∀ (input : String) (formula : Formula) (state : σ), Formula.ofDimacs input = .ok formula →
    ∃ output ls, ((launch ⟨programs.backbone, backboneArguments, input⟩).run state).1 = .ok output ∧
      Prints output ls ∧ Report formula ls

/-! ### Lines of a report -/

/-- The line can be printed byte by byte and comes back as it was. -/
structure IsPlain (line : OutputLine) : Prop where
  ascii : ∀ c ∈ line, c.toNat < 128
  oneLine : '\n' ∉ line
  noReturn : line.getLast? ≠ some '\r'

theorem isPlain_of_forall {line : OutputLine}
    (plain : ∀ c ∈ line, 32 ≤ c.toNat ∧ c.toNat < 128) : IsPlain line where
  ascii c member := (plain c member).2
  oneLine newline := absurd (plain _ newline).1 (by decide)
  noReturn last := absurd (plain _ (List.mem_of_mem_getLast? last)).1 (by decide)

theorem isPlain_coreLine (literal : Literal) : IsPlain (coreLine literal) := by
  apply isPlain_of_forall
  intro c member
  rw [coreLine, List.mem_cons, List.mem_cons] at member
  rcases member with rfl | rfl | numeral
  · decide
  · decide
  · rcases mem_intNumeral numeral with rfl | digit
    · decide
    · have range := toNat_of_isDigit digit
      omega

theorem isPlain_of_all {line : OutputLine}
    (plain : line.all (fun c => 32 ≤ c.toNat && c.toNat < 128) = true) : IsPlain line := by
  apply isPlain_of_forall
  intro c member
  have bounds := List.all_eq_true.1 plain c member
  rw [Bool.and_eq_true, decide_eq_true_eq, decide_eq_true_eq] at bounds
  exact bounds

theorem isPlain_of_report {formula : Formula} {ls : List OutputLine} (report : Report formula ls) :
    ∀ line ∈ ls, IsPlain line := by
  intro line member
  cases report with
  | unsatisfiable =>
    rw [List.mem_singleton.1 member]
    exact isPlain_of_all (by decide)
  | core =>
    rw [List.mem_append, List.mem_map, List.mem_cons, List.mem_singleton] at member
    rcases member with ⟨literal, _, rfl⟩ | rfl | rfl
    · exact isPlain_coreLine literal
    · exact isPlain_of_all (by decide)
    · exact isPlain_of_all (by decide)

/-! ### Bytes and lines -/

theorem decodeLossy_ascii {text : List Char} (ascii : ∀ c ∈ text, c.toNat < 128) :
    decodeLossy (text.flatMap String.utf8EncodeChar) = text := by
  rw [decodeLossy]
  induction text with
  | nil => rfl
  | cons c text ih =>
    rw [List.forall_mem_cons] at ascii
    have byte : String.utf8EncodeChar c = [UInt8.ofNat c.toNat] :=
      if_pos (Nat.lt_succ_iff.1 ascii.1)
    have number : (UInt8.ofNat c.toNat).toNat = c.toNat :=
      UInt8.toNat_ofNat_of_lt' (Nat.lt_trans ascii.1 (by decide))
    rw [List.flatMap_cons, byte, List.singleton_append, decodeFrom]
    simp only [nextByte, startCharacter, number, ascii.1, if_true, Char.ofNat_toNat, ih ascii.2]
    rfl

theorem lines_of_prints {output : Output} {ls : List OutputLine} (prints : Prints output ls)
    (plain : ∀ line ∈ ls, IsPlain line) : lines (decodeLossy output.stdout) = ls := by
  have ascii : ∀ c ∈ ls.flatMap fun line => line ++ ['\n'], c.toNat < 128 := by
    intro c member
    obtain ⟨line, inside, member⟩ := List.mem_flatMap.1 member
    rcases List.mem_append.1 member with body | last
    · exact (plain line inside).ascii c body
    · rw [List.mem_singleton.1 last]
      decide
  rw [show output.stdout = _ from prints, decodeLossy_ascii ascii]
  exact lines_flatMap fun line member => ⟨(plain line member).oneLine, (plain line member).noReturn⟩

/-! ### Reading a report -/

/-- A report is read as an exact reply, if the literals are within the signed range. -/
theorem readCore_report {formula : Formula} {ls : List OutputLine}
    (small : formula.numVariables < signedBound) (report : Report formula ls) :
    formula.IsCoreReply (readCore ls) := by
  cases report with
  | unsatisfiable hopeless => exact .unsatisfiable hopeless
  | @core core satisfiable isCore =>
    have fine : ∀ literal ∈ core, literal ≠ 0 ∧ InSignedRange literal := by
      intro literal member
      have declared := ((isCore.2 literal).1 member).1
      refine ⟨Formula.ne_zero_of_declares declared, (inSignedRange_neg ?_).1⟩
      exact Nat.lt_of_le_of_lt (Formula.declares_iff.1 declared).2 small
    have read : readCore (coreReport core) = .ok core := readCore_coreReport fine
    rw [coreReport] at read
    rw [read]
    exact .core satisfiable isCore

/-! ### The oracle -/

/-- With a faithful extractor, the reply about a formula that can be written is exact. -/
theorem oracle_core_isCoreReply {σ : Type} {programs : Programs} {launch : Launcher (StateM σ)}
    (faithful : Faithful programs launch) {formula : Formula} (writable : formula.Writable)
    (small : formula.numVariables < signedBound) (timeout : Timeout) (state : σ) :
    formula.IsCoreReply (((oracle programs launch).core formula timeout).run state).1 := by
  obtain ⟨output, ls, launched, prints, report⟩ :=
    faithful formula.dimacs formula state (Dimacs.ofDimacs_dimacs writable)
  have printed := lines_of_prints prints (isPlain_of_report report)
  have some_ : ls ≠ [] := by
    cases report with
    | unsatisfiable => exact List.cons_ne_nil _ _
    | core => exact List.append_ne_nil_of_right_ne_nil _ (List.cons_ne_nil _ _)
  have read : output.lines programs.backbone = .ok ls := by
    rw [Output.lines, printed]
    have full : ls.isEmpty = false := by simpa using some_
    simp only [full, Bool.false_and, Bool.false_eq_true, if_false]
  have answer : (((oracle programs launch).core formula timeout).run state).1 = readCore ls := by
    rcases ran : (launch ⟨programs.backbone, backboneArguments, formula.dimacs⟩).run state with
      ⟨reply, next⟩
    rw [ran] at launched
    simp only [oracle, outputLines, StateT.run_bind, ran]
    cases launched
    show (output.lines programs.backbone >>= readCore) = readCore ls
    rw [read]
    rfl
  rw [answer]
  exact readCore_report small report

end Backbone.External
