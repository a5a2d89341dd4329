import Mathlib
import Backbone.Proofs.Dimacs.RoundTrip
import Backbone.Proofs.Names

/-!
# What is accepted can be written

A formula that was read respects all bounds of the written form, and it has no more clauses than
its text leaves room for.  So whatever is accepted can be written and read again.

* `Contents.Fits` — the bounds that the lines of a text put on what they declare;
* `fits_of_declares` — kept by each rule of the grammar;
* `wellFormed_of_fits`, `writable_of_fits` — a formula with contents within the bounds;
* `wellFormed_of_ofDimacs`, `writable_of_ofDimacs`, `length_clauses_of_ofDimacs`,
  `named_of_ofDimacs` — a formula that was accepted;
* `ofDimacs_fixed_point` — it is read again as it is written;
* `fewClauses_of_declares`, `read_dimacs_iff` — the formulas that come back are those within the
  bounds.
-/

namespace Backbone.Dimacs

open Text

/-- What the lines of a text declare, if they have so many characters in all. -/
structure Contents.Fits (contents : Contents) (room : Nat) : Prop where
  fewVariables : contents.header.numVariables < unsignedBound
  fewNumbers : contents.numbers.length ≤ room
  inRange : ∀ number ∈ contents.numbers, InSignedRange number
  within : ∀ number ∈ contents.numbers, number.natAbs ≤ contents.header.numVariables
  named : ∀ entry ∈ contents.names, IsName entry.2

theorem Contents.Fits.mono {contents : Contents} {room more : Nat} (fits : contents.Fits room)
    (le : room ≤ more) : contents.Fits more :=
  { fits with fewNumbers := Nat.le_trans fits.fewNumbers le }

theorem fits_header {header : Header} (small : header.numVariables < unsignedBound) :
    Contents.Fits { header } 0 where
  fewVariables := small
  fewNumbers := Nat.le_refl _
  inRange _ member := absurd member List.not_mem_nil
  within _ member := absurd member List.not_mem_nil
  named _ member := absurd member List.not_mem_nil

/-- The problem line that was read stays the one of the contents. -/
theorem header_of_declares {header : Header} {ls : List (List Char)} {contents : Contents}
    (declares : Declares (some header) ls contents) : contents.header = header := by
  generalize same : some header = header? at declares
  induction declares with
  | finished => exact (Option.some.inj same).symm
  | stop => exact (Option.some.inj same).symm
  | comment _ _ ih => exact ih same
  | name _ _ ih => exact ih same
  | problem => cases same
  | numbers _ _ _ ih => exact ih same

theorem fits_of_declares {header? : Option Header} {ls : List (List Char)} {contents : Contents}
    (declares : Declares header? ls contents) (oneLine : ∀ line ∈ ls, '\n' ∉ line)
    (small : ∀ header ∈ header?, header.numVariables < unsignedBound) :
    contents.Fits ls.flatten.length := by
  induction declares with
  | finished => exact fits_header (small _ rfl)
  | stop => exact (fits_header (small _ rfl)).mono (Nat.zero_le _)
  | comment _ _ ih =>
    rw [List.forall_mem_cons] at oneLine
    apply (ih oneLine.2 small).mono
    rw [List.flatten_cons, List.length_append]
    omega
  | name lexed _ ih =>
    rw [List.forall_mem_cons] at oneLine
    have line := fits_of_lexLine oneLine.1 lexed
    have later := ih oneLine.2 small
    refine { later with fewNumbers := ?_, named := ?_ }
    · have few := later.fewNumbers
      rw [List.flatten_cons, List.length_append]
      exact Nat.le_trans few (Nat.le_add_left _ _)
    · exact List.forall_mem_cons.2 ⟨line.2, later.named⟩
  | problem lexed _ ih =>
    rw [List.forall_mem_cons] at oneLine
    have line := fits_of_lexLine oneLine.1 lexed
    refine (ih oneLine.2 ?_).mono ?_
    · intro header same
      cases same
      exact line.1
    · rw [List.flatten_cons, List.length_append]
      omega
  | numbers lexed declared later ih =>
    rw [List.forall_mem_cons] at oneLine
    obtain ⟨few, inRange⟩ := fits_of_lexLine oneLine.1 lexed
    have fits := ih oneLine.2 small
    rw [undeclared?_eq_none_iff, ← header_of_declares later] at declared
    refine { fits with fewNumbers := ?_, inRange := ?_, within := ?_ }
    · have fewLater := fits.fewNumbers
      rw [List.flatten_cons, List.length_append, List.length_append]
      omega
    · exact List.forall_mem_append.2 ⟨inRange, fits.inRange⟩
    · exact List.forall_mem_append.2 ⟨declared, fits.within⟩

/-! ### The formula of the contents -/

/-- The clauses are among the pieces between zeros. -/
theorem clausesOf_sublist (numbers : List Int) :
    (clausesOf numbers).Sublist (numbers.splitOn 0) := by
  have nonempty := List.splitOn_ne_nil 0 numbers
  have pieces := List.dropLast_concat_getLast nonempty
  rw [clausesOf, splitClauses, List.getLast?_eq_some_getLast nonempty]
  simp only [Option.getD_some]
  split
  · exact List.dropLast_sublist _
  · simp only [pieces, List.Sublist.refl]

theorem mem_of_mem_clausesOf {numbers : List Int} {clause : Clause} {literal : Literal}
    (member : clause ∈ clausesOf numbers) (inside : literal ∈ clause) :
    literal ∈ numbers ∧ literal ≠ 0 := by
  have piece := (clausesOf_sublist numbers).subset member
  have whole : (numbers.splitOn 0).flatten.Sublist numbers := flatten_splitOn_sublist numbers
  refine ⟨whole.subset (List.mem_flatten.2 ⟨clause, piece, inside⟩), ?_⟩
  intro same
  subst same
  exact not_mem_of_mem_splitOn piece inside

theorem length_clausesOf_le (numbers : List Int) :
    (clausesOf numbers).length ≤ numbers.length + 1 :=
  Nat.le_trans (clausesOf_sublist numbers).length_le (length_splitOn_le numbers)

theorem wellFormed_of_fits {contents : Contents} {room : Nat} (fits : contents.Fits room) :
    contents.reading.formula.WellFormed := by
  intro clause member literal inside
  obtain ⟨number, nonzero⟩ := mem_of_mem_clausesOf member inside
  exact Formula.declares_iff.2 ⟨Int.natAbs_pos.2 nonzero, fits.within literal number⟩

theorem named_of_fits {contents : Contents} {room : Nat} (fits : contents.Fits room) :
    ∀ entry ∈ contents.reading.formula.names.entries,
      contents.reading.formula.declares entry.1 = true ∧ IsName entry.2 := by
  intro entry member
  have declared : entry ∈ (contents.names.partition fun entry =>
      contents.header.declares entry.1).1 := Names.mem_of_mem_ofList member
  rw [List.partition_eq_filter_filter, List.mem_filter] at declared
  exact ⟨declared.2, fits.named entry declared.1⟩

theorem writable_of_fits {contents : Contents} {room : Nat} (fits : contents.Fits room)
    (fewClauses : contents.reading.formula.clauses.length < unsignedBound) :
    contents.reading.formula.Writable where
  wellFormed := wellFormed_of_fits fits
  inRange _ member literal inside := fits.inRange literal (mem_of_mem_clausesOf member inside).1
  fewVariables := fits.fewVariables
  fewClauses := fewClauses
  named := named_of_fits fits

/-! ### Accepted texts -/

theorem flatten_contentLines_sublist (text : List Char) :
    (contentLines text).flatten.Sublist text := by
  rw [contentLines, List.flatten_filter_not_isEmpty]
  exact (flatten_map_sublist trim_sublist _).trans (flatten_lines_sublist text)

theorem newline_not_mem_of_mem_contentLines {text line : List Char}
    (member : line ∈ contentLines text) : '\n' ∉ line := by
  rw [contentLines, List.mem_filter, List.mem_map] at member
  obtain ⟨⟨whole, inside, rfl⟩, -⟩ := member
  intro newline
  exact newline_not_mem_of_mem_lines inside ((trim_sublist whole).subset newline)

theorem fits_of_contentLines {text : List Char} {contents : Contents}
    (declares : Declares none (contentLines text) contents) : contents.Fits text.length := by
  apply (fits_of_declares declares ?_ ?_).mono (flatten_contentLines_sublist text).length_le
  · intro line member
    exact newline_not_mem_of_mem_contentLines member
  · intro header none_
    cases none_

theorem fits_of_ofDimacs {text : String} {formula : Formula}
    (accepted : Formula.ofDimacs text = .ok formula) :
    ∃ contents : Contents, contents.Fits text.length ∧ contents.reading.formula = formula := by
  obtain ⟨contents, declares, same⟩ := ofDimacs_eq_ok_iff.1 accepted
  have fits := fits_of_contentLines declares
  rw [String.length_toList] at fits
  exact ⟨contents, fits, same⟩

theorem wellFormed_of_ofDimacs {text : String} {formula : Formula}
    (accepted : Formula.ofDimacs text = .ok formula) : formula.WellFormed := by
  obtain ⟨contents, fits, rfl⟩ := fits_of_ofDimacs accepted
  exact wellFormed_of_fits fits

theorem length_clauses_of_ofDimacs {text : String} {formula : Formula}
    (accepted : Formula.ofDimacs text = .ok formula) :
    formula.clauses.length ≤ text.length + 1 := by
  obtain ⟨contents, fits, rfl⟩ := fits_of_ofDimacs accepted
  exact Nat.le_trans (length_clausesOf_le contents.numbers) (Nat.succ_le_succ fits.fewNumbers)

/-- What is accepted can be written, if 64 bits are enough to count the clauses. -/
theorem writable_of_ofDimacs {text : String} {formula : Formula}
    (bounded : text.length + 1 < unsignedBound) (accepted : Formula.ofDimacs text = .ok formula) :
    formula.Writable := by
  have few := length_clauses_of_ofDimacs accepted
  obtain ⟨contents, fits, rfl⟩ := fits_of_ofDimacs accepted
  exact writable_of_fits fits (Nat.lt_of_le_of_lt few bounded)

theorem named_of_ofDimacs {text : String} {formula : Formula}
    (accepted : Formula.ofDimacs text = .ok formula) :
    ∀ entry ∈ formula.names.entries, formula.declares entry.1 = true ∧ IsName entry.2 := by
  obtain ⟨contents, fits, rfl⟩ := fits_of_ofDimacs accepted
  exact named_of_fits fits

/-- Whatever the text was like, the formula keeps to its own variables, no name is blank or shared,
and its written form is read as the formula itself, without a warning.  The text must not be so
long that 64 bits cannot count its clauses. -/
theorem ofDimacs_fixed_point {text : String} {formula : Formula}
    (accepted : Formula.ofDimacs text = .ok formula) :
    (∀ clause ∈ formula.clauses, ∀ literal ∈ clause,
      literal ≠ 0 ∧ literal.natAbs ≤ formula.numVariables) ∧
    (∀ index name, formula.names.name? index = some name →
      1 ≤ index ∧ index ≤ formula.numVariables ∧ IsName name) ∧
    (∀ index other name, formula.names.name? index = some name →
      formula.names.name? other = some name → index = other) ∧
    (text.length + 1 < unsignedBound → read formula.dimacs.toList = .ok ⟨formula, []⟩) := by
  refine ⟨?_, ?_, ?_, ?_⟩
  · intro clause member literal inside
    have declared := wellFormed_of_ofDimacs accepted clause member literal inside
    exact ⟨Formula.ne_zero_of_declares declared, (Formula.declares_iff.1 declared).2⟩
  · intro index name named
    obtain ⟨declared, isName⟩ :=
      named_of_ofDimacs accepted (index, name) (Names.name?_eq_some_iff.1 named)
    obtain ⟨positive, within⟩ := Formula.declares_iff.1 declared
    exact ⟨positive, within, isName⟩
  · intro index other name named named'
    rw [Names.name?_eq_some_iff, ← Names.index?_eq_some_iff] at named named'
    exact Option.some.inj (named.symm.trans named')
  · intro bounded
    rw [Formula.dimacs, String.toList_ofList]
    exact read_write (writable_of_ofDimacs bounded accepted)

/-- A text with a name before the problem line that another variable takes over, a name for a
variable that the formula has not, clauses that are miscounted and spread over lines, and an end
mark in place of the last zero. -/
def untidyText : String :=
  "c 2 old\nc 1 a b\u00a0\np cnf 3 7\r\nc 2 a b\nc 9 ghost\n1 -2\n\n 0 3 -1\n%\nrest"

theorem ofDimacs_fixed_point_untidyText :
    Formula.ofDimacs untidyText = .ok ⟨3, [[1, -2], [3, -1]], .ofList [(2, "a b")]⟩ ∧
    (Formula.mk 3 [[1, -2], [3, -1]] (.ofList [(2, "a b")])).dimacs =
      "c 2 a b\np cnf 3 2\n1 -2 0\n3 -1 0\n" ∧
    read "c 2 a b\np cnf 3 2\n1 -2 0\n3 -1 0\n".toList =
      .ok ⟨⟨3, [[1, -2], [3, -1]], .ofList [(2, "a b")]⟩, []⟩ := by
  have accepted : Formula.ofDimacs untidyText =
      .ok ⟨3, [[1, -2], [3, -1]], .ofList [(2, "a b")]⟩ := by cbv
  have written : (Formula.mk 3 [[1, -2], [3, -1]] (.ofList [(2, "a b")])).dimacs =
      "c 2 a b\np cnf 3 2\n1 -2 0\n3 -1 0\n" := by cbv
  have short : untidyText.length + 1 < unsignedBound := by decide
  refine ⟨accepted, written, ?_⟩
  rw [← written]
  exact (ofDimacs_fixed_point accepted).2.2.2 short

/-! ### Formulas that come back -/

theorem declares_after_nameLines {rest : List (List Char)} {entries : List (Nat × String)}
    {contents : Contents} (fine : ∀ entry ∈ entries, entry.1 < unsignedBound ∧ IsName entry.2)
    (declares : Declares none (entries.map nameLine ++ rest) contents) :
    ∃ later, Declares none rest later := by
  induction entries generalizing contents with
  | nil => exact ⟨contents, declares⟩
  | cons entry entries ih =>
    rw [List.forall_mem_cons] at fine
    have line := lexLine_nameLine fine.1.1 fine.1.2
    rw [List.map_cons, List.cons_append] at declares
    cases declares with
    | comment lexed _ => cases line.symm.trans lexed
    | name _ later => exact ih fine.2 later
    | problem lexed _ => cases line.symm.trans lexed

/-- The problem line counts the clauses, so there is room for their number. -/
theorem fewClauses_of_declares {formula : Formula} {contents : Contents}
    (fewVariables : formula.numVariables < unsignedBound)
    (named : ∀ entry ∈ formula.names.entries,
      formula.declares entry.1 = true ∧ IsName entry.2)
    (declares : Declares none (formulaLines formula) contents) :
    formula.clauses.length < unsignedBound := by
  apply Nat.lt_of_not_le
  intro many
  obtain ⟨later, declares⟩ : ∃ later,
      Declares none (problemLine formula.header :: formula.clauses.map clauseLine) later := by
    apply declares_after_nameLines _ declares
    intro entry member
    obtain ⟨declared, isName⟩ := named entry member
    exact ⟨Nat.lt_of_le_of_lt (Formula.declares_iff.1 declared).2 fewVariables, isName⟩
  have line : lexLine (problemLine formula.header) = .error _ :=
    lexLine_problemLine_of_le fewVariables many
  cases declares with
  | comment lexed _ => cases line.symm.trans lexed
  | name lexed _ => cases line.symm.trans lexed
  | problem lexed _ => cases line.symm.trans lexed

theorem writable_of_read_write {formula : Formula}
    (accepted : read (write formula) = .ok ⟨formula, []⟩) : formula.Writable := by
  obtain ⟨contents, declares, same⟩ := read_eq_ok_iff.1 accepted
  have fits := fits_of_contentLines declares
  have back : contents.reading.formula = formula := congrArg Reading.formula same
  have named := named_of_fits fits
  have fewVariables : contents.reading.formula.numVariables < unsignedBound := fits.fewVariables
  rw [back] at named fewVariables
  rw [contentLines_write fun entry member => (named entry member).2] at declares
  rw [← back]
  apply writable_of_fits fits
  rw [back]
  exact fewClauses_of_declares fewVariables named declares

/-- Just the formulas within the bounds are read as they were written, and without a warning. -/
theorem read_dimacs_iff (formula : Formula) :
    read formula.dimacs.toList = .ok ⟨formula, []⟩ ↔ formula.Writable := by
  rw [Formula.dimacs, String.toList_ofList]
  exact ⟨writable_of_read_write, read_write⟩

end Backbone.Dimacs
