import Backbone.Proofs.Dimacs.Grammar
import Backbone.Proofs.Dimacs.Lexing
import Backbone.Semantics

/-!
# Formulas are read as they were written

A formula that respects the bounds of the format is written as a text that is read as the formula
itself, and the reader has nothing to warn about.

* `Formula.Writable` — the bounds: what a formula must be like to be written faithfully;
* `contentLines_write` — the written lines come back one by one;
* `declares_formulaLines` — they declare the parts of the formula;
* `reading_contentsOf` — and the parts make up the formula again;
* `read_write`, `ofDimacs_dimacs` — the round trip.
-/

namespace Backbone

open Text

/-- The formula can be written in such a way that it is read again. -/
structure Formula.Writable (formula : Formula) : Prop where
  wellFormed : formula.WellFormed
  inRange : ∀ clause ∈ formula.clauses, ∀ literal ∈ clause, InSignedRange literal
  fewVariables : formula.numVariables < unsignedBound
  fewClauses : formula.clauses.length < unsignedBound
  named : ∀ entry ∈ formula.names.entries,
    formula.declares entry.1 = true ∧ Dimacs.IsName entry.2

theorem Formula.Writable.assume {formula : Formula} {literal : Literal}
    (writable : formula.Writable) (declared : formula.declares literal.var = true)
    (small : formula.numVariables < signedBound)
    (room : formula.clauses.length + 1 < unsignedBound) :
    (formula.assume [literal]).Writable where
  wellFormed := writable.wellFormed.assume declared
  inRange := by
    have below := (declares_iff.1 declared).2
    intro clause member other inside
    rcases List.mem_append.1 member with old | new
    · exact writable.inRange clause old other inside
    · rw [List.map_singleton, List.mem_singleton] at new
      rw [new, List.mem_singleton] at inside
      rw [inside]
      exact (inSignedRange_neg (Nat.lt_of_le_of_lt below small)).1
  fewVariables := writable.fewVariables
  fewClauses := by
    rw [Formula.assume, List.length_append]
    exact room
  named := writable.named

namespace Dimacs

/-! ### Lines that come back -/

/-- The characters make up a line that trimming leaves alone. -/
structure IsLine (line : List Char) : Prop where
  nonempty : line ≠ []
  oneLine : '\n' ∉ line
  startsClear : StartsClear line
  endsClear : EndsClear line

theorem contentLines_flatMap {ls : List (List Char)} (isLine : ∀ line ∈ ls, IsLine line) :
    contentLines (ls.flatMap fun line => line ++ ['\n']) = ls := by
  have cut : Text.lines (ls.flatMap fun line => line ++ ['\n']) = ls := by
    apply lines_flatMap
    intro line member
    refine ⟨(isLine line member).oneLine, ?_⟩
    intro last
    have clear := (isLine line member).endsClear '\r' last
    exact absurd clear (by decide)
  have trimmed : ls.map trim = ls := by
    rw [List.map_congr_left fun line member =>
      trim_eq_self_iff.2 ⟨(isLine line member).startsClear, (isLine line member).endsClear⟩]
    exact List.map_id ls
  rw [contentLines, cut, trimmed, List.filter_eq_self]
  intro line member
  obtain ⟨c, rest, same⟩ := List.exists_cons_of_ne_nil (isLine line member).nonempty
  rw [same]
  rfl

theorem newline_not_mem_of_isBlank {line : List Char}
    (clear : ∀ c ∈ line, isBlank c = false) : '\n' ∉ line := by
  intro newline
  exact absurd (clear _ newline) (by decide)

theorem isBlank_of_mem_natNumeral {n : Nat} {c : Char} (member : c ∈ natNumeral n) :
    isBlank c = false :=
  isBlank_of_isDigit (isDigit_of_mem_natNumeral member)

theorem endsClear_natNumeral (n : Nat) : EndsClear (natNumeral n) := fun _ last =>
  isBlank_of_mem_natNumeral (List.mem_of_mem_getLast? last)

theorem isLine_nameLine {entry : Nat × String} (isName : IsName entry.2) :
    IsLine (nameLine entry) where
  nonempty := List.cons_ne_nil _ _
  oneLine := by
    have digits : '\n' ∉ natNumeral entry.1 :=
      newline_not_mem_of_isBlank fun c member => isBlank_of_mem_natNumeral member
    simp [nameLine, digits, isName.oneLine]
  startsClear := by
    intro c first
    cases first
    decide
  endsClear := by
    have clear := (trim_eq_self_iff.1 isName.trimmed).2
    have shape : nameLine entry =
        ('c' :: ' ' :: (natNumeral entry.1 ++ [' '])) ++ entry.2.toList := by
      simp [nameLine]
    rw [shape]
    exact endsClear_append_of_ne_nil isName.nonempty clear

theorem isLine_problemLine (header : Header) : IsLine (problemLine header) where
  nonempty := List.cons_ne_nil _ _
  oneLine := by
    have digits : ∀ n, '\n' ∉ natNumeral n := fun n =>
      newline_not_mem_of_isBlank fun c member => isBlank_of_mem_natNumeral member
    simp [problemLine, digits]
  startsClear := by
    intro c first
    cases first
    decide
  endsClear := by
    have shape : problemLine header = (['p', ' ', 'c', 'n', 'f', ' '] ++
        natNumeral header.numVariables ++ [' ']) ++ natNumeral header.numClauses := by
      simp [problemLine]
    rw [shape]
    exact endsClear_append_of_ne_nil (natNumeral_ne_nil _) (endsClear_natNumeral _)

theorem isLine_clauseLine (clause : Clause) : IsLine (clauseLine clause) where
  nonempty := List.append_ne_nil_of_right_ne_nil _ (List.cons_ne_nil _ _)
  oneLine := by
    have numerals : ∀ literal : Literal, '\n' ∉ intNumeral literal := fun literal =>
      newline_not_mem_of_isBlank fun c member => isBlank_of_mem_intNumeral member
    simp [clauseLine, numerals]
  startsClear := by
    cases clause with
    | nil =>
      intro c first
      cases first
      decide
    | cons literal clause =>
      obtain ⟨start, others, numeral, -⟩ := intNumeral_eq_cons literal
      intro c first
      rw [clauseLine, List.flatMap_cons, numeral] at first
      cases first
      have member : start ∈ intNumeral literal := numeral ▸ List.mem_cons_self
      exact isBlank_of_mem_intNumeral member
  endsClear := by
    rw [clauseLine]
    apply endsClear_append_of_ne_nil (List.cons_ne_nil _ _)
    intro c last
    cases last
    decide

theorem contentLines_write {formula : Formula}
    (named : ∀ entry ∈ formula.names.entries, IsName entry.2) :
    contentLines (write formula) = formulaLines formula := by
  apply contentLines_flatMap
  intro line member
  rw [formulaLines, List.mem_append, List.mem_cons, List.mem_map, List.mem_map] at member
  rcases member with ⟨entry, inside, rfl⟩ | rfl | ⟨clause, _, rfl⟩
  · exact isLine_nameLine (named entry inside)
  · exact isLine_problemLine formula.header
  · exact isLine_clauseLine clause

/-! ### Lines that declare the formula -/

/-- The parts of a formula as its text declares them. -/
def contentsOf (formula : Formula) : Contents :=
  ⟨formula.header, formula.clauses.flatMap (fun clause => clause ++ [0]), formula.names.entries⟩

theorem undeclared?_clause {header : Header} {clause : Clause}
    (within : ∀ literal ∈ clause, literal.natAbs ≤ header.numVariables) :
    undeclared? header (clause ++ [0]) = none := by
  rw [undeclared?_eq_none_iff]
  intro number member
  rcases List.mem_append.1 member with inside | last
  · exact within number inside
  · rw [List.mem_singleton.1 last]
    exact Nat.zero_le _

theorem declares_clauseLines {header : Header} {clauses : List Clause}
    (inRange : ∀ clause ∈ clauses, ∀ literal ∈ clause, InSignedRange literal)
    (within : ∀ clause ∈ clauses, ∀ literal ∈ clause, literal.natAbs ≤ header.numVariables) :
    Declares (some header) (clauses.map clauseLine)
      ⟨header, clauses.flatMap (fun clause => clause ++ [0]), []⟩ := by
  induction clauses with
  | nil => exact .finished
  | cons clause clauses ih =>
    rw [List.forall_mem_cons] at inRange within
    exact .numbers (lexLine_clauseLine inRange.1) (undeclared?_clause within.1)
      (ih inRange.2 within.2)

theorem declares_nameLines {header : Header} {numbers : List Int} {rest : List (List Char)}
    {entries : List (Nat × String)}
    (fine : ∀ entry ∈ entries, entry.1 < unsignedBound ∧ IsName entry.2)
    (later : Declares none rest ⟨header, numbers, []⟩) :
    Declares none (entries.map nameLine ++ rest) ⟨header, numbers, entries⟩ := by
  induction entries with
  | nil => exact later
  | cons entry entries ih =>
    rw [List.forall_mem_cons] at fine
    exact .name (lexLine_nameLine fine.1.1 fine.1.2) (ih fine.2)

theorem declares_formulaLines {formula : Formula} (writable : formula.Writable) :
    Declares none (formulaLines formula) (contentsOf formula) := by
  apply declares_nameLines
  · intro entry member
    obtain ⟨declared, isName⟩ := writable.named entry member
    have below := (Formula.declares_iff.1 declared).2
    exact ⟨Nat.lt_of_le_of_lt below writable.fewVariables, isName⟩
  · apply Declares.problem (lexLine_problemLine writable.fewVariables writable.fewClauses)
    apply declares_clauseLines writable.inRange
    intro clause member literal inside
    exact (Formula.declares_iff.1 (writable.wellFormed clause member literal inside)).2

/-! ### The formula again -/

theorem insert_entries_of_above {names : Names} {index : Nat} {name : String}
    (above : ∀ entry ∈ names.entries, entry.1 < index ∧ entry.2 ≠ name) :
    (names.insert index name).entries = names.entries ++ [(index, name)] := by
  have others : names.others index name = names.entries := by
    rw [Names.others, List.filter_eq_self]
    intro entry member
    obtain ⟨below, differs⟩ := above entry member
    simp only [Bool.and_eq_true, bne_iff_ne]
    exact ⟨by omega, differs⟩
  have low : names.entries.filter (fun entry => entry.1 < index) = names.entries := by
    rw [List.filter_eq_self]
    intro entry member
    exact decide_eq_true (above entry member).1
  have high : names.entries.filter (fun entry => index < entry.1) = [] := by
    rw [List.filter_eq_nil_iff]
    intro entry member
    have below := (above entry member).1
    rw [decide_eq_true_eq]
    omega
  show (names.others index name).filter _ ++
    (index, name) :: (names.others index name).filter _ = _
  rw [others, low, high]

theorem entries_foldl_insert {later : List (Nat × String)} {names : Names}
    (ascending : (names.entries ++ later).Pairwise fun a b => a.1 < b.1)
    (distinct : (names.entries ++ later).Pairwise fun a b => a.2 ≠ b.2) :
    (later.foldl (fun names pair => names.insert pair.1 pair.2) names).entries =
      names.entries ++ later := by
  induction later generalizing names with
  | nil => rw [List.append_nil]; rfl
  | cons entry later ih =>
    have inserted : (names.insert entry.1 entry.2).entries = names.entries ++ [entry] := by
      apply insert_entries_of_above
      intro old member
      exact ⟨(List.pairwise_append.1 ascending).2.2 old member entry List.mem_cons_self,
        (List.pairwise_append.1 distinct).2.2 old member entry List.mem_cons_self⟩
    have regroup : names.entries ++ entry :: later =
        (names.insert entry.1 entry.2).entries ++ later := by
      rw [inserted, List.append_assoc]
      rfl
    rw [regroup] at ascending distinct ⊢
    exact ih ascending distinct

theorem ofList_entries (names : Names) : Names.ofList names.entries = names := by
  have same : (Names.ofList names.entries).entries = Names.empty.entries ++ names.entries :=
    entries_foldl_insert names.ascending names.distinct
  generalize Names.ofList names.entries = built at same ⊢
  obtain ⟨entries, ascending, distinct⟩ := names
  obtain ⟨entries', _, _⟩ := built
  cases same
  rfl

theorem splitClauses_flatMap {clauses : List Clause} (nonzero : ∀ clause ∈ clauses, 0 ∉ clause) :
    splitClauses (clauses.flatMap fun clause => clause ++ [0]) = (clauses, []) := by
  rw [splitClauses, splitOn_flatMap nonzero, List.dropLast_concat, List.getLast?_concat]
  rfl

theorem reading_contentsOf {formula : Formula} (writable : formula.Writable) :
    (contentsOf formula).reading = ⟨formula, []⟩ := by
  have nonzero : ∀ clause ∈ formula.clauses, (0 : Int) ∉ clause := by
    intro clause member zero
    exact Formula.ne_zero_of_declares (writable.wellFormed clause member 0 zero) rfl
  have clauses := splitClauses_flatMap nonzero
  have declared : formula.names.entries.partition
      (fun entry => formula.header.declares entry.1) = (formula.names.entries, []) := by
    rw [List.partition_eq_filter_filter, List.filter_eq_self.2, List.filter_eq_nil_iff.2]
    · intro entry member
      rw [Function.comp_apply, Bool.not_eq_true, Bool.not_eq_false']
      exact (writable.named entry member).1
    · intro entry member
      exact (writable.named entry member).1
  have counted : formula.clauses.length = formula.header.numClauses := rfl
  simp only [Contents.reading, contentsOf, clausesOf, clauses, declared, ofList_entries, counted,
    if_true]
  rfl

/-- A formula within the bounds is read as it was written, without a warning. -/
theorem read_write {formula : Formula} (writable : formula.Writable) :
    read (write formula) = .ok ⟨formula, []⟩ := by
  rw [read_eq_ok_iff]
  refine ⟨contentsOf formula, ?_, reading_contentsOf writable⟩
  rw [contentLines_write fun entry member => (writable.named entry member).2]
  exact declares_formulaLines writable

theorem ofDimacs_dimacs {formula : Formula} (writable : formula.Writable) :
    Formula.ofDimacs formula.dimacs = .ok formula := by
  rw [Formula.ofDimacs, Formula.dimacs, String.toList_ofList, read_write writable]
  rfl

end Dimacs

end Backbone
