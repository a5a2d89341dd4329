import Mathlib.Logic.Relation
import Backbone.Proofs.Dimacs.NumberLines
import Backbone.Proofs.Dimacs.Refusal

/-!
# The layout of a DIMACS text

How a text is laid out does not matter: not its blank lines, its comments and the blanks around its
lines, not the lines that its numbers stand on, and not whether its lines end with a carriage
return.  This is so of the texts that are refused, too: they are refused for the same reason,
perhaps at another line.

* `SameUpToLine` — the same value, or the same reason to refuse it;
* `Relaid`, `Relaid.collect` — trimmed lines that differ in comments and such cuts are read alike;
* `contentLines_wholeLine` — the trimmed lines of a text, one line of it at a time;
* `Edit`, `Edit.relaid` — one edit of the layout, and what it does to the trimmed lines;
* `withReturns`, `read_withReturns` — a carriage return before every newline;
* `ofDimacs_layout` — the formula of a text is that of any other layout of it.
-/

namespace Backbone.Dimacs

open Text

variable {text rest line before after front gaps back : List Char} {values : List Int}

/-! ### Results that differ in the line number -/

section Results

variable {α β : Type}

/-- Both are the same value, or both are refused for the same reason. -/
inductive SameUpToLine : Except Fault α → Except Fault α → Prop
  | accepted (value : α) : SameUpToLine (.ok value) (.ok value)
  | refused (number number' : Nat) (flaw : DimacsFlaw) :
      SameUpToLine (.error (.invalidDimacs number flaw)) (.error (.invalidDimacs number' flaw))

theorem SameUpToLine.symm {result result' : Except Fault α} (same : SameUpToLine result result') :
    SameUpToLine result' result := by
  cases same with
  | accepted value => exact .accepted value
  | refused number number' flaw => exact .refused number' number flaw

theorem SameUpToLine.trans {first second third : Except Fault α}
    (same : SameUpToLine first second) (same' : SameUpToLine second third) :
    SameUpToLine first third := by
  cases same with
  | accepted value => exact same'
  | refused number number' flaw =>
    cases same' with
    | refused _ number'' => exact .refused number number'' flaw

theorem SameUpToLine.map {result result' : Except Fault α} (same : SameUpToLine result result')
    (f : α → β) : SameUpToLine (result.map f) (result'.map f) := by
  cases same with
  | accepted value => exact .accepted (f value)
  | refused number number' flaw => exact .refused number number' flaw

end Results

/-! ### The trimmed lines of two layouts -/

/-- The trimmed lines hold the same in order, except for comments, and except that a line of numbers
may be cut in two. -/
inductive Relaid : List (List Char) → List (List Char) → Prop
  | nil : Relaid [] []
  | line {line : List Char} {ls ls' : List (List Char)} : Relaid ls ls' →
      Relaid (line :: ls) (line :: ls')
  | comment {line : List Char} {ls ls' : List (List Char)} : lexLine line = .ok .comment →
      Relaid ls ls' → Relaid ls (line :: ls')
  | cut {line front back : List Char} {first second : List Int} {ls ls' : List (List Char)} :
      lexLine line = .ok (.numbers (first ++ second)) → lexLine front = .ok (.numbers first) →
      lexLine back = .ok (.numbers second) → Relaid ls ls' →
      Relaid (line :: ls) (front :: back :: ls')

theorem Relaid.refl : ∀ ls, Relaid ls ls
  | [] => .nil
  | _ :: ls => .line (Relaid.refl ls)

theorem Relaid.append {ls ls' ms ms' : List (List Char)} (relaid : Relaid ls ls')
    (relaid' : Relaid ms ms') : Relaid (ls ++ ms) (ls' ++ ms') := by
  induction relaid with
  | nil => exact relaid'
  | line _ ih => exact .line ih
  | comment lexed _ ih => exact .comment lexed ih
  | cut whole front back _ ih => exact .cut whole front back ih

/-! ### Reading the lines -/

variable {total total' number number' : Nat} {header? : Option Header}
  {numbered numbered' : List (Nat × List Char)}

theorem collect_nil : SameUpToLine (collect total header? []) (collect total' header? []) := by
  cases header? with
  | none => exact .refused total total' .noProblem
  | some header => exact .accepted _

/-- What a line adds, and what is wrong with it, does not depend on its number. -/
theorem collect_line (later : ∀ header?,
      SameUpToLine (collect total header? numbered) (collect total' header? numbered')) :
    SameUpToLine (collect total header? ((number, line) :: numbered))
      (collect total' header? ((number', line) :: numbered')) := by
  by_cases flawed : ∃ flaw, Flawed header? line flaw
  · obtain ⟨flaw, flawed⟩ := flawed
    rw [flawed.collect, flawed.collect]
    exact .refused number number' flaw
  · cases lexed : lexLine line with
    | error flaw => exact absurd ⟨flaw, .of_error lexed⟩ flawed
    | ok token =>
      cases token with
      | comment =>
        rw [collect_comment lexed, collect_comment lexed]
        exact later header?
      | name index given =>
        rw [collect_name lexed, collect_name lexed]
        exact (later header?).map _
      | problem header =>
        cases header? with
        | none =>
          rw [collect_problem lexed, collect_problem lexed]
          exact later (some header)
        | some known => exact absurd ⟨_, .of_problem lexed⟩ flawed
      | numbers values =>
        cases header? with
        | none => exact absurd ⟨_, .of_numbers lexed⟩ flawed
        | some header =>
          cases above : undeclared? header values with
          | none =>
            rw [collect_numbers lexed above, collect_numbers lexed above]
            exact (later (some header)).map _
          | some literal => exact absurd ⟨_, .of_undeclared lexed above⟩ flawed
      | stop =>
        have ends := goesOn_eq_false_iff.2 lexed
        rw [collect_mark ends, collect_mark ends]
        exact collect_nil

/-- The literals of a line that is cut in two are checked in the same order. -/
theorem collect_cut {front back : List Char} {number'' : Nat} {first second : List Int}
    (whole : lexLine line = .ok (.numbers (first ++ second)))
    (lexed : lexLine front = .ok (.numbers first)) (lexed' : lexLine back = .ok (.numbers second))
    (later : ∀ header?,
      SameUpToLine (collect total header? numbered) (collect total' header? numbered')) :
    SameUpToLine (collect total header? ((number, line) :: numbered))
      (collect total' header? ((number', front) :: (number'', back) :: numbered')) := by
  cases header? with
  | none =>
    rw [(Flawed.of_numbers whole).collect, (Flawed.of_numbers lexed).collect]
    exact .refused number number' .clauseBeforeProblem
  | some header =>
    have cut : undeclared? header (first ++ second) =
        (undeclared? header first).or (undeclared? header second) := List.find?_append
    cases above : undeclared? header first with
    | some literal =>
      rw [above, Option.some_or] at cut
      rw [(Flawed.of_undeclared whole cut).collect, (Flawed.of_undeclared lexed above).collect]
      exact .refused number number' _
    | none =>
      rw [above, Option.none_or] at cut
      rw [collect_numbers lexed above]
      cases above' : undeclared? header second with
      | some literal =>
        rw [above'] at cut
        rw [(Flawed.of_undeclared whole cut).collect, (Flawed.of_undeclared lexed' above').collect]
        exact .refused number number'' _
      | none =>
        rw [above'] at cut
        rw [collect_numbers whole cut, collect_numbers lexed' above']
        have joined := (later (some header)).map fun contents =>
          { contents with numbers := first ++ second ++ contents.numbers }
        convert joined using 1
        cases collect total' (some header) numbered' with
        | error fault => rfl
        | ok contents => simp only [Except.map, List.append_assoc]

theorem Relaid.collect {ls ls' : List (List Char)} (relaid : Relaid ls ls')
    (before : numbered.map Prod.snd = ls) (after : numbered'.map Prod.snd = ls') :
    SameUpToLine (collect total header? numbered) (collect total' header? numbered') := by
  induction relaid generalizing header? numbered numbered' with
  | nil =>
    rw [List.map_eq_nil_iff.1 before, List.map_eq_nil_iff.1 after]
    exact collect_nil
  | line _ ih =>
    obtain ⟨⟨number, line⟩, rest, rfl, rfl, lines⟩ := List.map_eq_cons_iff.1 before
    obtain ⟨⟨number', line'⟩, rest', rfl, rfl, lines'⟩ := List.map_eq_cons_iff.1 after
    exact collect_line fun header? => ih lines lines'
  | comment lexed _ ih =>
    obtain ⟨⟨number', line'⟩, rest', rfl, rfl, lines'⟩ := List.map_eq_cons_iff.1 after
    rw [collect_comment lexed]
    exact ih before lines'
  | cut whole lexed lexed' _ ih =>
    obtain ⟨⟨number, line⟩, rest, rfl, rfl, lines⟩ := List.map_eq_cons_iff.1 before
    obtain ⟨⟨number', front⟩, others, rfl, rfl, lines'⟩ := List.map_eq_cons_iff.1 after
    obtain ⟨⟨number'', back⟩, rest', rfl, rfl, later⟩ := List.map_eq_cons_iff.1 lines'
    exact collect_cut whole lexed lexed' fun header? => ih lines later

/-! ### The lines of texts that are put together -/

theorem contentLines_eq (text : List Char) :
    contentLines text = ((text.splitOn '\n').map trim).filter fun line => !line.isEmpty := by
  obtain ⟨closed, last, pieces, cut⟩ := lines_eq text
  have trimmed : trim ∘ dropReturn = trim := funext trim_dropReturn
  rw [contentLines, cut, pieces, List.map_append, List.map_append, List.filter_append,
    List.filter_append, List.map_map, trimmed]
  congr 1
  by_cases none : last = []
  · rw [none]
    rfl
  · rw [if_neg none]

theorem contentLines_append_newline (before after : List Char) :
    contentLines (before ++ '\n' :: after) = contentLines before ++ contentLines after := by
  have cut : (before ++ '\n' :: after).splitOn '\n' =
      before.splitOn '\n' ++ after.splitOn '\n' :=
    List.splitOnP_append_cons before after (by decide)
  rw [contentLines_eq, contentLines_eq, contentLines_eq, cut, List.map_append, List.filter_append]

theorem contentLines_nil : contentLines [] = [] := rfl

theorem contentLines_newline (rest : List Char) :
    contentLines ('\n' :: rest) = contentLines rest := contentLines_append_newline [] rest

theorem contentLines_of_not_mem (oneLine : '\n' ∉ line) :
    contentLines line = [trim line].filter fun line => !line.isEmpty := by
  rw [contentLines_eq, List.splitOn_eq_singleton oneLine, List.map_singleton]

theorem contentLines_of_trim_ne_nil (oneLine : '\n' ∉ line) (some_ : trim line ≠ []) :
    contentLines line = [trim line] := by
  rw [contentLines_of_not_mem oneLine, List.filter_cons_of_pos (by simpa using some_)]
  rfl

/-- The text is empty or ends with a newline. -/
def AtLineStart (before : List Char) : Prop := ∀ c ∈ before.getLast?, c = '\n'

instance (before : List Char) : Decidable (AtLineStart before) :=
  Option.decidableForallMem before.getLast?

/-- The text is empty or starts with the end of a line. -/
def AtLineEnd (after : List Char) : Prop :=
  after = [] ∨ ∃ rest, after = '\n' :: rest ∨ after = '\r' :: '\n' :: rest

/-- The text in the middle is a whole line of the three together. -/
structure IsWholeLine (before line after : List Char) : Prop where
  starts : AtLineStart before
  oneLine : '\n' ∉ line
  stops : AtLineEnd after

theorem contentLines_append_of_atLineStart (starts : AtLineStart before) (rest : List Char) :
    contentLines (before ++ rest) = contentLines before ++ contentLines rest := by
  rcases List.eq_nil_or_concat before with rfl | ⟨front, last, rfl⟩
  · rfl
  · obtain rfl := starts last (by simp)
    rw [List.concat_eq_append, List.append_assoc, List.singleton_append,
      contentLines_append_newline, contentLines_append_newline front [], contentLines_nil,
      List.append_nil]

theorem contentLines_append_of_atLineEnd (oneLine : '\n' ∉ line) (stops : AtLineEnd after) :
    contentLines (line ++ after) = contentLines line ++ contentLines after := by
  rcases stops with rfl | ⟨rest, rfl | rfl⟩
  · rw [List.append_nil, contentLines_nil, List.append_nil]
  · rw [contentLines_append_newline, contentLines_newline]
  · -- the carriage return is trimmed from the line, and from the empty line in front of the rest
    have longer : '\n' ∉ line ++ ['\r'] := by simp [oneLine]
    have blank : AllBlank ['\r'] := by decide
    have trimmed : trim (line ++ ['\r']) = trim line := trim_pad (List.forall_mem_nil _) blank line
    have alone : contentLines ('\r' :: '\n' :: rest) = contentLines rest :=
      contentLines_append_newline ['\r'] rest
    rw [List.append_cons, contentLines_append_newline, alone, contentLines_of_not_mem longer, trimmed,
      contentLines_of_not_mem oneLine]

theorem contentLines_wholeLine (whole : IsWholeLine before line after) :
    contentLines (before ++ line ++ after) =
      contentLines before ++ contentLines line ++ contentLines after := by
  rw [List.append_assoc, contentLines_append_of_atLineStart whole.starts,
    contentLines_append_of_atLineEnd whole.oneLine whole.stops, List.append_assoc]

theorem contentLines_brokenLine (starts : AtLineStart before) (oneLine : '\n' ∉ back)
    (stops : AtLineEnd after) :
    contentLines (before ++ (front ++ '\n' :: back) ++ after) =
      contentLines before ++ contentLines front ++ (contentLines back ++ contentLines after) := by
  have apart : before ++ (front ++ '\n' :: back) ++ after =
      (before ++ front) ++ '\n' :: (back ++ after) := by
    simp only [List.append_assoc, List.cons_append]
  rw [apart, contentLines_append_newline, contentLines_append_of_atLineStart starts,
    contentLines_append_of_atLineEnd oneLine stops]

/-! ### Edits of the layout -/

/-- The line is blank, or a comment that names nothing. -/
def Idle (line : List Char) : Prop := trim line = [] ∨ lexLine (trim line) = .ok .comment

/-- The second text is the first one after one edit of its layout. -/
inductive Edit : List Char → List Char → Prop
  /-- An idle line is inserted in front of a line. -/
  | idleLine {before line after : List Char} : AtLineStart before → '\n' ∉ line → Idle line →
      Edit (before ++ after) (before ++ (line ++ '\n' :: after))
  /-- An idle line is added behind the last line. -/
  | lastLine {text line : List Char} : '\n' ∉ line → Idle line → Edit text (text ++ '\n' :: line)
  /-- Blanks are added at both ends of a line. -/
  | pad {before left line right after : List Char} : IsWholeLine before line after →
      AllBlank left → '\n' ∉ left → AllBlank right → '\n' ∉ right →
      Edit (before ++ line ++ after) (before ++ (left ++ line ++ right) ++ after)
  /-- A newline takes the place of the gaps between two numbers of a line of numbers. -/
  | lineBreak {before front gaps back after : List Char} {values : List Int} :
      IsWholeLine before (front ++ gaps ++ back) after →
      lexLine (trim (front ++ gaps ++ back)) = .ok (.numbers values) →
      EndsInDigit front → (∀ c ∈ gaps, isGap c = true) → StartsNumber back →
      HasNumberEnd (gaps ++ back) →
      Edit (before ++ (front ++ gaps ++ back) ++ after) (before ++ (front ++ '\n' :: back) ++ after)

theorem Idle.relaid (idle : Idle line) (oneLine : '\n' ∉ line) :
    Relaid [] (contentLines line) := by
  by_cases blank : trim line = []
  · rw [contentLines_of_not_mem oneLine, blank]
    exact .nil
  · rw [contentLines_of_trim_ne_nil oneLine blank]
    exact .comment (idle.resolve_left blank) .nil

/-- A newline between two numbers cuts the trimmed line in two. -/
theorem relaid_lineBreak (whole : IsWholeLine before (front ++ gaps ++ back) after)
    (lexed : lexLine (trim (front ++ gaps ++ back)) = .ok (.numbers values))
    (ends : EndsInDigit front) (allGaps : ∀ c ∈ gaps, isGap c = true) (starts : StartsNumber back)
    (numberEnd : HasNumberEnd (gaps ++ back)) :
    Relaid (contentLines (before ++ (front ++ gaps ++ back) ++ after))
      (contentLines (before ++ (front ++ '\n' :: back) ++ after)) := by
  obtain ⟨⟨oneLine, -⟩, oneLine'⟩ : ('\n' ∉ front ∧ '\n' ∉ gaps) ∧ '\n' ∉ back := by
    simpa only [List.mem_append, not_or] using whole.oneLine
  obtain ⟨blanks, -, cut⟩ := exists_trim_append starts.startsClear
  have numberEnd' : HasNumberEnd (gaps ++ trim back) := by
    rw [cut, ← List.append_assoc] at numberEnd
    exact numberEnd.of_append
  have joined := trim_joined gaps ends starts
  have some_ : trim (front ++ gaps ++ back) ≠ [] := by
    rw [joined]
    exact List.append_ne_nil_of_right_ne_nil _ starts.trim.ne_nil
  rw [contentLines_wholeLine whole, contentLines_brokenLine whole.starts oneLine' whole.stops,
    contentLines_of_trim_ne_nil whole.oneLine some_,
    contentLines_of_trim_ne_nil oneLine ends.trim.ne_nil,
    contentLines_of_trim_ne_nil oneLine' starts.trim.ne_nil]
  obtain ⟨first, second, rfl, lexed', lexed''⟩ :=
    lexLine_cut (joined ▸ lexed) ends.trim allGaps starts.trim numberEnd'
  have cutLine := (Relaid.refl (contentLines before)).append
    (.cut lexed lexed' lexed'' (Relaid.refl (contentLines after)))
  simpa only [List.append_assoc, List.singleton_append] using cutLine

theorem Edit.relaid {text' : List Char} (edit : Edit text text') :
    Relaid (contentLines text) (contentLines text') := by
  cases edit with
  | idleLine starts oneLine idle =>
    rw [contentLines_append_of_atLineStart starts, contentLines_append_of_atLineStart starts,
      contentLines_append_newline]
    exact (Relaid.refl _).append ((idle.relaid oneLine).append (Relaid.refl _))
  | lastLine oneLine idle =>
    have longer := (Relaid.refl (contentLines text)).append (idle.relaid oneLine)
    rwa [List.append_nil, ← contentLines_append_newline] at longer
  | @pad before left line right after whole blank oneLine blank' oneLine' =>
    have longer : IsWholeLine before (left ++ line ++ right) after :=
      ⟨whole.starts, by simp [whole.oneLine, oneLine, oneLine'], whole.stops⟩
    rw [contentLines_wholeLine whole, contentLines_wholeLine longer,
      contentLines_of_not_mem longer.oneLine, trim_pad blank blank',
      contentLines_of_not_mem whole.oneLine]
    exact Relaid.refl _
  | lineBreak whole lexed ends allGaps starts numberEnd =>
    exact relaid_lineBreak whole lexed ends allGaps starts numberEnd

/-! ### Carriage returns -/

/-- The text with a carriage return before every newline. -/
def withReturns (text : List Char) : List Char :=
  text.flatMap fun c => if c = '\n' then ['\r', '\n'] else [c]

theorem withReturns_append (text rest : List Char) :
    withReturns (text ++ rest) = withReturns text ++ withReturns rest := List.flatMap_append

theorem withReturns_of_not_mem (oneLine : '\n' ∉ line) : withReturns line = line := by
  induction line with
  | nil => rfl
  | cons c line ih =>
    rw [List.mem_cons, not_or] at oneLine
    rw [withReturns, List.flatMap_cons, if_neg (Ne.symm oneLine.1), ← withReturns, ih oneLine.2]
    rfl

theorem withReturns_flatMap {closed : List (List Char)}
    (clean : ∀ piece ∈ closed, '\n' ∉ piece) :
    withReturns (closed.flatMap fun piece => piece ++ ['\n']) =
      (closed.map fun piece => piece ++ ['\r']).flatMap fun piece => piece ++ ['\n'] := by
  induction closed with
  | nil => rfl
  | cons piece closed ih =>
    obtain ⟨first, later⟩ := List.forall_mem_cons.1 clean
    have newline : withReturns ['\n'] = ['\r'] ++ ['\n'] := rfl
    rw [List.flatMap_cons, withReturns_append, withReturns_append, withReturns_of_not_mem first,
      newline, ih later, List.map_cons, List.flatMap_cons, List.append_assoc piece ['\r']]

/-- Each piece that a newline closes gets a carriage return at its end. -/
theorem splitOn_withReturns {closed : List (List Char)} {last : List Char}
    (pieces : text.splitOn '\n' = closed ++ [last]) :
    (withReturns text).splitOn '\n' = (closed.map fun piece => piece ++ ['\r']) ++ [last] := by
  have clean : ∀ piece ∈ closed ++ [last], '\n' ∉ piece := fun piece member =>
    not_mem_of_mem_splitOn (pieces ▸ member)
  rw [List.forall_mem_append, List.forall_mem_singleton] at clean
  have whole : text = (closed.flatMap fun piece => piece ++ ['\n']) ++ last := by
    rw [flatMap_append_eq_intercalate, ← pieces, List.intercalate_splitOn]
  rw [whole, withReturns_append, withReturns_flatMap clean.1, withReturns_of_not_mem clean.2]
  apply splitOn_flatMap_append ?_ clean.2
  rw [List.forall_mem_map]
  intro piece member
  simp [clean.1 piece member]

theorem map_trim_lines_withReturns (text : List Char) :
    (lines (withReturns text)).map trim = (lines text).map trim := by
  obtain ⟨closed, last, pieces, cut⟩ := lines_eq text
  obtain ⟨closed', last', pieces', cut'⟩ := lines_eq (withReturns text)
  rw [splitOn_withReturns pieces] at pieces'
  obtain ⟨rfl, same⟩ := List.append_inj' pieces' rfl
  cases same
  have blank : AllBlank ['\r'] := by decide
  have alike (piece : List Char) : trim (dropReturn (piece ++ ['\r'])) = trim (dropReturn piece) := by
    rw [trim_dropReturn, trim_dropReturn]
    exact trim_pad (List.forall_mem_nil _) blank piece
  rw [cut, cut', List.map_append, List.map_append, List.map_map, List.map_map, List.map_map]
  congr 1
  exact List.map_congr_left fun piece _ => alike piece

theorem read_withReturns (text : List Char) : read (withReturns text) = read text := by
  have total : (lines (withReturns text)).length = (lines text).length := by
    rw [← List.length_map trim, map_trim_lines_withReturns, List.length_map]
  rw [read, read, total, numberedLines, numberedLines, map_trim_lines_withReturns]

/-! ### The formula of the text -/

theorem read_relaid {text' : List Char} (relaid : Relaid (contentLines text) (contentLines text')) :
    SameUpToLine (read text) (read text') :=
  (relaid.collect (map_snd_numberedLines text) (map_snd_numberedLines text')).map _

theorem read_of_edits {text' : List Char} (edits : Relation.EqvGen Edit text text') :
    SameUpToLine (read text) (read text') := by
  induction edits with
  | rel text text' edit => exact read_relaid edit.relaid
  | refl text => exact read_relaid (Relaid.refl _)
  | symm text text' _ ih => exact ih.symm
  | trans text text' text'' _ _ ih ih' => exact ih.trans ih'

/-- Edits of the layout of a text, any number of them made or undone, change neither its formula nor
the reason for which it is refused, but perhaps the line at which it is.  Carriage returns before
the newlines do not even change that line. -/
theorem ofDimacs_layout (text : String) :
    (∀ text' : String, Relation.EqvGen Edit text.toList text'.toList →
      SameUpToLine (Formula.ofDimacs text) (Formula.ofDimacs text')) ∧
    Formula.ofDimacs (String.ofList (withReturns text.toList)) = Formula.ofDimacs text := by
  constructor
  · intro text' edits
    exact (read_of_edits edits).map _
  · rw [Formula.ofDimacs, Formula.ofDimacs, String.toList_ofList, read_withReturns]

/-- A text with a clause on one line, which is refused for its last line. -/
def tightText : String := "p cnf 2 1\n1 -2 0\n3"

/-- The same text with the clause on two lines, and a comment and more blanks between these. -/
def wideText : String := "p cnf 2 1\n1\n c of two\r\n\u2003-2 0 \n3"

theorem ofDimacs_layout_tightText :
    SameUpToLine (Formula.ofDimacs tightText) (Formula.ofDimacs wideText) ∧
    Formula.ofDimacs "p cnf 2 1\r\n1 -2 0\r\n3" = Formula.ofDimacs tightText := by
  obtain ⟨edited, returned⟩ := ofDimacs_layout tightText
  refine ⟨edited wideText ?_, returned⟩
  have broken : Edit tightText.toList "p cnf 2 1\n1\n-2 0\n3".toList := by
    have whole : IsWholeLine "p cnf 2 1\n".toList ("1".toList ++ [' '] ++ "-2 0".toList)
        "\n3".toList := ⟨by decide, by decide, .inr ⟨"3".toList, .inl rfl⟩⟩
    have lexed : lexLine (clauseLine [1, -2]) = .ok (.numbers [1, -2, 0]) :=
      lexLine_clauseLine (by decide)
    have space : ∀ c ∈ [' '], isGap c = true := List.forall_mem_singleton.2 (by decide)
    exact .lineBreak whole lexed (by decide) space (by decide) (by decide)
  have padded : Edit "p cnf 2 1\n1\n-2 0\n3".toList "p cnf 2 1\n1\n\u2003-2 0 \n3".toList := by
    have whole : IsWholeLine "p cnf 2 1\n1\n".toList "-2 0".toList "\n3".toList :=
      ⟨by decide, by decide, .inr ⟨"3".toList, .inl rfl⟩⟩
    exact @Edit.pad _ ['\u2003'] _ [' '] _ whole (by decide) (by decide) (by decide) (by decide)
  have commented : Edit "p cnf 2 1\n1\n\u2003-2 0 \n3".toList wideText.toList := by
    have numbers : lexNumbers? "c of two".toList = none :=
      lexNumbers?_of_head (by decide) (by decide) (by decide)
    have comment : lexLine "c of two".toList = .ok .comment := by
      rw [lexLine, Line.lex, numbers]
      rfl
    exact @Edit.idleLine "p cnf 2 1\n1\n".toList " c of two\r".toList _ (by decide) (by decide)
      (.inr comment)
  exact .trans _ _ _ (.rel _ _ broken) (.trans _ _ _ (.rel _ _ padded) (.rel _ _ commented))

end Backbone.Dimacs
