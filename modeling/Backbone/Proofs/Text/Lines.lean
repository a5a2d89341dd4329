import Backbone.Text.Blank
import Backbone.Text.Lines

/-!
# Lines cut and put together, and trimmed texts

A text of whole lines is cut into the same lines again, if none of them holds a newline or ends
with a carriage return.  A text is left alone by trimming if and only if it neither starts nor ends
blank, so trimming twice is trimming once.

* `splitOn_flatMap_append` — pieces closed by separators, and a rest, are found again;
* `flatten_splitOn_sublist`, `not_mem_of_mem_splitOn` — what the pieces of any list are like;
* `lines_flatMap`, `flatten_lines_sublist`, `newline_not_mem_of_mem_lines` — the same for lines;
* `trim_eq_self_iff`, `trim_trim` — trimmed texts;
* `trim_eq_iff`, `trim_pad` — texts with blanks around them;
* `exists_append_trim`, `exists_trim_append` — texts that are clear at one end.
-/

namespace Backbone.Text

section Pieces

variable {α : Type}

theorem flatten_map_sublist {f : List α → List α} (shrinks : ∀ piece, (f piece).Sublist piece)
    (pieces : List (List α)) : (pieces.map f).flatten.Sublist pieces.flatten := by
  induction pieces with
  | nil => exact .slnil
  | cons piece pieces ih => exact (shrinks piece).append ih

theorem flatMap_append_eq_intercalate (separator : α) (pieces : List (List α))
    (rest : List α) :
    (pieces.flatMap fun piece => piece ++ [separator]) ++ rest =
      [separator].intercalate (pieces ++ [rest]) := by
  induction pieces with
  | nil => exact List.intercalate_singleton.symm
  | cons piece pieces ih =>
    obtain ⟨head, tail, shape⟩ := List.exists_cons_of_ne_nil
      (List.append_ne_nil_of_right_ne_nil pieces (List.cons_ne_nil rest []))
    rw [List.flatMap_cons, List.append_assoc, ih, List.cons_append, shape,
      List.intercalate_cons_cons]

variable [BEq α] {separator : α}

theorem flatten_splitOn_sublist (text : List α) :
    (text.splitOn separator).flatten.Sublist text := by
  induction text with
  | nil => simp [List.splitOn_nil]
  | cons c text ih =>
    rw [List.splitOn_cons_eq_if_modifyHead]
    split
    · exact ih.cons c
    · obtain ⟨head, tail, pieces⟩ :=
        List.exists_cons_of_ne_nil (List.splitOn_ne_nil separator text)
      rw [pieces] at ih ⊢
      exact ih.cons_cons c

theorem length_splitOn_le (text : List α) :
    (text.splitOn separator).length ≤ text.length + 1 := by
  induction text with
  | nil =>
    rw [List.splitOn_nil]
    exact Nat.le_refl _
  | cons c text ih =>
    rw [List.splitOn_cons_eq_if_modifyHead, List.length_cons]
    split
    · rw [List.length_cons]
      omega
    · rw [List.length_modifyHead]
      omega

variable [LawfulBEq α]

theorem splitOn_flatMap_append {pieces : List (List α)} {rest : List α}
    (clean : ∀ piece ∈ pieces, separator ∉ piece) (cleanRest : separator ∉ rest) :
    ((pieces.flatMap fun piece => piece ++ [separator]) ++ rest).splitOn separator =
      pieces ++ [rest] := by
  rw [flatMap_append_eq_intercalate]
  apply List.splitOn_intercalate
  · exact List.forall_mem_append.2 ⟨clean, List.forall_mem_singleton.2 cleanRest⟩
  · exact List.append_ne_nil_of_right_ne_nil pieces (List.cons_ne_nil rest [])

theorem splitOn_flatMap {pieces : List (List α)} (clean : ∀ piece ∈ pieces, separator ∉ piece) :
    (pieces.flatMap fun piece => piece ++ [separator]).splitOn separator = pieces ++ [[]] := by
  have closed := splitOn_flatMap_append clean (List.not_mem_nil (a := separator))
  rwa [List.append_nil] at closed

theorem mem_splitOn_cons {c : α} {text piece : List α}
    (member : piece ∈ (c :: text).splitOn separator) :
    piece ∈ [] :: text.splitOn separator ∨
      c ≠ separator ∧ ∃ rest ∈ text.splitOn separator, piece = c :: rest := by
  rw [List.splitOn_cons_eq_if_modifyHead] at member
  by_cases same : (c == separator) = true
  · rw [if_pos same] at member
    exact .inl member
  · rw [if_neg same] at member
    obtain ⟨head, tail, pieces⟩ := List.exists_cons_of_ne_nil (List.splitOn_ne_nil separator text)
    rw [pieces, List.modifyHead_cons, List.mem_cons] at member
    rcases member with first | later
    · refine .inr ⟨by simpa using same, head, ?_, first⟩
      rw [pieces]
      exact List.mem_cons_self
    · rw [pieces]
      exact .inl (List.mem_cons_of_mem _ (List.mem_cons_of_mem _ later))

theorem not_mem_of_mem_splitOn {text piece : List α} (member : piece ∈ text.splitOn separator) :
    separator ∉ piece := by
  induction text generalizing piece with
  | nil =>
    rw [List.splitOn_nil, List.mem_singleton] at member
    rw [member]
    exact List.not_mem_nil
  | cons c text ih =>
    rcases mem_splitOn_cons member with later | ⟨different, rest, inside, rfl⟩
    · rcases List.mem_cons.1 later with rfl | later
      · exact List.not_mem_nil
      · exact ih later
    · rw [List.mem_cons, not_or]
      exact ⟨different.symm, ih inside⟩

end Pieces

/-! ### Lines -/

theorem dropReturn_sublist (line : List Char) : (dropReturn line).Sublist line := by
  rw [dropReturn]
  split
  · exact List.dropLast_sublist line
  · exact .refl line

theorem dropReturn_of_getLast? {line : List Char} (h : line.getLast? ≠ some '\r') :
    dropReturn line = line := if_neg h

theorem lines_flatMap {ls : List (List Char)}
    (clean : ∀ line ∈ ls, '\n' ∉ line ∧ line.getLast? ≠ some '\r') :
    lines (ls.flatMap fun line => line ++ ['\n']) = ls := by
  have pieces := splitOn_flatMap fun line member => (clean line member).1
  have unchanged : ls.map dropReturn = ls := by
    rw [List.map_congr_left fun line member => dropReturn_of_getLast? (clean line member).2]
    exact List.map_id ls
  rw [lines, pieces, List.dropLast_concat, unchanged, List.getLast?_concat]
  simp

theorem lines_eq (text : List Char) : ∃ closed last,
    text.splitOn '\n' = closed ++ [last] ∧
      lines text = closed.map dropReturn ++ if last = [] then [] else [last] := by
  have nonempty := List.splitOn_ne_nil '\n' text
  refine ⟨(text.splitOn '\n').dropLast, (text.splitOn '\n').getLast nonempty,
    (List.dropLast_concat_getLast nonempty).symm, ?_⟩
  rw [lines, List.getLast?_eq_some_getLast nonempty]
  cases (text.splitOn '\n').getLast nonempty with
  | nil => rfl
  | cons c rest => rfl

theorem newline_not_mem_of_mem_lines {text line : List Char} (member : line ∈ lines text) :
    '\n' ∉ line := by
  obtain ⟨closed, last, pieces, cut⟩ := lines_eq text
  have clean : ∀ piece ∈ closed ++ [last], '\n' ∉ piece := fun piece inside =>
    not_mem_of_mem_splitOn (pieces ▸ inside)
  rw [cut, List.mem_append] at member
  rcases member with first | rest
  · obtain ⟨piece, inside, rfl⟩ := List.mem_map.1 first
    intro newline
    exact clean piece (List.mem_append_left _ inside) ((dropReturn_sublist piece).subset newline)
  · split at rest
    · cases rest
    · exact clean line (List.mem_append_right _ rest)

theorem flatten_lines_sublist (text : List Char) : (lines text).flatten.Sublist text := by
  obtain ⟨closed, last, pieces, cut⟩ := lines_eq text
  have whole : (closed ++ [last]).flatten.Sublist text := pieces ▸ flatten_splitOn_sublist text
  refine List.Sublist.trans ?_ whole
  rw [cut, List.flatten_append, List.flatten_append]
  apply (flatten_map_sublist dropReturn_sublist closed).append
  split
  · exact List.nil_sublist _
  · exact .refl _

/-! ### Trimming -/

theorem trimStart_sublist (text : List Char) : (trimStart text).Sublist text :=
  List.dropWhile_sublist isBlank

theorem trimEnd_sublist (text : List Char) : (trimEnd text).Sublist text := by
  have backwards := (List.dropWhile_sublist isBlank (l := text.reverse)).reverse
  rwa [List.reverse_reverse] at backwards

theorem trim_sublist (text : List Char) : (trim text).Sublist text :=
  (trimEnd_sublist _).trans (trimStart_sublist text)

/-- The text does not start blank. -/
def StartsClear (text : List Char) : Prop := ∀ c ∈ text.head?, isBlank c = false

/-- The text does not end blank. -/
def EndsClear (text : List Char) : Prop := ∀ c ∈ text.getLast?, isBlank c = false

/-- What is left when characters are dropped begins with none of them. -/
theorem clear_of_head?_dropWhile {p : Char → Bool} (text : List Char) :
    ∀ c ∈ (text.dropWhile p).head?, p c = false := by
  intro c first
  have stopped := List.head?_dropWhile_not p text
  rw [Option.mem_def.1 first] at stopped
  simpa using stopped

theorem startsClear_trimStart (text : List Char) : StartsClear (trimStart text) :=
  clear_of_head?_dropWhile text

theorem trimStart_of_startsClear {text : List Char} (clear : StartsClear text) :
    trimStart text = text := by
  cases text with
  | nil => rfl
  | cons c rest =>
    have blank := clear c rfl
    rw [trimStart, List.dropWhile_cons, blank]
    rfl

theorem endsClear_trimEnd (text : List Char) : EndsClear (trimEnd text) := by
  intro c last
  rw [trimEnd, List.getLast?_reverse] at last
  exact startsClear_trimStart text.reverse c last

theorem trimEnd_of_endsClear {text : List Char} (clear : EndsClear text) :
    trimEnd text = text := by
  have backwards : trimStart text.reverse = text.reverse := by
    apply trimStart_of_startsClear
    intro c first
    rw [List.head?_reverse] at first
    exact clear c first
  rw [trimEnd, ← trimStart, backwards, List.reverse_reverse]

theorem StartsClear.trimEnd {text : List Char} (clear : StartsClear text) :
    StartsClear (trimEnd text) := by
  intro c first
  obtain ⟨dropped, rest⟩ : (Text.trimEnd text) <+: text := by
    rw [← List.reverse_suffix, Text.trimEnd, List.reverse_reverse]
    exact List.dropWhile_suffix isBlank
  apply clear c
  rw [← rest, List.head?_append, Option.mem_def.1 first]
  rfl

theorem startsClear_trim (text : List Char) : StartsClear (trim text) :=
  (startsClear_trimStart text).trimEnd

theorem endsClear_trim (text : List Char) : EndsClear (trim text) := endsClear_trimEnd _

theorem trim_eq_self_iff {text : List Char} :
    trim text = text ↔ StartsClear text ∧ EndsClear text := by
  constructor
  · intro same
    rw [← same]
    exact ⟨startsClear_trim text, endsClear_trim text⟩
  · intro clear
    obtain ⟨first, last⟩ := clear
    rw [trim, trimStart_of_startsClear first, trimEnd_of_endsClear last]

theorem trim_trim (text : List Char) : trim (trim text) = trim text :=
  trim_eq_self_iff.2 ⟨startsClear_trim text, endsClear_trim text⟩

/-- All of the text is blank. -/
def AllBlank (text : List Char) : Prop := ∀ c ∈ text, isBlank c = true

instance (text : List Char) : Decidable (AllBlank text) :=
  List.decidableBAll (fun c => isBlank c = true) text

theorem trimStart_append_of_allBlank {before : List Char} (blank : AllBlank before)
    (rest : List Char) : trimStart (before ++ rest) = trimStart rest :=
  List.dropWhile_append_of_pos blank

theorem trimEnd_append_of_allBlank {after : List Char} (blank : AllBlank after)
    (rest : List Char) : trimEnd (rest ++ after) = trimEnd rest := by
  rw [trimEnd, List.reverse_append, ← trimStart, trimStart_append_of_allBlank, trimEnd, trimStart]
  intro c member
  exact blank c (List.mem_reverse.1 member)

theorem exists_append_trimStart (text : List Char) :
    ∃ before, AllBlank before ∧ text = before ++ trimStart text :=
  ⟨text.takeWhile isBlank, List.all_eq_true.1 List.all_takeWhile,
    List.takeWhile_append_dropWhile.symm⟩

theorem exists_trimEnd_append (text : List Char) :
    ∃ after, AllBlank after ∧ text = trimEnd text ++ after := by
  obtain ⟨before, blank, cut⟩ := exists_append_trimStart text.reverse
  refine ⟨before.reverse, fun c member => blank c (List.mem_reverse.1 member), ?_⟩
  rw [trimEnd, ← trimStart, ← List.reverse_append, ← cut, List.reverse_reverse]

/-- A text is trimmed to a text that is clear at both ends if and only if it is that text with
blanks around it. -/
theorem trim_eq_iff {text inner : List Char} (starts : StartsClear inner) (ends : EndsClear inner) :
    trim text = inner ↔
      ∃ before after, AllBlank before ∧ AllBlank after ∧ text = before ++ inner ++ after := by
  constructor
  · rintro rfl
    obtain ⟨before, blank, cut⟩ := exists_append_trimStart text
    obtain ⟨after, blankAfter, cutAfter⟩ := exists_trimEnd_append (trimStart text)
    refine ⟨before, after, blank, blankAfter, ?_⟩
    rw [List.append_assoc, trim, ← cutAfter]
    exact cut
  · rintro ⟨before, after, blank, blankAfter, rfl⟩
    rw [trim, List.append_assoc, trimStart_append_of_allBlank blank]
    cases inner with
    | nil =>
      rw [List.nil_append, ← List.append_nil after, trimStart_append_of_allBlank blankAfter]
      rfl
    | cons c inner =>
      have clear : StartsClear (c :: inner ++ after) := starts
      rw [trimStart_of_startsClear clear, trimEnd_append_of_allBlank blankAfter,
        trimEnd_of_endsClear ends]

theorem exists_blanks_around (text : List Char) :
    ∃ before after, AllBlank before ∧ AllBlank after ∧ text = before ++ trim text ++ after :=
  (trim_eq_iff (startsClear_trim text) (endsClear_trim text)).1 rfl

theorem trim_ne_nil {text : List Char} {c : Char} (member : c ∈ text) (clear : isBlank c = false) :
    trim text ≠ [] := by
  intro none
  obtain ⟨before, after, blank, blankAfter, cut⟩ := exists_blanks_around text
  rw [none, List.append_nil] at cut
  rw [cut] at member
  have isBlank := List.forall_mem_append.2 ⟨blank, blankAfter⟩ c member
  rw [clear] at isBlank
  cases isBlank

/-- Blanks around a text are trimmed away. -/
theorem trim_pad {before after : List Char} (blank : AllBlank before) (blankAfter : AllBlank after)
    (text : List Char) : trim (before ++ text ++ after) = trim text := by
  obtain ⟨left, right, blankLeft, blankRight, cut⟩ := exists_blanks_around text
  refine (trim_eq_iff (startsClear_trim text) (endsClear_trim text)).2
    ⟨before ++ left, right ++ after, List.forall_mem_append.2 ⟨blank, blankLeft⟩,
      List.forall_mem_append.2 ⟨blankRight, blankAfter⟩, ?_⟩
  calc before ++ text ++ after = before ++ (left ++ trim text ++ right) ++ after := by rw [← cut]
    _ = before ++ left ++ trim text ++ (right ++ after) := by simp only [List.append_assoc]

theorem trim_dropReturn (line : List Char) : trim (dropReturn line) = trim line := by
  rw [dropReturn]
  split
  · rename_i ends
    obtain ⟨front, rfl⟩ := List.getLast?_eq_some_iff.1 ends
    have blank : AllBlank ['\r'] := by decide
    rw [List.dropLast_concat]
    exact (trim_pad (List.forall_mem_nil _) blank front).symm
  · rfl

/-! ### Clear ends -/

theorem startsClear_append_of_ne_nil {front back : List Char} (nonempty : front ≠ [])
    (clear : StartsClear front) : StartsClear (front ++ back) := by
  obtain ⟨c, front, rfl⟩ := List.exists_cons_of_ne_nil nonempty
  exact clear

theorem endsClear_append_of_ne_nil {front back : List Char} (nonempty : back ≠ [])
    (clear : EndsClear back) : EndsClear (front ++ back) := by
  intro c last
  apply clear c
  rw [List.getLast?_append, List.getLast?_eq_some_getLast nonempty] at last
  rw [List.getLast?_eq_some_getLast nonempty]
  exact last

theorem exists_append_trim {text : List Char} (clear : EndsClear text) :
    ∃ before, AllBlank before ∧ text = before ++ trim text := by
  obtain ⟨before, after, blank, blankAfter, cut⟩ := exists_blanks_around text
  rcases List.eq_nil_or_concat after with rfl | ⟨after, last, rfl⟩
  · exact ⟨before, blank, by rwa [List.append_nil] at cut⟩
  · have isBlank := blankAfter last (by simp)
    rw [clear last (by rw [cut]; simp)] at isBlank
    cases isBlank

theorem exists_trim_append {text : List Char} (clear : StartsClear text) :
    ∃ after, AllBlank after ∧ text = trim text ++ after := by
  obtain ⟨before, after, blank, blankAfter, cut⟩ := exists_blanks_around text
  cases before with
  | nil => exact ⟨after, blankAfter, cut⟩
  | cons first before =>
    have isBlank := blank first List.mem_cons_self
    rw [clear first (by rw [cut]; rfl)] at isBlank
    cases isBlank

end Backbone.Text
