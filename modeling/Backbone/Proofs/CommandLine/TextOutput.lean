import Backbone.LiteralSets
import Backbone.Proofs.CommandLine.Labels
import Backbone.Proofs.Text.Words

/-!
# Sets of literals from their text

The text of some sets has a line for each set, and on it the literals as they are shown, with one
space between two.  If all names are words, then no name runs over a space or the end of a line, so
the text falls into just the literals that were written.  If besides no name is the number of
another variable or the negation of a label, each of them is given back as a literal by the order in
which the words of a command line are resolved.

* `CollisionFree` — names for which this is so;
* `collisionFree_of_letters` — names that are words and do not begin like a number are such;
* `wordsOf`, `readSets` — a line, and a whole text, as the sets that it tells of;
* `isWord_literalLabel`, `unmistakable` — a literal as it is shown is one word and no other literal;
* `wordsOf_literalsLabel`, `splitOn_text` — the words of a line, and the lines of a text;
* `readSets_text` — the text of some sets tells of them in their order.
-/

namespace Backbone.CommandLine

open Text

variable {names : Names} {literal : Literal} {literals : List Literal} {sets : LiteralSets}
  {index : Nat}

/-! ### Names that stay apart -/

/-- Every name is one word, and none is shown for anything but its variable. -/
structure CollisionFree (names : Names) : Prop where
  /-- A name is not empty and holds no blank. -/
  isWord : ∀ index name, names.name? index = some name → IsWord name.toList
  /-- No name is the number of a variable without a name. -/
  number : ∀ index, index ≠ 0 → index < signedBound → names.name? index = none →
    ∀ other, names.name? other ≠ some (decimal index)
  /-- No name is the label of a variable after a minus sign. -/
  minus : ∀ index, index ≠ 0 → index < signedBound →
    ∀ other, names.name? other ≠ some ("-" ++ names.label index)

theorem CollisionFree.unmistakable (free : CollisionFree names) (nonzero : literal ≠ 0)
    (small : literal.var < signedBound) : Unmistakable names literal := by
  have index : literal.var ≠ 0 := Int.natAbs_ne_zero.2 nonzero
  refine ⟨?_, .inr (free.minus literal.var index small)⟩
  cases called : names.name? literal.var with
  | some name => exact .inl ⟨name, rfl⟩
  | none =>
    refine .inr fun other _ => ?_
    rw [Names.label_of_none called]
    exact free.number literal.var index small called other

/-- Names that are words and begin neither with a digit nor with a minus sign do not collide. -/
theorem collisionFree_of_letters
    (letters : ∀ entry ∈ names.entries, IsWord entry.2.toList ∧
      ∀ c ∈ entry.2.toList.head?, c ≠ '-' ∧ c.isDigit = false) : CollisionFree names := by
  have begins {index : Nat} {name : String} (named : names.name? index = some name) :
      IsWord name.toList ∧ ∀ c ∈ name.toList.head?, c ≠ '-' ∧ c.isDigit = false :=
    letters (index, name) (Names.name?_eq_some_iff.1 named)
  refine ⟨fun index name named => (begins named).1, ?_, ?_⟩
  · intro index _ _ _ other named
    obtain ⟨digit, digits, numeral, isDigit⟩ := natNumeral_eq_cons index
    have first := (begins named).2 digit
    rw [decimal, String.toList_ofList, numeral] at first
    rw [(first rfl).2] at isDigit
    cases isDigit
  · intro index _ _ other named
    have first := (begins named).2 '-'
    rw [toList_minus_label] at first
    exact (first rfl).1 rfl

/-! ### Words -/

theorem isWord_natNumeral (index : Nat) : IsWord (natNumeral index) :=
  ⟨natNumeral_ne_nil index, fun _ member => isBlank_of_isDigit (isDigit_of_mem_natNumeral member)⟩

theorem CollisionFree.isWord_label (free : CollisionFree names) (index : Nat) :
    IsWord (names.label index).toList := by
  cases called : names.name? index with
  | some name =>
    rw [Names.label_of_name called]
    exact free.isWord index name called
  | none =>
    rw [Names.label_of_none called, String.toList_ofList]
    exact isWord_natNumeral index

theorem CollisionFree.isWord_literalLabel (free : CollisionFree names) (literal : Literal) :
    IsWord (names.literalLabel literal).toList := by
  have isWord := free.isWord_label literal.var
  rw [Names.literalLabel]
  split
  · rw [toList_minus_label]
    exact ⟨List.cons_ne_nil _ _, List.forall_mem_cons.2 ⟨by decide, isWord.clear⟩⟩
  · exact isWord

/-- A character that is neither the separator nor in any of the pieces is not in the text that they
make up. -/
theorem not_mem_intercalate {α : Type} {separator c : α} {pieces : List (List α)}
    (different : c ≠ separator) (clean : ∀ piece ∈ pieces, c ∉ piece) :
    c ∉ [separator].intercalate pieces := by
  induction pieces with
  | nil => exact List.not_mem_nil
  | cons piece pieces ih =>
    obtain ⟨first, later⟩ := List.forall_mem_cons.1 clean
    cases pieces with
    | nil =>
      rw [List.intercalate_singleton]
      exact first
    | cons second pieces =>
      rw [List.intercalate_cons_cons, List.mem_append, List.mem_append, List.mem_singleton]
      rintro ((inFirst | same) | inLater)
      · exact first inFirst
      · exact different same
      · exact ih later inLater

/-! ### Lines -/

/-- The words of a line, between any two of which there is one space.  An empty line has none. -/
def wordsOf (line : List Char) : List String :=
  if line = [] then [] else (line.splitOn ' ').map String.ofList

/-- The sets of literals that a text tells of, one on each line, if its words are resolved. -/
def readSets (names : Names) (text : String) : Except Fault (List (List Literal)) :=
  (text.toList.splitOn '\n').dropLast.mapM fun line => (wordsOf line).mapM (resolveLiteral names)

theorem toList_literalsLabel (names : Names) (literals : List Literal) :
    (names.literalsLabel literals).toList =
      [' '].intercalate (literals.map fun literal => (names.literalLabel literal).toList) := by
  rw [Names.literalsLabel, String.toList_intercalate, List.map_map]
  rfl

theorem wordsOf_literalsLabel (free : CollisionFree names) (literals : List Literal) :
    wordsOf (names.literalsLabel literals).toList = literals.map names.literalLabel := by
  rw [toList_literalsLabel, wordsOf]
  cases literals with
  | nil => rfl
  | cons literal literals =>
    have words : ∀ word ∈ (literal :: literals).map fun literal =>
        (names.literalLabel literal).toList, IsWord word :=
      List.forall_mem_map.2 fun literal _ => free.isWord_literalLabel literal
    have clean : ∀ word ∈ (literal :: literals).map fun literal =>
        (names.literalLabel literal).toList, ' ' ∉ word := by
      intro word member space
      have clear := (words word member).clear ' ' space
      cases clear
    have pieces := List.splitOn_intercalate ' ' clean (List.cons_ne_nil _ _)
    have some_ : [' '].intercalate ((literal :: literals).map fun literal =>
        (names.literalLabel literal).toList) ≠ [] := by
      intro none_
      rw [none_, List.splitOn_nil] at pieces
      have nonempty := (words [] (pieces ▸ List.mem_singleton_self [])).nonempty
      exact nonempty rfl
    rw [if_neg some_, pieces, List.map_map]
    exact List.map_congr_left fun _ _ => String.ofList_toList

theorem newline_not_mem_literalsLabel (free : CollisionFree names) (literals : List Literal) :
    '\n' ∉ (names.literalsLabel literals).toList := by
  rw [toList_literalsLabel]
  refine not_mem_intercalate (by decide) (List.forall_mem_map.2 fun literal _ newline => ?_)
  have clear := (free.isWord_literalLabel literal).clear '\n' newline
  cases clear

/-- Each set is a line of its own, and nothing follows the last one. -/
theorem splitOn_text (free : CollisionFree sets.names) :
    sets.text.toList.splitOn '\n' =
      (sets.sets.map fun set => (sets.names.literalsLabel set).toList) ++ [[]] := by
  have written : sets.text.toList =
      (sets.sets.map fun set => (sets.names.literalsLabel set).toList).flatMap
        fun line => line ++ ['\n'] := by
    rw [LiteralSets.text, LiteralSets.textLines, String.toList_join, List.map_map, List.flatMap_map,
      List.flatMap_map]
    exact List.flatMap_congr fun set _ => String.toList_append
  rw [written]
  exact splitOn_flatMap
    (List.forall_mem_map.2 fun set _ => newline_not_mem_literalsLabel free set)

/-! ### The whole text -/

theorem resolve_wordsOf (free : CollisionFree names)
    (bounded : ∀ literal ∈ literals, literal ≠ 0 ∧ literal.natAbs < signedBound) :
    (wordsOf (names.literalsLabel literals).toList).mapM (resolveLiteral names) = .ok literals := by
  rw [wordsOf_literalsLabel free, mapM_eq_ok_iff, List.forall₂_map_left_iff, List.forall₂_same]
  intro literal member
  obtain ⟨nonzero, small⟩ := bounded literal member
  exact resolveLiteral_shown small nonzero (free.unmistakable nonzero small)

/-- If the names do not collide, the text of some sets ends with a line end, and its lines, cut into
words that are resolved as those of a command line, are the sets in their order, each with its
literals in their order. -/
theorem readSets_text {sets : LiteralSets} (free : CollisionFree sets.names)
    (bounded : ∀ set ∈ sets.sets, ∀ literal ∈ set, literal ≠ 0 ∧ literal.natAbs < signedBound) :
    (sets.text.toList.splitOn '\n').getLast? = some [] ∧
      readSets sets.names sets.text = .ok sets.sets := by
  have pieces := splitOn_text free
  refine ⟨by rw [pieces, List.getLast?_concat], ?_⟩
  rw [readSets, pieces, List.dropLast_concat, mapM_eq_ok_iff, List.forall₂_map_left_iff,
    List.forall₂_same]
  exact fun set member => resolve_wordsOf free (bounded set member)

/-- The first set is empty, and the names are not all made of letters. -/
def spacedSets : LiteralSets :=
  ⟨[[], [-3, 1, -4], [2]], 4, .ofList [(1, "a-1"), (3, "é0"), (2, "+")]⟩

theorem readSets_text_spacedSets :
    spacedSets.text = "\n-é0 a-1 -4\n+\n" ∧
    readSets spacedSets.names "\n-é0 a-1 -4\n+\n" = .ok [[], [-3, 1, -4], [2]] := by
  have written : spacedSets.text = "\n-é0 a-1 -4\n+\n" := by cbv
  have free : CollisionFree spacedSets.names := by
    refine collisionFree_of_letters ?_
    have entries : spacedSets.names.entries = [(1, "a-1"), (2, "+"), (3, "é0")] := by decide
    rw [entries]
    refine List.forall_mem_cons.2 ⟨?_, List.forall_mem_cons.2 ⟨?_, List.forall_mem_singleton.2 ?_⟩⟩
    all_goals exact ⟨⟨by simp, by simp [isBlank]⟩, by simp⟩
  obtain ⟨-, read⟩ := readSets_text free (by decide)
  rw [written] at read
  exact ⟨written, read⟩

end Backbone.CommandLine
