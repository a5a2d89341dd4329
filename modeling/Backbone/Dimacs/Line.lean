import Backbone.Text.Blank
import Backbone.Formula

/-!
# Lines of a DIMACS text

One line is a list of numbers, a problem line, a comment that names a variable, any other
comment, or the mark that ends the text.  `Line.lex` reads the longest beginning of a line that is
one of these, tried in that order, and gives back the rest.

* Numbers may stand apart by gaps or follow each other at once when a sign begins the next one; a
  number out of the signed range ends the list, like any text that is no number.
* The parts of a problem line and of a naming comment are set apart by at least one gap.
* A comment and the end mark take the whole rest of the line.
-/

namespace Backbone.Dimacs

/-- What one line holds. -/
inductive Line where
  /-- Numbers: literals, and zeros that end a clause. -/
  | numbers (values : List Int)
  /-- The problem line. -/
  | problem (header : Header)
  /-- A comment that names a variable. -/
  | name (index : Nat) (name : String)
  | comment
  /-- The mark after which nothing is read. -/
  | stop
deriving DecidableEq

/-! ### Parts of a line -/

/-- The text after its leading gaps. -/
def skipGaps (text : List Char) : List Char := text.dropWhile Text.isGap

theorem length_skipGaps_le (text : List Char) : (skipGaps text).length ≤ text.length :=
  (List.dropWhile_sublist Text.isGap).length_le

/-- The text after its leading gaps, of which there must be one. -/
def skipGaps? : List Char → Option (List Char)
  | c :: rest => if Text.isGap c then some (skipGaps rest) else none
  | [] => none

/-- A signed number at the start of the text, and the text after its digits. -/
def readNumber? (text : List Char) : Option (Int × List Char) :=
  let (negative, rest) := Text.readSign text
  match rest.takeWhile Char.isDigit with
  | [] => none
  | digits => (Text.signedValue? negative digits).map (·, rest.dropWhile Char.isDigit)

/-- An unsigned number at the start of the text, and the text after its digits. -/
def readCount? (text : List Char) : Option (Nat × List Char) :=
  (Text.readDigits? (text.takeWhile Char.isDigit)).map (·, text.dropWhile Char.isDigit)

theorem length_readSign_le (text : List Char) :
    (Text.readSign text).2.length ≤ text.length := by
  unfold Text.readSign
  split <;> simp

theorem length_lt_of_readNumber? {text rest : List Char} {value : Int}
    (h : readNumber? text = some (value, rest)) : rest.length < text.length := by
  simp only [readNumber?] at h
  split at h
  · simp at h
  · rename_i nonempty
    obtain ⟨_, _, same⟩ := Option.map_eq_some_iff.1 h
    have split := congrArg List.length
      (List.takeWhile_append_dropWhile (p := Char.isDigit) (l := (Text.readSign text).2))
    have shorter := length_readSign_le text
    have positive : 0 < ((Text.readSign text).2.takeWhile Char.isDigit).length :=
      List.length_pos_iff.2 fun empty => nonempty empty
    simp only [Prod.mk.injEq] at same
    rw [List.length_append, same.2] at split
    omega

/-- The numbers at the start of the text, each after optional gaps, and the text after the last. -/
def readNumbers (text : List Char) : List Int × List Char :=
  match h : readNumber? (skipGaps text) with
  | none => ([], text)
  | some (value, rest) =>
    have : rest.length < text.length :=
      Nat.lt_of_lt_of_le (length_lt_of_readNumber? h) (length_skipGaps_le text)
    let (values, last) := readNumbers rest
    (value :: values, last)
termination_by text.length

/-! ### The kinds of lines -/

/-- One or more numbers and the gaps after them. -/
def lexNumbers? (text : List Char) : Option (Line × List Char) :=
  match readNumbers text with
  | ([], _) => none
  | (values, rest) => some (.numbers values, skipGaps rest)

/-- A problem line and the gaps after it. -/
def lexProblem? : List Char → Option (Line × List Char)
  | 'p' :: text => do
    match ← skipGaps? text with
    | 'c' :: 'n' :: 'f' :: text =>
      let (numVariables, text) ← readCount? (← skipGaps? text)
      let (numClauses, text) ← readCount? (← skipGaps? text)
      some (.problem ⟨numVariables, numClauses⟩, skipGaps text)
    | _ => none
  | _ => none

/-- A comment that names a variable; the name is the trimmed rest and is not empty. -/
def lexName? : List Char → Option (Line × List Char)
  | 'c' :: text => do
    let (index, text) ← readCount? (← skipGaps? text)
    match Text.trim (← skipGaps? text) with
    | [] => none
    | name => some (.name index (String.ofList name), [])
  | _ => none

/-- A comment: the letter alone, or with a gap after it. -/
def lexComment? : List Char → Option (Line × List Char)
  | ['c'] => some (.comment, [])
  | 'c' :: c :: _ => if Text.isGap c then some (.comment, []) else none
  | _ => none

/-- The mark that ends the text. -/
def lexStop? : List Char → Option (Line × List Char)
  | '%' :: _ => some (.stop, [])
  | _ => none

/-- What a line starts with, and the rest of it. -/
def Line.lex (text : List Char) : Option (Line × List Char) :=
  (lexNumbers? text).or <| (lexProblem? text).or <| (lexName? text).or <|
    (lexComment? text).or (lexStop? text)

end Backbone.Dimacs
