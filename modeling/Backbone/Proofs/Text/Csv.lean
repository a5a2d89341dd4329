import Backbone.Text.Csv

/-!
# Separated values that are read back

A reader of separated values takes a text character by character.  A field may have quotes around
it, within which a quote is written twice and every other character stands for itself; outside of
quotes a separator ends a field, and a newline or a carriage return ends a record.  Line ends between
two records are passed over.  Every table whose records have at least one field is read back from
its written form, whatever characters are in its fields.

* `Reader`, `Reader.step`, `read` — the reader, which gives records for any text;
* `run_doubleQuotes`, `run_bare` — the inside of a field, with and without quotes;
* `field_eq_or`, `run_field` — the two forms of a field, and the character that ends it;
* `run_record`, `read_table` — a record, and a table.
-/

namespace Backbone.Text.Csv

/-! ### The reader -/

/-- Where a reader stands. -/
inductive Place where
  /-- Before a record. -/
  | recordStart
  /-- At the first character of a field. -/
  | fieldStart
  /-- Within a field without quotes around it. -/
  | bare
  /-- Within the quotes around a field. -/
  | quoted
  /-- After a quote within quotes, which ends them unless another quote follows. -/
  | quoteSeen
deriving DecidableEq

/-- What has been read so far. -/
structure Reader where
  /-- The records that are complete. -/
  records : List (List (List Char))
  /-- The complete fields of the present record. -/
  fields : List (List Char)
  /-- The present field. -/
  field : List Char
  /-- What the next character belongs to. -/
  place : Place

/-- A character that ends a record outside of quotes. -/
def isLineEnd (c : Char) : Bool := c == '\n' || c == '\r'

namespace Reader

/-- The character belongs to the present field. -/
def take (reader : Reader) (c : Char) (place : Place) : Reader :=
  { reader with field := reader.field ++ [c], place }

/-- The present field is complete. -/
def endField (reader : Reader) : Reader :=
  { reader with fields := reader.fields ++ [reader.field], field := [], place := .fieldStart }

/-- The present record is complete. -/
def endRecord (reader : Reader) : Reader :=
  ⟨reader.records ++ [reader.fields ++ [reader.field]], [], [], .recordStart⟩

/-- A character outside of quotes. -/
def outside (reader : Reader) (c : Char) : Reader :=
  if c = separator then reader.endField
  else if isLineEnd c then reader.endRecord
  else reader.take c .bare

/-- A character that may open quotes. -/
def enter (reader : Reader) (c : Char) : Reader :=
  if c = '"' then { reader with place := .quoted } else reader.outside c

/-- The next character. -/
def step (reader : Reader) (c : Char) : Reader :=
  match reader.place with
  | .recordStart => if isLineEnd c then reader else reader.enter c
  | .fieldStart => reader.enter c
  | .bare => reader.outside c
  | .quoted => if c = '"' then { reader with place := .quoteSeen } else reader.take c .quoted
  | .quoteSeen => if c = '"' then reader.take c .quoted else reader.outside c

/-- The characters of a text, one after the other. -/
def run (reader : Reader) (text : List Char) : Reader := text.foldl step reader

/-- The records at the end of the text, where a record need not be closed. -/
def finish (reader : Reader) : List (List (List Char)) :=
  if reader.place = .recordStart then reader.records else reader.endRecord.records

end Reader

/-- The records of a text. -/
def read (text : List Char) : List (List (List Char)) :=
  ((⟨[], [], [], .recordStart⟩ : Reader).run text).finish

/-! ### Fields -/

open Reader

variable {records : List (List (List Char))} {fields : List (List Char)} {text : List Char}

@[simp]
theorem run_nil (reader : Reader) : reader.run [] = reader := rfl

@[simp]
theorem run_cons (reader : Reader) (c : Char) (text : List Char) :
    reader.run (c :: text) = (reader.step c).run text := rfl

@[simp]
theorem run_append (reader : Reader) (text rest : List Char) :
    reader.run (text ++ rest) = (reader.run text).run rest :=
  List.foldl_append

theorem outside_of_not_isSpecial (reader : Reader) {c : Char} (plain : isSpecial c = false) :
    reader.outside c = reader.take c .bare := by
  simp only [isSpecial, Bool.or_eq_false_iff, beq_eq_false_iff_ne] at plain
  obtain ⟨⟨⟨noSeparator, -⟩, noNewline⟩, noReturn⟩ := plain
  rw [outside, if_neg noSeparator, if_neg (by simp [isLineEnd, noNewline, noReturn])]

theorem enter_of_ne (reader : Reader) {c : Char} (noQuote : c ≠ '"') :
    reader.enter c = reader.outside c := if_neg noQuote

theorem ne_quote_of_not_isSpecial {c : Char} (plain : isSpecial c = false) : c ≠ '"' := by
  rintro rfl
  cases plain

/-- Within quotes, a text whose quotes are written twice is taken over as it is. -/
theorem run_doubleQuotes (field text : List Char) :
    (⟨records, fields, field, .quoted⟩ : Reader).run (doubleQuotes text) =
      ⟨records, fields, field ++ text, .quoted⟩ := by
  induction text generalizing field with
  | nil => rw [doubleQuotes, run_nil, List.append_nil]
  | cons c text ih =>
    rw [doubleQuotes, List.append_cons, ← ih]
    split
    · rename_i quote
      subst quote
      rfl
    · rename_i noQuote
      rw [run_cons]
      show Reader.run (if c = '"' then _ else _) _ = _
      rw [if_neg noQuote]
      rfl

/-- Outside of quotes, a text without special characters is taken over as it is. -/
theorem run_bare (field : List Char) (plain : ∀ c ∈ text, isSpecial c = false) :
    (⟨records, fields, field, .bare⟩ : Reader).run text =
      ⟨records, fields, field ++ text, .bare⟩ := by
  induction text generalizing field with
  | nil => rw [run_nil, List.append_nil]
  | cons c text ih =>
    rw [List.forall_mem_cons] at plain
    rw [run_cons, List.append_cons, ← ih _ plain.2]
    exact congrArg (Reader.run · text) (outside_of_not_isSpecial _ plain.1)

/-- A written field has quotes around it, or it is the text itself and holds nothing special. -/
theorem field_eq_or (text : List Char) :
    field text = '"' :: (doubleQuotes text ++ ['"']) ∨
      field text = text ∧ ∀ c ∈ text, isSpecial c = false := by
  rw [field]
  split
  · exact .inl rfl
  · rename_i plain
    simp only [List.any_eq_true, not_exists, not_and, Bool.not_eq_true] at plain
    exact .inr ⟨rfl, plain⟩

/-- A written field comes out whole at the character after it, which is no quote. -/
theorem run_field (text : List Char) {c : Char} (noQuote : c ≠ '"') :
    (⟨records, fields, [], .fieldStart⟩ : Reader).run (field text ++ [c]) =
      (⟨records, fields, text, .bare⟩ : Reader).outside c := by
  rcases field_eq_or text with quoted | ⟨bare, plain⟩
  · rw [quoted, List.cons_append, run_cons, run_append, run_append]
    show Reader.run (Reader.run (Reader.run ⟨records, fields, [], .quoted⟩ _) _) _ = _
    rw [run_doubleQuotes]
    exact if_neg noQuote
  · rw [bare]
    cases text with
    | nil => exact enter_of_ne _ noQuote
    | cons d text =>
      rw [List.forall_mem_cons] at plain
      have first : (⟨records, fields, [], .fieldStart⟩ : Reader).step d =
          ⟨records, fields, [d], .bare⟩ :=
        (enter_of_ne _ (ne_quote_of_not_isSpecial plain.1)).trans
          (outside_of_not_isSpecial _ plain.1)
      rw [List.cons_append, run_cons, first, run_append, run_bare _ plain.2]
      rfl

/-! ### Records -/

/-- The fields of a record, from the start of the first one on. -/
theorem run_fields (fields : List (List Char)) (first : List Char) (rest : List (List Char)) :
    (⟨records, fields, [], .fieldStart⟩ : Reader).run
        ([separator].intercalate ((first :: rest).map field) ++ ['\n']) =
      ⟨records ++ [fields ++ first :: rest], [], [], .recordStart⟩ := by
  induction rest generalizing fields first with
  | nil =>
    rw [List.map_singleton, List.intercalate_singleton, run_field first (by decide)]
    rfl
  | cons second rest ih =>
    rw [List.map_cons, List.map_cons, List.intercalate_cons_cons, ← List.map_cons, List.append_assoc,
      run_append, run_field first (by decide)]
    show (⟨records, fields ++ [first], [], .fieldStart⟩ : Reader).run _ = _
    rw [ih, List.append_assoc, List.singleton_append]

/-- A text that does not begin with a line end begins a record. -/
theorem run_recordStart (begins : ∀ c ∈ text.head?, isLineEnd c = false) (nonempty : text ≠ []) :
    (⟨records, [], [], .recordStart⟩ : Reader).run text =
      (⟨records, [], [], .fieldStart⟩ : Reader).run text := by
  cases text with
  | nil => exact absurd rfl nonempty
  | cons c text =>
    rw [run_cons, run_cons]
    show Reader.run (if isLineEnd c = true then _ else Reader.enter _ c) _ = _
    rw [begins c rfl]
    rfl

theorem isLineEnd_of_head?_field (text : List Char) :
    ∀ c ∈ (field text).head?, isLineEnd c = false := by
  intro c first
  rcases field_eq_or text with quoted | ⟨bare, plain⟩
  · rw [quoted] at first
    cases first
    decide
  · rw [bare] at first
    have ordinary := plain c (List.mem_of_mem_head? first)
    simp only [isSpecial, Bool.or_eq_false_iff] at ordinary
    rw [isLineEnd, ordinary.1.2, ordinary.2, Bool.or_false]

theorem eq_nil_of_field {text : List Char} (empty : field text = []) : text = [] := by
  rcases field_eq_or text with quoted | ⟨bare, -⟩
  · rw [quoted] at empty
    cases empty
  · exact bare.symm.trans empty

/-- A field that is not empty hides what follows it from the start of a record. -/
theorem isLineEnd_of_head?_field_append {text rest : List Char}
    (begins : text = [] → ∀ c ∈ rest.head?, isLineEnd c = false) :
    ∀ c ∈ (field text ++ rest).head?, isLineEnd c = false := by
  intro c first
  rw [List.head?_append, Option.mem_def, Option.or_eq_some_iff] at first
  rcases first with inField | ⟨none, inRest⟩
  · exact isLineEnd_of_head?_field text c inField
  · exact begins (eq_nil_of_field (List.head?_eq_none_iff.1 none)) c inRest

/-- A written record is read as its fields. -/
theorem run_record {fields : List (List Char)} (nonempty : fields ≠ []) :
    (⟨records, [], [], .recordStart⟩ : Reader).run (record fields) =
      ⟨records ++ [fields], [], [], .recordStart⟩ := by
  rw [record]
  split
  · rename_i single
    subst single
    rfl
  · rename_i notSingle
    obtain ⟨first, rest, rfl⟩ := List.exists_cons_of_ne_nil nonempty
    rw [run_recordStart, run_fields, List.nil_append]
    · cases rest with
      | nil =>
        rw [List.map_singleton, List.intercalate_singleton]
        exact isLineEnd_of_head?_field_append fun empty => absurd (congrArg ([·]) empty) notSingle
      | cons second rest =>
        rw [List.map_cons, List.map_cons, List.intercalate_cons_cons, List.append_assoc,
          List.append_assoc]
        refine isLineEnd_of_head?_field_append fun _ c first => ?_
        cases first
        decide
    · exact List.append_ne_nil_of_right_ne_nil _ (List.cons_ne_nil _ _)

/-- The records of a table, after some that were read before. -/
theorem run_table {rows : List (List (List Char))} (nonempty : ∀ fields ∈ rows, fields ≠ []) :
    (⟨records, [], [], .recordStart⟩ : Reader).run (table rows) =
      ⟨records ++ rows, [], [], .recordStart⟩ := by
  induction rows generalizing records with
  | nil => rw [table, List.flatMap_nil, run_nil, List.append_nil]
  | cons fields rows ih =>
    rw [List.forall_mem_cons] at nonempty
    rw [table, List.flatMap_cons, run_append, run_record nonempty.1, ← table, ih nonempty.2,
      List.append_assoc, List.singleton_append]

/-- A written table is read back, if each of its records has a field. -/
theorem read_table {rows : List (List (List Char))} (nonempty : ∀ fields ∈ rows, fields ≠ []) :
    read (table rows) = rows := by
  rw [read, run_table nonempty]
  rfl

end Backbone.Text.Csv
