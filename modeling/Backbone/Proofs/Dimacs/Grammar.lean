import Backbone.Dimacs.Reader

/-!
# The grammar of a DIMACS text

What the lines of an accepted text declare, as a relation with one rule for each kind of line.
Line numbers occur in faults only, so nothing of them is left here.

* `collect_comment`, `collect_name`, `collect_problem`, `collect_numbers`, `collect_stop` — the
  reader on a line that is accepted;
* `Declares` — the lines that are not blank, read after a problem line or before it, declare the
  contents;
* `collect_eq_ok_iff` — the reader accepts just these lines, and finds these contents;
* `read_eq_ok_iff`, `ofDimacs_eq_ok_iff` — the same of a whole text.
-/

namespace Backbone.Dimacs

/-! ### Literals of declared variables -/

theorem undeclared?_eq_none_iff {header : Header} {numbers : List Int} :
    undeclared? header numbers = none ↔
      ∀ number ∈ numbers, number.natAbs ≤ header.numVariables := by
  simp only [undeclared?, List.find?_eq_none, decide_eq_true_eq, Nat.not_lt]

/-! ### One line -/

section OneLine

variable {total number : Nat} {header? : Option Header} {line : List Char}
  {numbered : List (Nat × List Char)}

theorem collect_comment (lexed : lexLine line = .ok .comment) :
    collect total header? ((number, line) :: numbered) = collect total header? numbered := by
  rw [collect.eq_def]
  simp only [lexed]

theorem collect_name {index : Nat} {name : String} (lexed : lexLine line = .ok (.name index name)) :
    collect total header? ((number, line) :: numbered) =
      (collect total header? numbered).map fun contents =>
        { contents with names := (index, name) :: contents.names } := by
  rw [collect.eq_def]
  simp only [lexed]

theorem collect_problem {header : Header} (lexed : lexLine line = .ok (.problem header)) :
    collect total none ((number, line) :: numbered) = collect total (some header) numbered := by
  rw [collect.eq_def]
  simp only [lexed]

theorem collect_numbers {header : Header} {values : List Int}
    (lexed : lexLine line = .ok (.numbers values))
    (declared : undeclared? header values = none) :
    collect total (some header) ((number, line) :: numbered) =
      (collect total (some header) numbered).map fun contents =>
        { contents with numbers := values ++ contents.numbers } := by
  rw [collect.eq_def]
  simp only [lexed, declared]

theorem collect_stop {header : Header} (lexed : lexLine line = .ok .stop) :
    collect total (some header) ((number, line) :: numbered) = .ok { header } := by
  rw [collect.eq_def]
  simp only [lexed]

end OneLine

/-! ### Lines that follow each other -/

/-- The lines declare the contents, given the problem line before them, if there was one. -/
inductive Declares : Option Header → List (List Char) → Contents → Prop
  | finished {header : Header} : Declares (some header) [] { header }
  | stop {header : Header} {line : List Char} {rest : List (List Char)} :
      lexLine line = .ok .stop → Declares (some header) (line :: rest) { header }
  | comment {header? : Option Header} {line : List Char} {rest : List (List Char)}
      {contents : Contents} :
      lexLine line = .ok .comment → Declares header? rest contents →
      Declares header? (line :: rest) contents
  | name {header? : Option Header} {line : List Char} {rest : List (List Char)}
      {contents : Contents} {index : Nat} {name : String} :
      lexLine line = .ok (.name index name) → Declares header? rest contents →
      Declares header? (line :: rest)
        { contents with names := (index, name) :: contents.names }
  | problem {header : Header} {line : List Char} {rest : List (List Char)}
      {contents : Contents} :
      lexLine line = .ok (.problem header) → Declares (some header) rest contents →
      Declares none (line :: rest) contents
  | numbers {header : Header} {line : List Char} {rest : List (List Char)}
      {contents : Contents} {values : List Int} :
      lexLine line = .ok (.numbers values) → undeclared? header values = none →
      Declares (some header) rest contents →
      Declares (some header) (line :: rest)
        { contents with numbers := values ++ contents.numbers }

theorem except_map_eq_ok {α β : Type} {f : α → β} {result : Except Fault α} {b : β}
    (h : result.map f = .ok b) : ∃ a, result = .ok a ∧ f a = b := by
  cases result with
  | error fault => cases h
  | ok a => exact ⟨a, rfl, Except.ok.inj h⟩

theorem except_map_eq_error_iff {α β : Type} {f : α → β} {result : Except Fault α}
    {fault : Fault} : result.map f = .error fault ↔ result = .error fault := by
  cases result with
  | error other => simp only [Except.map, Except.error.injEq]
  | ok value => exact iff_of_false nofun nofun

theorem collect_of_declares {total : Nat} {header? : Option Header}
    {numbered : List (Nat × List Char)} {contents : Contents}
    (declares : Declares header? (numbered.map Prod.snd) contents) :
    collect total header? numbered = .ok contents := by
  generalize same : numbered.map Prod.snd = ls at declares
  induction declares generalizing numbered with
  | finished =>
    rw [List.map_eq_nil_iff] at same
    rw [same, collect]
  | stop lexed =>
    obtain ⟨⟨number, line⟩, rest, rfl, rfl, -⟩ := List.map_eq_cons_iff.1 same
    rw [collect_stop lexed]
  | comment lexed _ ih =>
    obtain ⟨⟨number, line⟩, rest, rfl, rfl, later⟩ := List.map_eq_cons_iff.1 same
    rw [collect_comment lexed, ih later]
  | name lexed _ ih =>
    obtain ⟨⟨number, line⟩, rest, rfl, rfl, later⟩ := List.map_eq_cons_iff.1 same
    rw [collect_name lexed, ih later]
    rfl
  | problem lexed _ ih =>
    obtain ⟨⟨number, line⟩, rest, rfl, rfl, later⟩ := List.map_eq_cons_iff.1 same
    rw [collect_problem lexed, ih later]
  | numbers lexed declared _ ih =>
    obtain ⟨⟨number, line⟩, rest, rfl, rfl, later⟩ := List.map_eq_cons_iff.1 same
    rw [collect_numbers lexed declared, ih later]
    rfl

theorem declares_of_collect {total : Nat} {header? : Option Header}
    {numbered : List (Nat × List Char)} {contents : Contents}
    (collected : collect total header? numbered = .ok contents) :
    Declares header? (numbered.map Prod.snd) contents := by
  induction numbered generalizing header? contents with
  | nil =>
    cases header? with
    | none => cases collected
    | some header =>
      cases collected
      exact .finished
  | cons entry rest ih =>
    obtain ⟨number, line⟩ := entry
    rw [collect.eq_def] at collected
    cases lexed : lexLine line with
    | error flaw =>
      simp only [lexed] at collected
      cases collected
    | ok token =>
      simp only [lexed] at collected
      cases token with
      | comment => exact .comment lexed (ih collected)
      | name index name =>
        obtain ⟨later, read, rfl⟩ := except_map_eq_ok collected
        exact .name lexed (ih read)
      | problem header =>
        cases header? with
        | none => exact .problem lexed (ih collected)
        | some _ => cases collected
      | numbers values =>
        cases header? with
        | none => cases collected
        | some header =>
          cases declared : undeclared? header values with
          | some literal =>
            simp only [declared] at collected
            cases collected
          | none =>
            simp only [declared] at collected
            obtain ⟨later, read, rfl⟩ := except_map_eq_ok collected
            exact .numbers lexed declared (ih read)
      | stop =>
        cases header? with
        | none => cases collected
        | some header =>
          cases collected
          exact .stop lexed

theorem collect_eq_ok_iff {total : Nat} {header? : Option Header}
    {numbered : List (Nat × List Char)} {contents : Contents} :
    collect total header? numbered = .ok contents ↔
      Declares header? (numbered.map Prod.snd) contents :=
  ⟨declares_of_collect, collect_of_declares⟩

/-! ### Whole texts -/

/-- The trimmed lines of a text that are not blank. -/
def contentLines (text : List Char) : List (List Char) :=
  ((Text.lines text).map Text.trim).filter fun line => !line.isEmpty

theorem map_snd_numberedLines (text : List Char) :
    (numberedLines text).map Prod.snd = contentLines text := by
  rw [numberedLines, contentLines]
  generalize (Text.lines text).map Text.trim = ls
  generalize 1 = first
  induction ls generalizing first with
  | nil => rfl
  | cons line ls ih =>
    rw [List.zipIdx_cons, List.filterMap_cons, List.filter_cons]
    cases line with
    | nil => exact ih (first + 1)
    | cons c line =>
      show _ :: _ = _ :: _
      rw [ih (first + 1)]

/-- A text is accepted just if its lines declare something, and read as what they declare. -/
theorem read_eq_ok_iff {text : List Char} {reading : Reading} :
    read text = .ok reading ↔
      ∃ contents, Declares none (contentLines text) contents ∧ contents.reading = reading := by
  rw [read, ← map_snd_numberedLines]
  constructor
  · intro accepted
    obtain ⟨contents, collected, rfl⟩ := except_map_eq_ok accepted
    exact ⟨contents, collect_eq_ok_iff.1 collected, rfl⟩
  · intro given
    obtain ⟨contents, declares, rfl⟩ := given
    rw [collect_eq_ok_iff.2 declares]
    rfl

theorem ofDimacs_eq_ok_iff {text : String} {formula : Formula} :
    Formula.ofDimacs text = .ok formula ↔
      ∃ contents, Declares none (contentLines text.toList) contents ∧
        contents.reading.formula = formula := by
  rw [Formula.ofDimacs]
  constructor
  · intro accepted
    obtain ⟨reading, readable, rfl⟩ := except_map_eq_ok accepted
    obtain ⟨contents, declares, rfl⟩ := read_eq_ok_iff.1 readable
    exact ⟨contents, declares, rfl⟩
  · intro given
    obtain ⟨contents, declares, rfl⟩ := given
    rw [read_eq_ok_iff.2 ⟨contents, declares, rfl⟩]
    rfl

end Backbone.Dimacs
