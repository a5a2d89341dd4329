import Backbone.Proofs.Dimacs.Grammar
import Backbone.Proofs.Dimacs.Lexing

/-!
# The formula of the lexed lines

A text is accepted if its lines are lexed as tokens that describe a formula: one problem line, no
numbers before it, no literal above what it declares.  The formula is put together from all tokens
at once, and nothing is left of the order in which the reader meets them.

* `linesRead`, `linesRead_eq` — the lines before the mark that ends a text, counted from one, are
  those that the reader meets;
* `IsSplit`, `eq_clausesOf_iff` — the clauses that a list of numbers falls into;
* `Headed`, `Coherent`, `gathered` — the problem line among the tokens, what holds of the numbers
  of all of them, and the contents put together from them;
* `Describes`, `describes_iff`, `ofDimacs_eq_ok_iff_describes` — the formula that the tokens
  describe is the one that is read.
-/

namespace Backbone.Dimacs

variable {header? : Option Header} {line : List Char} {ls : List (List Char)} {token : Line}
  {tokens : List Line}

/-! ### Lines before the end mark -/

/-- Whether the line is not the mark that ends the text. -/
def goesOn (line : List Char) : Bool := line.head? != some '%'

/-- The lines that are not blank and stand before the end mark, trimmed, each with its number if
they are counted from the first one on. -/
def readFrom (first : Nat) : List (List Char) → List (Nat × List Char)
  | [] => []
  | line :: later =>
    if Text.trim line = [] then readFrom (first + 1) later
    else if goesOn (Text.trim line) then (first, Text.trim line) :: readFrom (first + 1) later
    else []

/-- The lines of a text that are not blank and stand before the end mark. -/
def linesRead (text : List Char) : List (Nat × List Char) := readFrom 1 (Text.lines text)

/-- The reader meets just these lines before it stops. -/
theorem linesRead_eq (text : List Char) :
    linesRead text = (numberedLines text).takeWhile fun entry => goesOn entry.2 := by
  rw [linesRead, numberedLines]
  generalize Text.lines text = ls
  generalize 1 = first
  induction ls generalizing first with
  | nil => rfl
  | cons line later ih =>
    rw [readFrom, List.map_cons, List.zipIdx_cons, List.filterMap_cons]
    cases Text.trim line with
    | nil => exact ih (first + 1)
    | cons c rest =>
      show (if goesOn (c :: rest) then _ else _) = List.takeWhile _ ((first, c :: rest) :: _)
      rw [List.takeWhile_cons, ih (first + 1)]

theorem goesOn_iff : goesOn line = true ↔ lexLine line ≠ .ok .stop := by
  rw [goesOn, bne_iff_ne, Ne, Ne, lexLine_eq_stop_iff]

theorem goesOn_eq_false_iff : goesOn line = false ↔ lexLine line = .ok .stop := by
  rw [← Bool.not_eq_true, goesOn_iff, Ne, Classical.not_not]

theorem goesOn_of_lexLine (lexed : lexLine line = .ok token) (going : token ≠ .stop) :
    goesOn line = true := by
  rw [goesOn_iff, lexed]
  intro same
  exact going (Except.ok.inj same)

theorem map_snd_linesRead (text : List Char) :
    (linesRead text).map Prod.snd = (contentLines text).takeWhile goesOn := by
  rw [linesRead_eq, ← map_snd_numberedLines, List.takeWhile_map]
  rfl

/-! ### Clauses of a list of numbers -/

/-- The numbers are the clauses one after the other with a zero behind each, except that none needs
to stand behind a last clause that is not empty. -/
def IsSplit (numbers : List Int) (clauses : List Clause) : Prop :=
  ∃ closed rest, numbers = (closed.flatMap fun clause => clause ++ [0]) ++ rest ∧
    (∀ clause ∈ closed, 0 ∉ clause) ∧ 0 ∉ rest ∧
    clauses = closed ++ if rest = [] then [] else [rest]

theorem clausesOf_of_splitOn {numbers : List Int} {closed : List Clause} {rest : Clause}
    (pieces : numbers.splitOn 0 = closed ++ [rest]) :
    clausesOf numbers = closed ++ if rest = [] then [] else [rest] := by
  rw [clausesOf, splitClauses, pieces, List.dropLast_concat, List.getLast?_concat, Option.getD_some]
  show (if rest = [] then closed else closed ++ [rest]) = _
  split
  · exact (List.append_nil closed).symm
  · rfl

theorem eq_clausesOf_iff {numbers : List Int} {clauses : List Clause} :
    clauses = clausesOf numbers ↔ IsSplit numbers clauses := by
  constructor
  · intro same
    obtain ⟨closed, rest, pieces⟩ : ∃ closed rest, numbers.splitOn 0 = closed ++ [rest] :=
      ⟨_, _, (List.dropLast_concat_getLast (List.splitOn_ne_nil 0 numbers)).symm⟩
    have clean : ∀ piece ∈ closed ++ [rest], (0 : Int) ∉ piece := by
      intro piece member
      exact Text.not_mem_of_mem_splitOn (pieces ▸ member)
    rw [List.forall_mem_append, List.forall_mem_singleton] at clean
    refine ⟨closed, rest, ?_, clean.1, clean.2, same.trans (clausesOf_of_splitOn pieces)⟩
    rw [Text.flatMap_append_eq_intercalate, ← pieces, List.intercalate_splitOn]
  · intro split
    obtain ⟨closed, rest, rfl, clean, cleanRest, rfl⟩ := split
    exact (clausesOf_of_splitOn (Text.splitOn_flatMap_append clean cleanRest)).symm

example : clausesOf [1, 2, 0, 0, -1] = [[1, 2], [], [-1]] := by decide

/-! ### Tokens -/

/-- The numbers on a line. -/
def Line.values : Line → List Int
  | .numbers values => values
  | _ => []

/-- The name on a line, with the variable that it is for. -/
def Line.naming : Line → List (Nat × String)
  | .name index given => [(index, given)]
  | _ => []

/-- The header is the one of the only problem line, which was read before the tokens or is one of
them, and no numbers stand before it. -/
def Headed (header : Header) : Option Header → List Line → Prop
  | some given, tokens => header = given ∧ ∀ other, .problem other ∉ tokens
  | none, tokens => ∃ front back, tokens = front ++ .problem header :: back ∧
      (∀ other, .problem other ∉ front ++ back) ∧ ∀ values, .numbers values ∉ front

/-- The tokens have one problem line, none of their numbers stands before it, and it declares all
their literals. -/
structure Coherent (header : Header) (header? : Option Header) (tokens : List Line) : Prop where
  headed : Headed header header? tokens
  within : ∀ number ∈ tokens.flatMap Line.values, number.natAbs ≤ header.numVariables

/-- What is on the tokens, in order. -/
def gathered (header : Header) (tokens : List Line) : Contents where
  header
  numbers := tokens.flatMap Line.values
  names := tokens.flatMap Line.naming

theorem headed_cons {header : Header} (notProblem : ∀ other, token ≠ .problem other)
    (notNumbers : header? = none → ∀ values, token ≠ .numbers values) :
    Headed header header? (token :: tokens) ↔ Headed header header? tokens := by
  cases header? with
  | some given =>
    have skip (other : Header) : .problem other ∉ token :: tokens ↔ .problem other ∉ tokens := by
      rw [List.mem_cons, not_or]
      exact and_iff_right (notProblem other).symm
    simp only [Headed, skip]
  | none =>
    constructor
    · intro headed
      obtain ⟨front, back, same, single, clear⟩ := headed
      cases front with
      | nil =>
        -- the token would be the problem line
        cases same
        exact absurd rfl (notProblem header)
      | cons first front =>
        cases same
        refine ⟨front, back, rfl, ?_, ?_⟩
        · exact fun other member => single other (List.mem_cons_of_mem _ member)
        · exact fun values member => clear values (List.mem_cons_of_mem _ member)
    · intro headed
      obtain ⟨front, back, rfl, single, clear⟩ := headed
      refine ⟨token :: front, back, rfl, ?_, ?_⟩
      · intro other
        exact List.not_mem_cons_of_ne_of_not_mem (notProblem other).symm (single other)
      · intro values
        exact List.not_mem_cons_of_ne_of_not_mem (notNumbers rfl values).symm (clear values)

theorem headed_problem {header given : Header} :
    Headed header none (.problem given :: tokens) ↔ Headed header (some given) tokens := by
  constructor
  · intro headed
    obtain ⟨front, back, same, single, -⟩ := headed
    cases front with
    | nil =>
      cases same
      exact ⟨rfl, single⟩
    | cons first front =>
      -- there would be a second problem line
      cases same
      exact absurd List.mem_cons_self (single given)
  · intro headed
    obtain ⟨rfl, single⟩ := headed
    exact ⟨[], tokens, rfl, single, fun _ => List.not_mem_nil⟩

theorem not_headed_numbers {header : Header} {values : List Int} :
    ¬ Headed header none (.numbers values :: tokens) := by
  intro headed
  obtain ⟨front, back, same, -, clear⟩ := headed
  cases front with
  | nil => cases same
  | cons first front =>
    cases same
    exact clear values List.mem_cons_self

theorem coherent_nil {header : Header} : Coherent header header? [] ↔ header? = some header := by
  constructor
  · intro coherent
    cases header? with
    | some given => rw [coherent.headed.1]
    | none =>
      obtain ⟨front, back, same, -⟩ := coherent.headed
      exact absurd same.symm (List.append_ne_nil_of_right_ne_nil front (List.cons_ne_nil _ back))
  · intro same
    rw [same]
    exact ⟨⟨rfl, fun _ => List.not_mem_nil⟩, fun _ member => absurd member List.not_mem_nil⟩

/-- Comments do not matter. -/
theorem coherent_cons {header : Header} (notProblem : ∀ other, token ≠ .problem other)
    (notNumbers : ∀ values, token ≠ .numbers values) :
    Coherent header header? (token :: tokens) ↔ Coherent header header? tokens := by
  have same : (token :: tokens).flatMap Line.values = tokens.flatMap Line.values := by
    rw [List.flatMap_cons, Line.values.eq_2 token notNumbers, List.nil_append]
  constructor
  · intro coherent
    exact ⟨(headed_cons notProblem fun _ => notNumbers).1 coherent.headed, same ▸ coherent.within⟩
  · intro coherent
    exact ⟨(headed_cons notProblem fun _ => notNumbers).2 coherent.headed, same ▸ coherent.within⟩

theorem coherent_problem {header given : Header} :
    Coherent header header? (.problem given :: tokens) ↔
      header? = none ∧ Coherent header (some given) tokens := by
  constructor
  · intro coherent
    cases header? with
    | some known => exact absurd List.mem_cons_self (coherent.headed.2 given)
    | none => exact ⟨rfl, headed_problem.1 coherent.headed, coherent.within⟩
  · intro coherent
    obtain ⟨rfl, coherent⟩ := coherent
    exact ⟨headed_problem.2 coherent.headed, coherent.within⟩

theorem coherent_numbers {header : Header} {values : List Int} :
    Coherent header header? (.numbers values :: tokens) ↔
      header? = some header ∧ undeclared? header values = none ∧
        Coherent header (some header) tokens := by
  rw [undeclared?_eq_none_iff]
  constructor
  · intro coherent
    obtain ⟨headed, within⟩ := coherent
    rw [List.flatMap_cons, List.forall_mem_append] at within
    cases header? with
    | none => exact absurd headed not_headed_numbers
    | some given =>
      obtain rfl := headed.1
      exact ⟨rfl, within.1, (headed_cons (by nofun) (by nofun)).1 headed, within.2⟩
  · intro coherent
    obtain ⟨rfl, first, headed, within⟩ := coherent
    refine ⟨(headed_cons (by nofun) (by nofun)).2 headed, ?_⟩
    rw [List.flatMap_cons, List.forall_mem_append]
    exact ⟨first, within⟩

/-! ### Tokens of the lines -/

/-- The lines before the end mark are lexed as the tokens, with nothing left of any line. -/
def LexedAs (ls : List (List Char)) (tokens : List Line) : Prop :=
  (ls.takeWhile goesOn).map Line.lex = tokens.map fun token => some (token, [])

theorem lexedAs_nil : LexedAs [] tokens ↔ tokens = [] := by
  rw [LexedAs, List.takeWhile_nil, List.map_nil, eq_comm, List.map_eq_nil_iff]

theorem lexedAs_mark (ends : goesOn line = false) : LexedAs (line :: ls) tokens ↔ tokens = [] := by
  rw [LexedAs, List.takeWhile_cons, ends, if_neg Bool.false_ne_true, List.map_nil, eq_comm,
    List.map_eq_nil_iff]

theorem lexedAs_cons (goes : goesOn line = true) :
    LexedAs (line :: ls) tokens ↔
      ∃ first rest, tokens = first :: rest ∧ lexLine line = .ok first ∧ LexedAs ls rest := by
  rw [LexedAs, List.takeWhile_cons, if_pos goes, List.map_cons, eq_comm, List.map_eq_cons_iff]
  simp only [lexLine_eq_ok_iff]
  constructor
  · intro lexed
    obtain ⟨first, rest, rfl, same, later⟩ := lexed
    exact ⟨first, rest, rfl, same.symm, later.symm⟩
  · intro lexed
    obtain ⟨first, rest, rfl, same, later⟩ := lexed
    exact ⟨first, rest, rfl, same.symm, later.symm⟩

theorem LexedAs.cons (lexed : lexLine line = .ok token) (going : token ≠ .stop)
    (later : LexedAs ls tokens) : LexedAs (line :: ls) (token :: tokens) :=
  (lexedAs_cons (goesOn_of_lexLine lexed going)).2 ⟨token, tokens, rfl, lexed, later⟩

theorem coherent_of_declares {contents : Contents} (declares : Declares header? ls contents) :
    ∃ tokens, LexedAs ls tokens ∧ Coherent contents.header header? tokens ∧
      contents = gathered contents.header tokens := by
  induction declares with
  | finished => exact ⟨[], lexedAs_nil.2 rfl, coherent_nil.2 rfl, rfl⟩
  | stop lexed =>
    exact ⟨[], (lexedAs_mark (goesOn_eq_false_iff.2 lexed)).2 rfl, coherent_nil.2 rfl, rfl⟩
  | comment lexed _ ih =>
    obtain ⟨tokens, later, coherent, same⟩ := ih
    exact ⟨.comment :: tokens, later.cons lexed (by nofun),
      (coherent_cons (by nofun) (by nofun)).2 coherent, same⟩
  | @name header? line rest contents index given lexed _ ih =>
    obtain ⟨tokens, later, coherent, same⟩ := ih
    refine ⟨.name index given :: tokens, later.cons lexed (by nofun),
      (coherent_cons (by nofun) (by nofun)).2 coherent, ?_⟩
    rw [same]
    rfl
  | @problem header line rest contents lexed _ ih =>
    obtain ⟨tokens, later, coherent, same⟩ := ih
    exact ⟨.problem header :: tokens, later.cons lexed (by nofun),
      coherent_problem.2 ⟨rfl, coherent⟩, same⟩
  | @numbers header line rest contents values lexed declared _ ih =>
    obtain ⟨tokens, later, coherent, same⟩ := ih
    obtain rfl := coherent.headed.1
    refine ⟨.numbers values :: tokens, later.cons lexed (by nofun),
      coherent_numbers.2 ⟨rfl, declared, coherent⟩, ?_⟩
    rw [same]
    rfl

theorem declares_of_coherent {header : Header} (lexed : LexedAs ls tokens)
    (coherent : Coherent header header? tokens) :
    Declares header? ls (gathered header tokens) := by
  induction ls generalizing header? tokens with
  | nil =>
    obtain rfl := lexedAs_nil.1 lexed
    rw [coherent_nil.1 coherent]
    exact .finished
  | cons line ls ih =>
    cases goes : goesOn line with
    | false =>
      obtain rfl := (lexedAs_mark goes).1 lexed
      rw [coherent_nil.1 coherent]
      exact .stop (goesOn_eq_false_iff.1 goes)
    | true =>
      obtain ⟨first, rest, rfl, this, later⟩ := (lexedAs_cons goes).1 lexed
      cases first with
      | comment =>
        rw [coherent_cons (by nofun) (by nofun)] at coherent
        have declares := ih later coherent
        exact .comment this declares
      | name index given =>
        rw [coherent_cons (by nofun) (by nofun)] at coherent
        have declares := ih later coherent
        exact .name this declares
      | problem given =>
        obtain ⟨rfl, after⟩ := coherent_problem.1 coherent
        have declares := ih later after
        exact .problem this declares
      | numbers values =>
        obtain ⟨rfl, declared, after⟩ := coherent_numbers.1 coherent
        have declares := ih later after
        exact .numbers this declared declares
      | stop => exact absurd this (goesOn_iff.1 goes)

/-! ### The formula of a text -/

/-- The formula is what the tokens say, all taken together. -/
structure Describes (tokens : List Line) (formula : Formula) : Prop where
  /-- The one problem line declares the variables, and no numbers stand before it. -/
  headed : ∃ header, Headed header none tokens ∧ formula.numVariables = header.numVariables
  /-- Every literal is one of a declared variable. -/
  within : ∀ number ∈ tokens.flatMap Line.values, number.natAbs ≤ formula.numVariables
  /-- The numbers of all tokens fall into the clauses. -/
  clauses : IsSplit (tokens.flatMap Line.values) formula.clauses
  /-- The names of declared variables are given in turn. -/
  names : formula.names =
    .ofList ((tokens.flatMap Line.naming).filter fun entry => formula.declares entry.1)

theorem formula_reading (contents : Contents) :
    contents.reading.formula = ⟨contents.header.numVariables, clausesOf contents.numbers,
      .ofList (contents.names.filter fun entry => contents.header.declares entry.1)⟩ := by
  simp only [Contents.reading, List.partition_eq_filter_filter]

theorem describes_iff {formula : Formula} :
    Describes tokens formula ↔ ∃ header, Coherent header none tokens ∧
      (gathered header tokens).reading.formula = formula := by
  simp only [formula_reading]
  constructor
  · intro describes
    obtain ⟨numVariables, clauses, names⟩ := formula
    obtain ⟨⟨header, headed, same⟩, within, split, named⟩ := describes
    cases same
    refine ⟨header, ⟨headed, within⟩, ?_⟩
    rw [Formula.mk.injEq]
    exact ⟨rfl, (eq_clausesOf_iff.2 split).symm, named.symm⟩
  · intro given
    obtain ⟨header, coherent, rfl⟩ := given
    exact ⟨⟨header, coherent.headed, rfl⟩, coherent.within, eq_clausesOf_iff.1 rfl, rfl⟩

/-- A text is accepted just if the lines before the end mark are lexed as tokens that describe a
formula, which is then the formula of the text. -/
theorem ofDimacs_eq_ok_iff_describes {text : String} {formula : Formula} :
    Formula.ofDimacs text = .ok formula ↔
      ∃ tokens, (linesRead text.toList).map (fun entry => Line.lex entry.2) =
          tokens.map (fun token => some (token, [])) ∧
        Describes tokens formula := by
  have lexed (tokens : List Line) : LexedAs (contentLines text.toList) tokens ↔
      (linesRead text.toList).map (fun entry => Line.lex entry.2) =
        tokens.map fun token => some (token, []) := by
    rw [LexedAs, ← map_snd_linesRead, List.map_map]
    rfl
  rw [ofDimacs_eq_ok_iff]
  constructor
  · intro accepted
    obtain ⟨contents, declares, same⟩ := accepted
    obtain ⟨tokens, lexedAs, coherent, gathers⟩ := coherent_of_declares declares
    rw [gathers] at same
    exact ⟨tokens, (lexed tokens).1 lexedAs, describes_iff.2 ⟨contents.header, coherent, same⟩⟩
  · intro described
    obtain ⟨tokens, lexedAs, describes⟩ := described
    obtain ⟨header, coherent, same⟩ := describes_iff.1 describes
    exact ⟨_, declares_of_coherent ((lexed tokens).2 lexedAs) coherent, same⟩

end Backbone.Dimacs
