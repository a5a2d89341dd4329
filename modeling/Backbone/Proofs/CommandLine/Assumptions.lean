import Mathlib
import Backbone.CommandLine.Run
import Backbone.Proofs.Text.Numeral

/-!
# What the words of assumptions mean

A word given as an assumption denotes a variable and a sign.  What it denotes is said here by the
names and numerals alone, without reference to how words are resolved, and then compared with what
a whole command line does.  An index is an unsigned number of 64 bits and a literal a signed one,
so an index of `2 ^ 63` or more turns into a literal of another variable.

* `IsNumeral`, `Designates`, `Denotes` — what a word denotes, which is at most one thing;
* `resolveLiteral_eq_ok_iff` — a word is resolved to what it denotes, wrapped around;
* `KeepsClear` — the index does not wrap around to a variable of the formula, while every other
  one does by `declares_of_not_keepsClear`;
* `Means` — the literal of the formula that a word denotes;
* `forall₂_means_iff` — words that keep clear are resolved to what they mean;
* `analysis_of_unknown`, `analysis_of_known` — the core under assumptions, as an analysis;
* `run_core_of_allClear` — the whole command line, for words that keep clear;
* `run_core_wraps` — a word that does not.
-/

namespace Backbone

open Text

/-! ### Meanings of words -/

/-- The text is a number of 64 bits in decimal digits, which a plus sign may precede. -/
def Text.IsNumeral (text : List Char) (value : Nat) : Prop :=
  ∃ digits, (text = digits ∨ text = '+' :: digits) ∧ isDigits digits = true ∧
    digitsValue digits = value ∧ value < unsignedBound

theorem Text.readUnsigned?_eq_some_iff {text : List Char} {value : Nat} :
    readUnsigned? text = some value ↔ IsNumeral text value := by
  have signed (digits : List Char) : isDigits ('+' :: digits) = false := rfl
  unfold readUnsigned?
  split
  · rename_i digits
    rw [readDigits?_eq_some_iff]
    constructor
    · exact fun read => ⟨digits, .inr rfl, read⟩
    · rintro ⟨other, same | same, read⟩
      · rw [← same, signed] at read
        cases read.1
      · cases same
        exact read
  · rename_i noSign
    rw [readDigits?_eq_some_iff]
    constructor
    · exact fun read => ⟨text, .inl rfl, read⟩
    · rintro ⟨digits, rfl | same, read⟩
      · exact read
      · exact absurd same (noSign digits)

namespace CommandLine

variable {names : Names} {word : String} {index : Nat}

/-- The word is the name of the variable, or it is no name and the variable's number. -/
def Designates (names : Names) (word : String) (index : Nat) : Prop :=
  names.name? index = some word ∨
    (∀ other, names.name? other ≠ some word) ∧ IsNumeral word.toList index

/-- The literal with its sign kept or turned. -/
def signed (negative : Bool) (literal : Literal) : Literal :=
  if negative then -literal else literal

@[simp]
theorem signed_true (literal : Literal) : signed true literal = -literal := rfl

@[simp]
theorem signed_false (literal : Literal) : signed false literal = literal := rfl

/-- The literal of an index with its sign kept or turned, which wraps around. -/
def wrapped (negative : Bool) (index : Nat) : Literal :=
  if negative then (Literal.ofIndex index).negate else Literal.ofIndex index

@[simp]
theorem wrapped_true (index : Nat) : wrapped true index = (Literal.ofIndex index).negate :=
  if_pos rfl

@[simp]
theorem wrapped_false (index : Nat) : wrapped false index = Literal.ofIndex index :=
  if_neg Bool.false_ne_true

/-- The variable that the word denotes, and whether it is negated. -/
inductive Denotes (names : Names) (word : String) : (negative : Bool) → (index : Nat) → Prop
  /-- The whole word is a name, even if it begins with a minus sign. -/
  | name {index : Nat} : names.name? index = some word → Denotes names word false index
  /-- What follows the minus sign is a name or a numeral, but the whole word is no name. -/
  | negated {rest : List Char} {index : Nat} : (∀ other, names.name? other ≠ some word) →
      word.toList = '-' :: rest → Designates names (String.ofList rest) index →
      Denotes names word true index
  /-- The word is a numeral. -/
  | plain {index : Nat} : (∀ other, names.name? other ≠ some word) →
      (∀ rest, word.toList ≠ '-' :: rest) → Designates names word index →
      Denotes names word false index

theorem index?_eq_some_iff_name? : names.index? word = some index ↔ names.name? index = some word :=
  Names.index?_eq_some_iff.trans Names.name?_eq_some_iff.symm

theorem index?_eq_none_iff :
    names.index? word = none ↔ ∀ other, names.name? other ≠ some word := by
  simp only [Option.eq_none_iff_forall_ne_some, ne_eq, index?_eq_some_iff_name?]

theorem resolveVariable_eq_ok_iff :
    resolveVariable names word = .ok index ↔ Designates names word index := by
  have resolved : names.resolve? word = some index ↔ Designates names word index := by
    rw [Names.resolve?, Designates, Option.or_eq_some_iff, index?_eq_some_iff_name?,
      index?_eq_none_iff, readUnsigned?_eq_some_iff]
  rw [resolveVariable, ← resolved]
  cases names.resolve? word with
  | none => simp
  | some found => simp

/-- A word denotes one variable with one sign. -/
theorem Denotes.unique {negative negative' : Bool} {index' : Nat}
    (denotes : Denotes names word negative index) (denotes' : Denotes names word negative' index') :
    negative = negative' ∧ index = index' := by
  have single {word : String} {index index' : Nat} (designates : Designates names word index)
      (designates' : Designates names word index') : index = index' := by
    rw [← resolveVariable_eq_ok_iff] at designates designates'
    exact Except.ok.inj (designates.symm.trans designates')
  cases denotes with
  | name name =>
    cases denotes' with
    | name name' => exact ⟨rfl, single (.inl name) (.inl name')⟩
    | negated noName _ _ => exact absurd name (noName _)
    | plain noName _ _ => exact absurd name (noName _)
  | negated noName spelled designates =>
    cases denotes' with
    | name name => exact absurd name (noName _)
    | negated _ spelled' designates' =>
      cases spelled.symm.trans spelled'
      exact ⟨rfl, single designates designates'⟩
    | plain _ noMinus _ => exact absurd spelled (noMinus _)
  | plain noName noMinus designates =>
    cases denotes' with
    | name name => exact absurd name (noName _)
    | negated _ spelled _ => exact absurd spelled (noMinus _)
    | plain _ _ designates' => exact ⟨rfl, single designates designates'⟩

theorem resolveLiteral_eq_ok_iff {literal : Literal} :
    resolveLiteral names word = .ok literal ↔
      ∃ negative index, Denotes names word negative index ∧
        literal = wrapped negative index := by
  have resolved (rest : String) (next : Nat → Literal) :
      (resolveVariable names rest).map next = .ok literal ↔
        ∃ index, Designates names rest index ∧ literal = next index := by
    simp only [← resolveVariable_eq_ok_iff]
    cases resolveVariable names rest <;> simp [Except.map, eq_comm]
  unfold resolveLiteral
  split
  · rename_i index found
    have name := index?_eq_some_iff_name?.1 found
    constructor
    · intro same
      exact ⟨false, index, .name name, by rw [wrapped_false, Except.ok.inj same]⟩
    · rintro ⟨negative, other, denotes, same⟩
      cases denotes with
      | name name' =>
        have single := found.symm.trans (index?_eq_some_iff_name?.2 name')
        rw [same, wrapped_false, Option.some.inj single]
      | negated noName _ _ => exact absurd name (noName index)
      | plain noName _ _ => exact absurd name (noName index)
  · rename_i missing
    have noName := index?_eq_none_iff.1 missing
    split
    · rename_i rest spelled
      rw [resolved]
      constructor
      · rintro ⟨index, designates, same⟩
        exact ⟨true, index, .negated noName spelled designates, by rw [wrapped_true, same]⟩
      · rintro ⟨negative, index, denotes, same⟩
        cases denotes with
        | name name => exact absurd name (noName index)
        | @negated other _ _ spelled' designates =>
          cases spelled.symm.trans spelled'
          exact ⟨index, designates, by rw [same, wrapped_true]⟩
        | plain _ noMinus _ => exact absurd spelled (noMinus rest)
    · rename_i noMinus
      rw [resolved]
      constructor
      · rintro ⟨index, designates, same⟩
        exact ⟨false, index, .plain noName noMinus designates, by rw [wrapped_false, same]⟩
      · rintro ⟨negative, index, denotes, same⟩
        cases denotes with
        | name name => exact absurd name (noName index)
        | @negated rest _ _ spelled _ => exact absurd spelled (noMinus rest)
        | plain _ _ designates => exact ⟨index, designates, by rw [same, wrapped_false]⟩

/-! ### Indices and literals -/

theorem wrapped_of_lt (negative : Bool) (small : index < signedBound) :
    wrapped negative index = signed negative index := by
  have var : Literal.var index < signedBound := small
  rw [wrapped, signed, Literal.ofIndex_of_lt small, Literal.negate_of_lt var]

theorem var_wrapped (negative : Bool) (index : Nat) :
    (wrapped negative index).var = (Literal.ofIndex index).var := by
  cases negative with
  | false => rw [wrapped_false]
  | true =>
    have bound : (Literal.ofIndex index).var ≤ signedBound := Literal.var_wrap_le index
    rw [wrapped_true, Literal.var_negate bound]

/-- The index is not so large that it wraps around to a variable up to the limit. -/
def KeepsClear (limit index : Nat) : Prop :=
  index < signedBound ∨ index + limit < unsignedBound

/-- Every variable that one of the words denotes keeps clear of the formula's variables. -/
def AllClear (formula : Formula) (words : List String) : Prop :=
  ∀ word ∈ words, ∀ negative index, Denotes formula.names word negative index →
    KeepsClear formula.numVariables index

/-- The word denotes a variable of the formula with the sign of the literal. -/
def Means (formula : Formula) (word : String) (literal : Literal) : Prop :=
  ∃ negative index, Denotes formula.names word negative index ∧
    formula.declares index = true ∧ literal = signed negative index

variable {formula : Formula}

theorem lt_of_declares (clear : KeepsClear formula.numVariables index)
    (declared : formula.declares index = true) : index < signedBound := by
  have bounds : unsignedBound = 2 * signedBound := rfl
  have below := (Formula.declares_iff.1 declared).2
  rcases clear with small | far
  · exact small
  · omega

theorem declares_of_ofIndex (clear : KeepsClear formula.numVariables index)
    (declared : formula.declares (Literal.ofIndex index).var = true) :
    formula.declares index = true := by
  by_cases below : index < signedBound
  · rwa [Literal.var_ofIndex_of_lt below] at declared
  · have far := clear.resolve_left below
    have small : index < unsignedBound := Nat.lt_of_le_of_lt (Nat.le_add_right _ _) far
    rw [Literal.var_ofIndex_of_ge (Nat.le_of_not_lt below) small, Formula.declares_iff] at declared
    omega

/-- An index that does not keep clear is taken for a variable of the formula. -/
theorem declares_of_not_keepsClear (small : index < unsignedBound)
    (close : ¬ KeepsClear formula.numVariables index) :
    formula.declares (Literal.ofIndex index).var = true := by
  have large : signedBound ≤ index := Nat.le_of_not_lt fun below => close (.inl below)
  have near : unsignedBound ≤ index + formula.numVariables :=
    Nat.le_of_not_lt fun far => close (.inr far)
  rw [Literal.var_ofIndex_of_ge large small, Formula.declares_iff]
  omega

/-- A word that keeps clear means the literals that it is resolved to, if the formula has them. -/
theorem means_iff_resolveLiteral {literal : Literal}
    (clear : ∀ negative index, Denotes formula.names word negative index →
      KeepsClear formula.numVariables index) :
    Means formula word literal ↔
      resolveLiteral formula.names word = .ok literal ∧ formula.declares literal.var = true := by
  rw [resolveLiteral_eq_ok_iff]
  constructor
  · rintro ⟨negative, index, denotes, declared, same⟩
    have small := lt_of_declares (clear _ _ denotes) declared
    rw [← wrapped_of_lt negative small] at same
    refine ⟨⟨negative, index, denotes, same⟩, ?_⟩
    rwa [same, var_wrapped, Literal.var_ofIndex_of_lt small]
  · rintro ⟨⟨negative, index, denotes, rfl⟩, declared⟩
    rw [var_wrapped] at declared
    have within := declares_of_ofIndex (clear _ _ denotes) declared
    exact ⟨negative, index, denotes, within,
      wrapped_of_lt negative (lt_of_declares (clear _ _ denotes) within)⟩

/-! ### The task -/

theorem mapM_eq_ok_iff {ε α β : Type} {f : α → Except ε β} {members : List α} {results : List β} :
    members.mapM f = .ok results ↔
      List.Forall₂ (fun member result => f member = .ok result) members results := by
  induction members generalizing results with
  | nil => simp [pure, Except.pure, eq_comm]
  | cons head tail ih =>
    rw [List.mapM_cons, List.forall₂_cons_left_iff]
    cases headResult : f head with
    | error fault => simp [bind, Except.bind]
    | ok first =>
      cases tailResults : tail.mapM f with
      | error fault => simp [bind, Except.bind, ← ih, tailResults]
      | ok rest => simp [bind, Except.bind, pure, Except.pure, ← ih, tailResults, eq_comm]

theorem exists_of_mapM_eq_error {ε α β : Type} {f : α → Except ε β} {members : List α} {fault : ε}
    (failed : members.mapM f = .error fault) : ∃ member ∈ members, f member = .error fault := by
  induction members with
  | nil => cases failed
  | cons head tail ih =>
    rw [List.mapM_cons] at failed
    cases headResult : f head with
    | error other =>
      rw [headResult] at failed
      cases failed
      exact ⟨head, List.mem_cons_self, headResult⟩
    | ok first =>
      cases tailResults : tail.mapM f with
      | error other =>
        rw [headResult, tailResults] at failed
        cases failed
        obtain ⟨member, inTail, memberFailed⟩ := ih tailResults
        exact ⟨member, List.mem_cons_of_mem _ inTail, memberFailed⟩
      | ok rest =>
        rw [headResult, tailResults] at failed
        cases failed

theorem exists_of_resolveLiteral_eq_error {names : Names} {fault : Fault}
    (failed : resolveLiteral names word = .error fault) :
    ∃ word, fault = .unknownVariable word := by
  have refused {rest : String} {next : Nat → Literal}
      (failed : (resolveVariable names rest).map next = .error fault) :
      ∃ word, fault = .unknownVariable word := by
    unfold resolveVariable at failed
    split at failed
    · cases failed
    · cases failed
      exact ⟨rest, rfl⟩
  unfold resolveLiteral at failed
  split at failed
  · cases failed
  · split at failed
    · exact refused failed
    · exact refused failed

variable {timeout : Timeout} {words : List String} {literals : List Literal}

/-- Words that keep clear mean the literals that they are resolved to, if none is foreign. -/
theorem forall₂_means_iff (clear : AllClear formula words) :
    List.Forall₂ (Means formula) words literals ↔
      words.mapM (resolveLiteral formula.names) = .ok literals ∧
        Analysis.foreignAssumption? formula literals = none := by
  rw [mapM_eq_ok_iff, Analysis.foreignAssumption?_eq_none_iff]
  induction words generalizing literals with
  | nil =>
    constructor
    · rintro ⟨⟩
      exact ⟨.nil, List.forall_mem_nil _⟩
    · rintro ⟨⟨⟩, -⟩
      exact .nil
  | cons word words ih =>
    have tailClear : AllClear formula words :=
      fun word member => clear word (List.mem_cons_of_mem _ member)
    cases literals with
    | nil =>
      constructor
      · rintro ⟨⟩
      · rintro ⟨⟨⟩, -⟩
    | cons literal literals =>
      rw [List.forall₂_cons, List.forall₂_cons, List.forall_mem_cons,
        means_iff_resolveLiteral (clear word List.mem_cons_self), ih tailClear]
      exact and_and_and_comm

theorem analysis_of_resolved
    (resolved : words.mapM (resolveLiteral formula.names) = .ok literals) :
    (Task.core words).analysis formula timeout = (do
      let core ← Analysis.coreUnder formula literals timeout
      return .found (.ofFormula formula [core])) := by
  rw [Task.analysis, resolved]
  rfl

/-- Words that are not all literals of the formula stop the task before anything is asked. -/
theorem analysis_of_unknown (clear : AllClear formula words)
    (unknown : ∃ word ∈ words, ∀ literal, ¬ Means formula word literal) :
    ∃ word, (Task.core words).analysis formula timeout = throw (.unknownVariable word) := by
  cases resolved : words.mapM (resolveLiteral formula.names) with
  | error fault =>
    obtain ⟨refused, _, failed⟩ := exists_of_mapM_eq_error resolved
    obtain ⟨word, rfl⟩ := exists_of_resolveLiteral_eq_error failed
    exact ⟨word, by rw [Task.analysis, resolved]; rfl⟩
  | ok literals =>
    cases foreign : Analysis.foreignAssumption? formula literals with
    | some literal =>
      refine ⟨signedDecimal literal, ?_⟩
      rw [analysis_of_resolved resolved, Analysis.coreUnder, foreign]
      rfl
    | none =>
      -- every word was resolved to a literal of the formula, and so it has a meaning
      have known := (forall₂_means_iff clear).2 ⟨resolved, foreign⟩
      have meant := (List.forall₂_and_left _ _).1 (known.imp fun _ literal means =>
        And.intro (Exists.intro literal means) means)
      obtain ⟨word, member, nothing⟩ := unknown
      obtain ⟨literal, means⟩ := meant.1 word member
      exact absurd means (nothing literal)

theorem analysis_of_domestic
    (resolved : words.mapM (resolveLiteral formula.names) = .ok literals)
    (domestic : Analysis.foreignAssumption? formula literals = none) :
    (Task.core words).analysis formula timeout = (do
      let core ← Analysis.core (formula.assume literals) timeout
      return .found (.ofFormula formula [core])) := by
  rw [analysis_of_resolved resolved, Analysis.coreUnder, domestic]

/-- Words for literals of the formula lead to one query. -/
theorem analysis_of_known (clear : AllClear formula words)
    (known : List.Forall₂ (Means formula) words literals) :
    (Task.core words).analysis formula timeout = (do
      let core ← Analysis.core (formula.assume literals) timeout
      return .found (.ofFormula formula [core])) := by
  obtain ⟨resolved, domestic⟩ := (forall₂_means_iff clear).1 known
  exact analysis_of_domestic resolved domestic

/-! ### The command line -/

variable {m : Type → Type} [Monad m] [LawfulMonad m] {invocation : Invocation}
  {stopwatch : Enumeration.Stopwatch m} {launch : External.Launcher m} {files : Files}
  {stdin : String}

theorem run_of_unknown {fault : Fault}
    (read : (invocation.inputText files stdin >>= Formula.ofDimacs) = .ok formula)
    (stops : invocation.task.analysis formula (invocation.timeout * 1000) = throw fault) :
    invocation.run stopwatch launch files stdin = pure (faultEnding files fault) := by
  have asks : invocation.analysis (invocation.inputText files stdin) = throw fault := by
    rw [Invocation.analysis, read]
    change (invocation.task.analysis formula (invocation.timeout * 1000) >>= _) = _
    rw [stops]
    rfl
  rw [Invocation.run, asks]
  change (pure _ >>= _) = _
  rw [pure_bind]
  rfl

theorem run_of_known
    (read : (invocation.inputText files stdin >>= Formula.ofDimacs) = .ok formula)
    (asks : invocation.task.analysis formula (invocation.timeout * 1000) = (do
      let core ← Analysis.core (formula.assume literals) (invocation.timeout * 1000)
      return .found (.ofFormula formula [core]))) :
    invocation.run stopwatch launch files stdin = (do
      let reply ← (invocation.oracleIn stopwatch launch).core (formula.assume literals)
        (invocation.timeout * 1000)
      return invocation.conclude files (reply.map fun core =>
        (Outcome.found (.ofFormula formula [core])).render invocation.format)) := by
  rw [Invocation.run, Invocation.analysis, read]
  change Dialogue.run _ (ExceptT.run (invocation.task.analysis formula _ >>= _)) >>= _ = _
  rw [asks]
  change ((_ >>= _) >>= _) = _
  rw [bind_assoc]
  refine bind_congr fun reply => ?_
  cases reply
  all_goals
    change ((pure _ >>= _) >>= _) = _
    rw [pure_bind, pure_bind]
    rfl

/-- The core under words that keep clear: a word without a meaning in the formula ends the command
line with a fault in every monad, so that neither clock nor program is used; otherwise one query
is made, about the formula with the meanings as unit clauses. -/
theorem run_core_of_allClear {arguments : List String} {environment : Environment}
    (accepted : readWords arguments environment = .ok invocation)
    (task : invocation.task = .core words)
    (read : (invocation.inputText files stdin >>= Formula.ofDimacs) = .ok formula)
    (clear : AllClear formula words) :
    ((∃ word ∈ words, ∀ literal, ¬ Means formula word literal) →
      ∃ word, run arguments environment stopwatch launch files stdin =
        pure (faultEnding files (.unknownVariable word))) ∧
    ∀ literals, List.Forall₂ (Means formula) words literals →
      run arguments environment stopwatch launch files stdin = (do
        let reply ← (invocation.oracleIn stopwatch launch).core (formula.assume literals)
          (invocation.timeout * 1000)
        return invocation.conclude files (reply.map fun core =>
          (Outcome.found (.ofFormula formula [core])).render invocation.format)) := by
  have begun : run arguments environment stopwatch launch files stdin =
      invocation.run stopwatch launch files stdin := by
    rw [run, accepted]
  rw [begun]
  constructor
  · intro unknown
    obtain ⟨word, stops⟩ := analysis_of_unknown clear unknown
    exact ⟨word, run_of_unknown read (task ▸ stops)⟩
  · intro literals known
    exact run_of_known read (task ▸ analysis_of_known clear known)

/-- No program is found. -/
def noPrograms : External.Launcher Id := fun _ => .error (.notStarted .missing)

/-- The ending of a command line that runs among no files, starts no program and has time. -/
def ending (arguments : List String) (stdin : String) : Ending :=
  run (m := Id) arguments {} (fun _ _ => false) noPrograms {} stdin

/-- A text in which a name begins with a minus sign, and is that of another variable without it. -/
def minusText : String := "c 1 -x\nc 2 x\np cnf 3 1\n1 3 0\n"

theorem run_core_of_allClear_minusText :
    ending ["--oracle", "enumeration", "core", "-a", "-x", "x", "-+3"] minusText =
      { status := 0, stdout := "-x x -3\n", files := {} } ∧
    ∃ word, ending ["core", "-a", "x", "18446744073709551612"] minusText =
      faultEnding {} (.unknownVariable word) := by
  let formula : Formula := ⟨3, [[1, 3]], .ofList [(1, "-x"), (2, "x")]⟩
  have read : Formula.ofDimacs minusText = .ok formula := by cbv
  have first : Denotes formula.names "-x" false 1 := .name (by cbv)
  have second : Denotes formula.names "x" false 2 := .name (by cbv)
  have third : Denotes formula.names "-+3" true 3 :=
    .negated (index?_eq_none_iff.1 (by cbv)) (by rfl) (resolveVariable_eq_ok_iff.1 (by cbv))
  have large : Denotes formula.names "18446744073709551612" false 18446744073709551612 :=
    .plain (index?_eq_none_iff.1 (by cbv)) (by rintro rest ⟨⟩)
      (resolveVariable_eq_ok_iff.1 (by cbv))
  have clear {word : String} {negative : Bool} {index : Nat}
      (denotes : Denotes formula.names word negative index) (apart : KeepsClear 3 index) :
      ∀ negative index, Denotes formula.names word negative index → KeepsClear 3 index :=
    fun _ _ denotes' => (denotes.unique denotes').2 ▸ apart
  have small {index : Nat} (below : index ≤ 3) : KeepsClear 3 index :=
    .inl (Nat.lt_of_le_of_lt below (by decide))
  have firstClear := clear first (small (by decide))
  have secondClear := clear second (small (by decide))
  have thirdClear := clear third (small (by decide))
  have largeClear := clear large (.inr (by decide))
  constructor
  · have accepted : readWords ["--oracle", "enumeration", "core", "-a", "-x", "x", "-+3"] {} =
        .ok { task := .core ["-x", "x", "-+3"], oracle := .enumeration } := by rfl
    refine ((run_core_of_allClear accepted rfl read ?_).2 [1, 2, -3] ?_).trans ?_
    · exact List.forall_mem_cons.2 ⟨firstClear,
        List.forall_mem_cons.2 ⟨secondClear, List.forall_mem_singleton.2 thirdClear⟩⟩
    · exact .cons ⟨_, _, first, rfl, rfl⟩
        (.cons ⟨_, _, second, rfl, rfl⟩ (.cons ⟨_, _, third, rfl, rfl⟩ .nil))
    · cbv
  · have accepted : readWords ["core", "-a", "x", "18446744073709551612"] {} =
        .ok { task := .core ["x", "18446744073709551612"] } := by rfl
    refine (run_core_of_allClear accepted rfl read ?_).1 ⟨_, .tail _ (.head _), ?_⟩
    · exact List.forall_mem_cons.2 ⟨secondClear, List.forall_mem_singleton.2 largeClear⟩
    · rintro literal ⟨negative, index, denotes, declared, -⟩
      obtain ⟨-, rfl⟩ := large.unique denotes
      cases declared

/-- The largest index is no variable of the formula, but it is taken for a negated variable. -/
theorem run_core_wraps :
    Formula.ofDimacs "p cnf 1 0\n" = .ok ⟨1, [], .empty⟩ ∧
    (∀ literal, ¬ Means ⟨1, [], .empty⟩ "18446744073709551615" literal) ∧
    ending ["--oracle", "enumeration", "core", "-a", "18446744073709551615"] "p cnf 1 0\n" =
      { status := 0, stdout := "-1\n", files := {} } := by
  let formula : Formula := ⟨1, [], .empty⟩
  have read : Formula.ofDimacs "p cnf 1 0\n" = .ok formula := by cbv
  have largest : Denotes formula.names "18446744073709551615" false 18446744073709551615 :=
    .plain (index?_eq_none_iff.1 rfl) (by rintro rest ⟨⟩) (resolveVariable_eq_ok_iff.1 (by cbv))
  refine ⟨read, ?_, ?_⟩
  · rintro literal ⟨negative, index, denotes, declared, -⟩
    obtain ⟨-, rfl⟩ := largest.unique denotes
    cases declared
  · let invocation : Invocation :=
      { task := .core ["18446744073709551615"], oracle := .enumeration }
    have accepted :
        readWords ["--oracle", "enumeration", "core", "-a", "18446744073709551615"] {} =
          .ok invocation := by rfl
    have opened : (invocation.inputText {} "p cnf 1 0\n" >>= Formula.ofDimacs) = .ok formula := read
    have resolved : ["18446744073709551615"].mapM (resolveLiteral formula.names) = .ok [-1] := by
      cbv
    have asks : invocation.task.analysis formula (invocation.timeout * 1000) = (do
        let core ← Analysis.core (formula.assume [-1]) (invocation.timeout * 1000)
        return .found (.ofFormula formula [core])) :=
      analysis_of_domestic resolved rfl
    rw [ending, run, accepted]
    refine (run_of_known opened asks).trans ?_
    cbv

end CommandLine

end Backbone
