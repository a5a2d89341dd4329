import Backbone.Oracle.Basic

/-!
# Dialogues with an oracle

A `Dialogue` is an analysis that asks an oracle: it is finished, or it asks a query and goes on
with the answer, or it gives a warning and goes on.  It is data, so the same analysis is held with
any oracle, and it is a lawful monad.  `Dialogue.run` holds it and gives back the result with a
record of all queries and warnings in order; `run_bind` says that held dialogues compose, and
`run_map` that a function of the result leaves the record as it is.

An analysis that the first fault stops is an `ExceptT Fault Dialogue`.
-/

namespace Backbone

/-- An analysis that asks an oracle. -/
inductive Dialogue (α : Type) where
  /-- The analysis has its result. -/
  | done (result : α)
  /-- It asks for the core of a formula. -/
  | core (formula : Formula) (timeout : Timeout)
      (next : Except Fault (List Literal) → Dialogue α)
  /-- It asks for a solution of a formula. -/
  | solve (formula : Formula) (timeout : Timeout) (next : Except Fault Verdict → Dialogue α)
  /-- It gives a warning. -/
  | warn (warning : Warning) (next : Dialogue α)

/-- An analysis that a fault stops. -/
abbrev Analysis := ExceptT Fault Dialogue

namespace Dialogue

variable {α β : Type}

/-- Go on with the result. -/
def bind : Dialogue α → (α → Dialogue β) → Dialogue β
  | done result, next => next result
  | core formula timeout answer, next =>
    core formula timeout fun reply => (answer reply).bind next
  | solve formula timeout answer, next =>
    solve formula timeout fun reply => (answer reply).bind next
  | warn warning rest, next => warn warning (rest.bind next)

instance : Monad Dialogue where
  pure := done
  bind := bind

theorem bind_done (dialogue : Dialogue α) : dialogue.bind done = dialogue := by
  induction dialogue with
  | done result => rfl
  | core formula timeout answer ih => exact congrArg (core formula timeout) (funext ih)
  | solve formula timeout answer ih => exact congrArg (solve formula timeout) (funext ih)
  | warn warning rest ih => exact congrArg (warn warning) ih

theorem bind_bind {γ : Type} (dialogue : Dialogue α) (first : α → Dialogue β)
    (second : β → Dialogue γ) :
    (dialogue.bind first).bind second = dialogue.bind fun result => (first result).bind second := by
  induction dialogue with
  | done result => rfl
  | core formula timeout answer ih => exact congrArg (core formula timeout) (funext ih)
  | solve formula timeout answer ih => exact congrArg (solve formula timeout) (funext ih)
  | warn warning rest ih => exact congrArg (warn warning) ih

instance : LawfulMonad Dialogue :=
  LawfulMonad.mk' Dialogue bind_done (fun _ _ => rfl) bind_bind

/-! ### Holding a dialogue -/

/-- A dialogue that was held. -/
structure Run (α : Type) where
  /-- The result. -/
  result : α
  /-- The queries in the order in which they were asked. -/
  queries : List Query := []
  /-- The warnings in the order in which they were given. -/
  warnings : List Warning := []

/-- The run that begins with one more query. -/
def Run.afterQuery (run : Run α) (query : Query) : Run α :=
  { run with queries := query :: run.queries }

/-- The run that begins with one more warning. -/
def Run.afterWarning (run : Run α) (warning : Warning) : Run α :=
  { run with warnings := warning :: run.warnings }

/-- Hold a dialogue with an oracle. -/
def run {m : Type → Type} [Monad m] (oracle : Oracle m) : Dialogue α → m (Run α)
  | done result => pure { result }
  | core formula timeout next => do
    let rest ← (next (← oracle.core formula timeout)).run oracle
    pure (rest.afterQuery ⟨.core, formula, timeout⟩)
  | solve formula timeout next => do
    let rest ← (next (← oracle.solve formula timeout)).run oracle
    pure (rest.afterQuery ⟨.solve, formula, timeout⟩)
  | warn warning next => do
    let rest ← next.run oracle
    pure (rest.afterWarning warning)

/-- The run that goes on with a second run. -/
def Run.andThen (begun : Run α) (continued : Run β) : Run β where
  result := continued.result
  queries := begun.queries ++ continued.queries
  warnings := begun.warnings ++ continued.warnings

theorem Run.andThen_silent (result : α) :
    (Run.andThen { result } : Run β → Run β) = id := by
  funext continued
  simp [andThen]

/-- To go on with the result of a dialogue is to hold the one and then the other. -/
theorem run_bind {m : Type → Type} [Monad m] [LawfulMonad m] (oracle : Oracle m)
    (dialogue : Dialogue α) (next : α → Dialogue β) :
    (dialogue >>= next).run oracle =
      dialogue.run oracle >>= fun begun =>
        begun.andThen <$> (next begun.result).run oracle := by
  change (dialogue.bind next).run oracle = _
  induction dialogue with
  | done result => simp [bind, run, Run.andThen_silent]
  | core formula timeout answer ih =>
    simp [bind, run, ih, Run.andThen, Run.afterQuery]
    rfl
  | solve formula timeout answer ih =>
    simp [bind, run, ih, Run.andThen, Run.afterQuery]
    rfl
  | warn warning rest ih =>
    simp [bind, run, ih, Run.andThen, Run.afterWarning]
    rfl

/-- A function of the result changes nothing else about a run. -/
theorem run_map {m : Type → Type} [Monad m] [LawfulMonad m] (oracle : Oracle m) (f : α → β)
    (dialogue : Dialogue α) :
    (f <$> dialogue).run oracle =
      (fun run => { run with result := f run.result }) <$> dialogue.run oracle := by
  rw [← bind_pure_comp, run_bind, ← bind_pure_comp]
  refine bind_congr fun begun => ?_
  show begun.andThen <$> pure { result := f begun.result } = _
  simp [Run.andThen]

end Dialogue

/-! ### Asking -/

namespace Analysis

/-- Ask for the core of a formula. -/
def core (formula : Formula) (timeout : Timeout) : Analysis (List Literal) :=
  ExceptT.mk (.core formula timeout .done)

/-- Ask for a solution of a formula. -/
def solve (formula : Formula) (timeout : Timeout) : Analysis Verdict :=
  ExceptT.mk (.solve formula timeout .done)

/-- Give a warning. -/
def warn (warning : Warning) : Analysis Unit :=
  ExceptT.mk (.warn warning (.done (.ok ())))

end Analysis

end Backbone
