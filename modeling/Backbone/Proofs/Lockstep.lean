import Backbone.Proofs.Sparing

/-!
# Two dialogues in lockstep

Two dialogues are held side by side, each with an oracle of its own.  They are in lockstep if both
ask for the core of the same formula and then, whenever the two replies are alike, go on in
lockstep, until they end with results that belong together.  Which lists of literals are similar is
a parameter; a fault is like itself and nothing else.

* `Alike` — the same fault, or values in a relation;
* `Dialogue.Lockstep` — two dialogues that ask for nothing but cores under one time limit;
* `Dialogue.Lockstep.run` — held with oracles whose replies are alike, they ask the same, warn the
  same and end as wished;
* `Analysis.InStep` — the same of analyses, with the rules to go on: `InStep.bind`, `inStep_core`.
-/

namespace Backbone

variable {α β γ δ : Type}

/-- The same fault, or values in the relation. -/
inductive Alike (relation : α → β → Prop) : Except Fault α → Except Fault β → Prop
  | error {fault : Fault} : Alike relation (.error fault) (.error fault)
  | ok {a : α} {b : β} : relation a b → Alike relation (.ok a) (.ok b)

namespace Dialogue

variable {timeout : Timeout} {similar : List Literal → List Literal → Prop} {wish : α → β → Prop}
  {wish' : γ → δ → Prop} {dialogue : Dialogue α} {dialogue' : Dialogue β}

/-- Both dialogues ask for the same cores under the time limit, and as long as the replies are
similar they warn the same and end with results as wished. -/
inductive Lockstep (timeout : Timeout) (similar : List Literal → List Literal → Prop)
    (wish : α → β → Prop) : Dialogue α → Dialogue β → Prop
  | done {a : α} {b : β} : wish a b → Lockstep timeout similar wish (.done a) (.done b)
  | core {formula : Formula} {next : Except Fault (List Literal) → Dialogue α}
      {next' : Except Fault (List Literal) → Dialogue β} :
      (∀ reply reply', Alike similar reply reply' →
        Lockstep timeout similar wish (next reply) (next' reply')) →
      Lockstep timeout similar wish (.core formula timeout next) (.core formula timeout next')
  | warn {warning : Warning} {next : Dialogue α} {next' : Dialogue β} :
      Lockstep timeout similar wish next next' →
      Lockstep timeout similar wish (.warn warning next) (.warn warning next')

theorem Lockstep.bind {next : α → Dialogue γ} {next' : β → Dialogue δ}
    (lockstep : Lockstep timeout similar wish dialogue dialogue')
    (later : ∀ a b, wish a b → Lockstep timeout similar wish' (next a) (next' b)) :
    Lockstep timeout similar wish' (dialogue >>= next) (dialogue' >>= next') := by
  induction lockstep with
  | done wished => exact later _ _ wished
  | core _ ih => exact .core ih
  | warn _ ih => exact .warn ih

/-- The oracles have no state, so that a reply does not depend on what was asked before. -/
theorem Lockstep.run {oracle oracle' : Oracle (StateM Unit)}
    (alike : ∀ formula, Alike similar (oracle.reply ⟨.core, formula, timeout⟩)
      (oracle'.reply ⟨.core, formula, timeout⟩))
    (lockstep : Lockstep timeout similar wish dialogue dialogue') :
    let run := ((dialogue.run oracle).run ()).1
    let run' := ((dialogue'.run oracle').run ()).1
    run'.queries = run.queries ∧ run'.warnings = run.warnings ∧ wish run.result run'.result := by
  induction lockstep with
  | done wished => exact ⟨rfl, rfl, wished⟩
  | @core formula next next' _ ih =>
    obtain ⟨queries, warnings, wished⟩ := ih _ _ (alike formula)
    exact ⟨congrArg (_ :: ·) queries, warnings, wished⟩
  | warn _ ih =>
    obtain ⟨queries, warnings, wished⟩ := ih
    exact ⟨queries, congrArg (_ :: ·) warnings, wished⟩

end Dialogue

/-! ### Analyses -/

namespace Analysis

variable {timeout : Timeout} {similar : List Literal → List Literal → Prop} {wish : α → β → Prop}
  {wish' : γ → δ → Prop} {analysis : Analysis α} {analysis' : Analysis β}

/-- The analyses are in lockstep, and end with the same fault or with values as wished. -/
def InStep (timeout : Timeout) (similar : List Literal → List Literal → Prop)
    (analysis : Analysis α) (analysis' : Analysis β) (wish : α → β → Prop) : Prop :=
  Dialogue.Lockstep timeout similar (Alike wish) (ExceptT.run analysis) (ExceptT.run analysis')

theorem InStep.pure {a : α} {b : β} (wished : wish a b) :
    InStep timeout similar (return a) (return b) wish := .done (.ok wished)

/-- A fault of the first steps ends both. -/
theorem InStep.bind {next : α → Analysis γ} {next' : β → Analysis δ}
    (inStep : InStep timeout similar analysis analysis' wish)
    (later : ∀ a b, wish a b → InStep timeout similar (next a) (next' b) wish') :
    InStep timeout similar (analysis >>= next) (analysis' >>= next') wish' := by
  rw [InStep, ExceptT.run_bind, ExceptT.run_bind]
  refine Dialogue.Lockstep.bind inStep ?_
  intro first second alike
  cases alike with
  | error => exact .done .error
  | ok wished => exact later _ _ wished

theorem inStep_core (formula : Formula) :
    InStep timeout similar (core formula timeout) (core formula timeout) similar :=
  .core fun _ _ alike => .done alike

theorem inStep_warn (warning : Warning) :
    InStep timeout similar (warn warning) (warn warning) fun _ _ => True :=
  .warn (.done (.ok trivial))

end Analysis

end Backbone
