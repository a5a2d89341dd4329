import Backbone.Oracle.Dialogue
import Backbone.Semantics

/-!
# What a dialogue makes sure of

A `Contract` fixes the queries that may be asked and the replies that may come back.  A dialogue
meets it, with a wish for the result, if for all replies that the contract permits every query is
one that may be asked and the result is as wished.  Nothing is said about where the replies come
from, so the same reply may be right one time and wrong the next.

* `Dialogue.Meets` — the dialogue meets the contract, with a wish for the result;
* `meets_bind`, `Analysis.meets_bind` — to meet a contract one step after the other;
* `Oracle.Keeps` — an oracle with a state gives permitted replies, whatever its state;
* `Dialogue.held_bind` — held with a state, one dialogue goes on where the other ended;
* `Analysis.held`, `Analysis.answer` — the run with an oracle in a state, and the result alone with
  an oracle without effects;
* `Analysis.held_bind_congr` — what comes next matters only for the value that is found;
* `Analysis.held_of_meets` — held with such an oracle, an analysis that meets the contract asks
  only what it may and has a result as wished;
* `Formula.IsCoreReply` — a reply that tells the whole truth about the core of a formula.
-/

namespace Backbone

variable {α β σ : Type}

/-- The queries that may be asked and the replies that may come back. -/
structure Contract where
  /-- The queries that may be asked. -/
  asks : Query → Prop
  /-- The replies to a query for the core of a formula. -/
  core : Formula → Except Fault (List Literal) → Prop
  /-- The replies to a query for a solution of a formula. -/
  solve : Formula → Except Fault Verdict → Prop

namespace Dialogue

/-- Whatever permitted replies come back, the dialogue asks only what it may and its result is as
wished. -/
def Meets (contract : Contract) : Dialogue α → (α → Prop) → Prop
  | done result, wish => wish result
  | core formula timeout next, wish =>
    contract.asks ⟨.core, formula, timeout⟩ ∧
      ∀ reply, contract.core formula reply → (next reply).Meets contract wish
  | solve formula timeout next, wish =>
    contract.asks ⟨.solve, formula, timeout⟩ ∧
      ∀ reply, contract.solve formula reply → (next reply).Meets contract wish
  | warn _ next, wish => next.Meets contract wish

theorem meets_bind (contract : Contract) (dialogue : Dialogue α) (next : α → Dialogue β)
    (wish : β → Prop) :
    (dialogue >>= next).Meets contract wish ↔
      dialogue.Meets contract fun result => (next result).Meets contract wish := by
  show (dialogue.bind next).Meets contract wish ↔ _
  induction dialogue with
  | done result => rfl
  | core formula timeout answer ih => simp only [bind, Meets, ih]
  | solve formula timeout answer ih => simp only [bind, Meets, ih]
  | warn warning rest ih => simp only [bind, Meets, ih]

theorem Meets.mono {contract : Contract} {dialogue : Dialogue α} {wish weaker : α → Prop}
    (meets : dialogue.Meets contract wish) (imp : ∀ result, wish result → weaker result) :
    dialogue.Meets contract weaker := by
  induction dialogue with
  | done result => exact imp result meets
  | core formula timeout answer ih =>
    obtain ⟨asked, later⟩ := meets
    exact ⟨asked, fun reply permitted => ih reply (later reply permitted)⟩
  | solve formula timeout answer ih =>
    obtain ⟨asked, later⟩ := meets
    exact ⟨asked, fun reply permitted => ih reply (later reply permitted)⟩
  | warn warning rest ih => exact ih meets

theorem meets_congr {contract : Contract} {dialogue : Dialogue α} {wish wish' : α → Prop}
    (same : ∀ result, wish result ↔ wish' result) :
    dialogue.Meets contract wish ↔ dialogue.Meets contract wish' :=
  ⟨fun meets => meets.mono fun result => (same result).1,
    fun meets => meets.mono fun result => (same result).2⟩

end Dialogue

/-! ### Oracles with a state -/

/-- Whatever its state, the oracle gives permitted replies to the queries that may be asked. -/
structure Oracle.Keeps (oracle : Oracle (StateM σ)) (contract : Contract) : Prop where
  /-- The replies to queries for a core are permitted. -/
  core : ∀ formula timeout state, contract.asks ⟨.core, formula, timeout⟩ →
    contract.core formula ((oracle.core formula timeout).run state).1
  /-- The replies to queries for a solution are permitted. -/
  solve : ∀ formula timeout state, contract.asks ⟨.solve, formula, timeout⟩ →
    contract.solve formula ((oracle.solve formula timeout).run state).1

namespace Dialogue

@[simp]
theorem held_pure (oracle : Oracle (StateM σ)) (value : α) (state : σ) :
    ((pure value : Dialogue α).run oracle).run state = ({ result := value }, state) := rfl

/-- First the one dialogue is held and then, from the state that it leaves, the other. -/
theorem held_bind (oracle : Oracle (StateM σ)) (dialogue : Dialogue α) (next : α → Dialogue β)
    (state : σ) :
    ((dialogue >>= next).run oracle).run state =
      let begun := (dialogue.run oracle).run state
      let continued := ((next begun.1.result).run oracle).run begun.2
      (begun.1.andThen continued.1, continued.2) := by
  rw [run_bind]
  rfl

end Dialogue

theorem Dialogue.run_of_meets {oracle : Oracle (StateM σ)} {contract : Contract}
    (keeps : oracle.Keeps contract) {dialogue : Dialogue α} {wish : α → Prop}
    (meets : dialogue.Meets contract wish) (state : σ) :
    wish ((dialogue.run oracle).run state).1.result ∧
      ∀ query ∈ ((dialogue.run oracle).run state).1.queries, contract.asks query := by
  induction dialogue generalizing state with
  | done result =>
    refine ⟨meets, ?_⟩
    intro query member
    cases member
  | core formula timeout answer ih =>
    obtain ⟨asked, later⟩ := meets
    obtain ⟨result, queries⟩ :=
      ih _ (later _ (keeps.core formula timeout state asked))
        ((oracle.core formula timeout).run state).2
    refine ⟨result, ?_⟩
    intro query member
    rcases List.mem_cons.1 member with rfl | member
    · exact asked
    · exact queries query member
  | solve formula timeout answer ih =>
    obtain ⟨asked, later⟩ := meets
    obtain ⟨result, queries⟩ :=
      ih _ (later _ (keeps.solve formula timeout state asked))
        ((oracle.solve formula timeout).run state).2
    refine ⟨result, ?_⟩
    intro query member
    rcases List.mem_cons.1 member with rfl | member
    · exact asked
    · exact queries query member
  | warn warning rest ih => exact ih meets state

/-! ### Analyses -/

namespace Analysis

/-- The run of an analysis that is held with an oracle in the given state. -/
def held (analysis : Analysis α) (oracle : Oracle (StateM σ)) (state : σ) :
    Dialogue.Run (Except Fault α) :=
  ((Dialogue.run oracle (ExceptT.run analysis)).run state).1

/-- The result of an analysis that is held with an oracle without effects. -/
def answer (analysis : Analysis α) (oracle : Oracle Id) : Except Fault α :=
  (Id.run (Dialogue.run oracle (ExceptT.run analysis))).result

theorem held_map (f : α → β) (analysis : Analysis α) (oracle : Oracle (StateM σ)) (state : σ) :
    (f <$> analysis).held oracle state =
      { analysis.held oracle state with
        result := (analysis.held oracle state).result.map f } := by
  rw [held, ExceptT.run_map, Dialogue.run_map]
  rfl

theorem answer_map (f : α → β) (analysis : Analysis α) (oracle : Oracle Id) :
    (f <$> analysis).answer oracle = (analysis.answer oracle).map f := by
  rw [answer, ExceptT.run_map, Dialogue.run_map]
  rfl

theorem meets_bind (contract : Contract) (analysis : Analysis α) (next : α → Analysis β)
    (wish : Except Fault β → Prop) :
    (ExceptT.run (analysis >>= next)).Meets contract wish ↔
      (ExceptT.run analysis).Meets contract fun
        | .ok value => (ExceptT.run (next value)).Meets contract wish
        | .error fault => wish (.error fault) := by
  rw [ExceptT.run_bind, Dialogue.meets_bind]
  apply Dialogue.meets_congr
  intro reply
  cases reply with
  | ok value => rfl
  | error fault => rfl

theorem held_of_meets {oracle : Oracle (StateM σ)} {contract : Contract}
    (keeps : oracle.Keeps contract) {analysis : Analysis α} {wish : Except Fault α → Prop}
    (meets : (ExceptT.run analysis).Meets contract wish) (state : σ) :
    wish (analysis.held oracle state).result ∧
      ∀ query ∈ (analysis.held oracle state).queries, contract.asks query :=
  Dialogue.run_of_meets keeps meets state

end Analysis

/-! ### Exact replies -/

/-- The reply is the core of the formula, in any order, or says rightly that there is no solution. -/
inductive Formula.IsCoreReply (formula : Formula) : Except Fault (List Literal) → Prop
  | unsatisfiable : ¬formula.Satisfiable → IsCoreReply formula (.error .unsatisfiable)
  | core {core : List Literal} : formula.Satisfiable → formula.IsCore core →
      IsCoreReply formula (.ok core)

/-- To list the literals backwards leaves a reply exact. -/
theorem Formula.IsCoreReply.reverse {formula : Formula} {reply : Except Fault (List Literal)}
    (h : formula.IsCoreReply reply) : formula.IsCoreReply (reply.map List.reverse) := by
  cases h with
  | unsatisfiable hopeless => exact .unsatisfiable hopeless
  | core satisfiable isCore =>
    refine .core satisfiable ⟨(List.reverse_perm _).nodup_iff.2 isCore.1, ?_⟩
    intro literal
    rw [List.mem_reverse]
    exact isCore.2 literal

end Backbone
