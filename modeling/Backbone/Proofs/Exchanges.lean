import Backbone.Proofs.Contract

/-!
# What is asked and what is replied

A dialogue is determined by the replies that it gets.  An `Exchange` is a query with its reply, and
a dialogue *takes* a list of exchanges if it asks these queries in this order when these replies
come back.  Where the replies come from plays no part, so what is proved of all the exchanges that
an analysis can take holds for every oracle, whatever its state and however wrong it is.

* `Dialogue.Takes` — the dialogue asks the queries, gets the replies and ends with the result;
* `takes_bind`, `Analysis.takes_bind` — the exchanges of one step and then of the other;
* `Oracle.exchanges` — the queries with the replies that an oracle gives to them in turn;
* `Analysis.takes_held` — held with an oracle, an analysis takes just its queries with its replies;
* `EndsWith` — only the last exchange may have failed, and then the result is its fault.
-/

namespace Backbone

variable {α β σ : Type}

/-- A query with its reply. -/
inductive Exchange where
  | core (formula : Formula) (timeout : Timeout) (reply : Except Fault (List Literal))
  | solve (formula : Formula) (timeout : Timeout) (reply : Except Fault Verdict)

namespace Exchange

/-- The query that was asked. -/
def query : Exchange → Query
  | core formula timeout _ => ⟨.core, formula, timeout⟩
  | solve formula timeout _ => ⟨.solve, formula, timeout⟩

/-- The fault in place of a reply. -/
def fault? : Exchange → Option Fault
  | core _ _ (.error fault) => some fault
  | solve _ _ (.error fault) => some fault
  | _ => none

end Exchange

/-! ### Dialogues -/

namespace Dialogue

/-- With the replies of the exchanges the dialogue asks just their queries, in this order, and ends
with the result. -/
def Takes : Dialogue α → List Exchange → α → Prop
  | done value, exchanges, result => exchanges = [] ∧ result = value
  | core formula timeout next, exchanges, result =>
    ∃ reply rest, exchanges = .core formula timeout reply :: rest ∧ (next reply).Takes rest result
  | solve formula timeout next, exchanges, result =>
    ∃ reply rest, exchanges = .solve formula timeout reply :: rest ∧ (next reply).Takes rest result
  | warn _ next, exchanges, result => next.Takes exchanges result

theorem takes_bind {dialogue : Dialogue α} {next : α → Dialogue β} {exchanges : List Exchange}
    {result : β} (takes : (dialogue >>= next).Takes exchanges result) :
    ∃ first value rest, exchanges = first ++ rest ∧ dialogue.Takes first value ∧
      (next value).Takes rest result := by
  change (dialogue.bind next).Takes exchanges result at takes
  induction dialogue generalizing exchanges with
  | done value => exact ⟨[], value, exchanges, rfl, ⟨rfl, rfl⟩, takes⟩
  | core formula timeout answer ih =>
    obtain ⟨reply, later, rfl, takes⟩ := takes
    obtain ⟨first, value, rest, rfl, begun, continued⟩ := ih reply takes
    exact ⟨_, value, rest, (List.cons_append).symm, ⟨reply, first, rfl, begun⟩, continued⟩
  | solve formula timeout answer ih =>
    obtain ⟨reply, later, rfl, takes⟩ := takes
    obtain ⟨first, value, rest, rfl, begun, continued⟩ := ih reply takes
    exact ⟨_, value, rest, (List.cons_append).symm, ⟨reply, first, rfl, begun⟩, continued⟩
  | warn warning rest ih => exact ih takes

end Dialogue

/-! ### Analyses -/

namespace Analysis

/-- A step that fails is the last one. -/
theorem takes_bind {analysis : Analysis α} {next : α → Analysis β} {exchanges : List Exchange}
    {result : Except Fault β}
    (takes : (ExceptT.run (analysis >>= next)).Takes exchanges result) :
    (∃ fault, (ExceptT.run analysis).Takes exchanges (.error fault) ∧ result = .error fault) ∨
      ∃ first value rest, exchanges = first ++ rest ∧
        (ExceptT.run analysis).Takes first (.ok value) ∧
        (ExceptT.run (next value)).Takes rest result := by
  rw [ExceptT.run_bind] at takes
  obtain ⟨first, reply, rest, rfl, begun, continued⟩ := Dialogue.takes_bind takes
  cases reply with
  | ok value => exact .inr ⟨first, value, rest, rfl, begun, continued⟩
  | error fault =>
    obtain ⟨rfl, rfl⟩ := continued
    exact .inl ⟨fault, by rwa [List.append_nil], rfl⟩

theorem takes_map {analysis : Analysis α} {f : α → β} {exchanges : List Exchange}
    {result : Except Fault β}
    (takes : (ExceptT.run (analysis >>= fun value => return f value)).Takes exchanges result) :
    ∃ found, (ExceptT.run analysis).Takes exchanges found ∧ result = found.map f := by
  rcases takes_bind takes with ⟨fault, begun, rfl⟩ | ⟨first, value, rest, rfl, begun, ended⟩
  · exact ⟨.error fault, begun, rfl⟩
  · obtain ⟨rfl, rfl⟩ := ended
    exact ⟨.ok value, by rwa [List.append_nil], rfl⟩

end Analysis

/-! ### Oracles with a state -/

namespace Oracle

/-- The queries with the replies that the oracle gives when it is asked them in turn. -/
def exchanges (oracle : Oracle (StateM σ)) : σ → List Query → List Exchange
  | _, [] => []
  | state, ⟨.core, formula, timeout⟩ :: queries =>
    let answered := (oracle.core formula timeout).run state
    .core formula timeout answered.1 :: oracle.exchanges answered.2 queries
  | state, ⟨.solve, formula, timeout⟩ :: queries =>
    let answered := (oracle.solve formula timeout).run state
    .solve formula timeout answered.1 :: oracle.exchanges answered.2 queries

theorem map_query_exchanges (oracle : Oracle (StateM σ)) (state : σ) (queries : List Query) :
    (oracle.exchanges state queries).map Exchange.query = queries := by
  induction queries generalizing state with
  | nil => rfl
  | cons query queries ih =>
    obtain ⟨question, formula, timeout⟩ := query
    cases question with
    | core => exact congrArg (_ :: ·) (ih _)
    | solve => exact congrArg (_ :: ·) (ih _)

theorem reply_of_exchanges {oracle : Oracle (StateM σ)} {state : σ} {queries : List Query}
    {formula : Formula} {timeout : Timeout} {reply : Except Fault (List Literal)}
    {rest : List Exchange}
    (same : oracle.exchanges state queries = .core formula timeout reply :: rest) :
    ((oracle.core formula timeout).run state).1 = reply := by
  cases queries with
  | nil => cases same
  | cons query queries =>
    obtain ⟨question, asked, limit⟩ := query
    cases question with
    | core =>
      cases same
      rfl
    | solve => cases same

end Oracle

theorem Dialogue.takes_run (oracle : Oracle (StateM σ)) (dialogue : Dialogue α) (state : σ) :
    dialogue.Takes (oracle.exchanges state ((dialogue.run oracle).run state).1.queries)
      ((dialogue.run oracle).run state).1.result := by
  induction dialogue generalizing state with
  | done result => exact ⟨rfl, rfl⟩
  | core formula timeout answer ih => exact ⟨_, _, rfl, ih _ _⟩
  | solve formula timeout answer ih => exact ⟨_, _, rfl, ih _ _⟩
  | warn warning rest ih => exact ih state

theorem Analysis.takes_held (analysis : Analysis α) (oracle : Oracle (StateM σ)) (state : σ) :
    (ExceptT.run analysis).Takes (oracle.exchanges state (analysis.held oracle state).queries)
      (analysis.held oracle state).result :=
  Dialogue.takes_run oracle (ExceptT.run analysis) state

/-! ### Stopping at the first fault -/

/-- Only the last exchange may have failed, and it has failed just if the result is its fault. -/
def EndsWith (exchanges : List Exchange) : Except Fault α → Prop
  | .ok _ => ∀ exchange ∈ exchanges, exchange.fault? = none
  | .error fault => ∃ before last, exchanges = before ++ [last] ∧
      (∀ exchange ∈ before, exchange.fault? = none) ∧ last.fault? = some fault

variable {exchanges : List Exchange} {result : Except Fault α}

theorem endsWith_map {f : α → β} :
    EndsWith exchanges (result.map f) ↔ EndsWith exchanges result := by
  cases result with
  | ok value => rfl
  | error fault => rfl

theorem EndsWith.after {first : List Exchange} (ends : EndsWith exchanges result)
    (answered : ∀ exchange ∈ first, exchange.fault? = none) :
    EndsWith (first ++ exchanges) result := by
  cases result with
  | ok value => exact List.forall_mem_append.2 ⟨answered, ends⟩
  | error fault =>
    obtain ⟨before, last, rfl, earlier, failed⟩ := ends
    refine ⟨first ++ before, last, (List.append_assoc _ _ _).symm, ?_, failed⟩
    exact List.forall_mem_append.2 ⟨answered, earlier⟩

/-- After an exchange that failed there is no other, and its fault is the result. -/
theorem EndsWith.stops {before after : List Exchange} {exchange : Exchange} {fault : Fault}
    (ends : EndsWith (before ++ exchange :: after) result) (failed : exchange.fault? = some fault) :
    after = [] ∧ result = .error fault := by
  cases result with
  | ok value =>
    have answered := ends exchange (List.mem_append_right _ List.mem_cons_self)
    rw [failed] at answered
    cases answered
  | error fault' =>
    obtain ⟨earlier, last, same, answered, failed'⟩ := ends
    have tail : after = [] := by
      cases List.eq_nil_or_concat after with
      | inl none_ => exact none_
      | inr more =>
        -- otherwise the exchange stands before the last one
        obtain ⟨front, back, rfl⟩ := more
        rw [List.concat_eq_append, ← List.cons_append, ← List.append_assoc] at same
        obtain ⟨same, -⟩ := List.append_inj' same rfl
        have none_ := answered exchange (same ▸ List.mem_append_right _ List.mem_cons_self)
        rw [failed] at none_
        cases none_
    subst tail
    obtain ⟨-, same⟩ := List.append_inj' same rfl
    cases same
    rw [failed] at failed'
    cases failed'
    exact ⟨rfl, rfl⟩

/-- Without a failed exchange the result is a value. -/
theorem EndsWith.succeeds (ends : EndsWith exchanges result)
    (answered : ∀ exchange ∈ exchanges, exchange.fault? = none) : ∃ value, result = .ok value := by
  cases result with
  | ok value => exact ⟨value, rfl⟩
  | error fault =>
    obtain ⟨before, last, rfl, -, failed⟩ := ends
    rw [answered last (List.mem_append_right _ List.mem_cons_self)] at failed
    cases failed

end Backbone
