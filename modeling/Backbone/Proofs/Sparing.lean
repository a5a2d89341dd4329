import Backbone.Proofs.Contract

/-!
# Analyses that spare queries

Two analyses that are held with the same oracle, side by side.  The oracle has no state, so that it
replies to a query alike whatever was asked before; only then can one analysis leave a query out
and go on as the other does.

* `Oracle.reply` — the reply to a query, which depends on nothing else;
* `Analysis.Spares` — one analysis ends as the other does and asks no other queries, given that the
  oracle does well in all that the other asks;
* `Spares.bind`, `Spares.skip` — to go on in both, and to go on in one while the other waits.
-/

namespace Backbone

variable {α β : Type}

/-- The reply of an oracle without a state to a query for a core. -/
def Oracle.reply (oracle : Oracle (StateM Unit)) (query : Query) : Except Fault (List Literal) :=
  ((oracle.core query.formula query.timeout).run ()).1

namespace Analysis

variable {oracle : Oracle (StateM Unit)} {good : Query → Prop} {wish : α → Prop}
  {wish' : β → Prop} {analysis : Analysis α} {next : α → Analysis β}

theorem held_bind_of_ok {value : α} (found : (analysis.held oracle ()).result = .ok value) :
    (analysis >>= next).held oracle () =
      (analysis.held oracle ()).andThen ((next value).held oracle ()) := by
  rw [held] at found
  rw [held, ExceptT.run_bind, Dialogue.held_bind]
  dsimp only
  rw [found]
  rfl

theorem mem_queries_bind {query : Query} (asked : query ∈ (analysis.held oracle ()).queries) :
    query ∈ ((analysis >>= next).held oracle ()).queries := by
  rw [held, ExceptT.run_bind, Dialogue.held_bind]
  exact List.mem_append_left _ asked

/-- If all queries of the plain analysis are good, then both end with the same value, which is as
wished, and the sparing one asks some of the queries of the plain one, in their order. -/
def Spares (oracle : Oracle (StateM Unit)) (good : Query → Prop) (plain sparing : Analysis α)
    (wish : α → Prop) : Prop :=
  (∀ query ∈ (plain.held oracle ()).queries, good query) →
    ∃ value, wish value ∧ (plain.held oracle ()).result = .ok value ∧
      (sparing.held oracle ()).result = .ok value ∧
      (sparing.held oracle ()).queries.Sublist (plain.held oracle ()).queries

theorem Spares.pure {value : α} (wished : wish value) :
    Spares oracle good (return value) (return value) wish :=
  fun _ => ⟨value, wished, rfl, rfl, .refl _⟩

theorem Spares.bind {plain sparing : Analysis α} {next next' : α → Analysis β}
    (spares : Spares oracle good plain sparing wish)
    (later : ∀ value, wish value → Spares oracle good (next value) (next' value) wish') :
    Spares oracle good (plain >>= next) (sparing >>= next') wish' := by
  intro asked
  obtain ⟨value, wished, found, found', sublist⟩ := spares fun query member =>
    asked query (mem_queries_bind member)
  rw [held_bind_of_ok found] at asked ⊢
  rw [held_bind_of_ok found']
  obtain ⟨result, wished', ended, ended', sublist'⟩ := later value wished fun query member =>
    asked query (List.mem_append_right _ member)
  exact ⟨result, wished', ended, ended', sublist.append sublist'⟩

/-- What the plain analysis asks in between is spared. -/
theorem Spares.skip {plain other : Analysis α} {next : α → Analysis β} {sparing : Analysis β}
    (spares : Spares oracle good plain other wish)
    (later : ∀ value, wish value → Spares oracle good (next value) sparing wish') :
    Spares oracle good (plain >>= next) sparing wish' := by
  intro asked
  obtain ⟨value, wished, found, -, -⟩ := spares fun query member =>
    asked query (mem_queries_bind member)
  rw [held_bind_of_ok found] at asked ⊢
  obtain ⟨result, wished', ended, ended', sublist⟩ := later value wished fun query member =>
    asked query (List.mem_append_right _ member)
  exact ⟨result, wished', ended, ended', sublist.trans (List.sublist_append_right _ _)⟩

end Analysis

end Backbone
