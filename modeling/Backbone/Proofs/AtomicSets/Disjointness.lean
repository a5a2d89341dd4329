import Backbone.Proofs.AtomicSets.Steps
import Backbone.Proofs.AtomicSets.Walk

/-!
# Sets without common variables

Whatever an oracle replies, no variable of the formula occurs in two sets of a result, and none
that occurs in the reply about the formula itself occurs in a later set.  The marks carry the
argument: at each moment every variable of a set that was found carries one, and a group takes in
only variables that carry none.

* `ApartUpTo` — no number up to a limit is the variable of literals of both lists;
* `Probed.unmarked` — the variables of a group carried no mark when it was found;
* `Walk.separate` — so no variable occurs in two groups of a walk;
* `compute_pairwise_apart` — nor in two sets of a result, the core included.
-/

namespace Backbone.AtomicSets

variable {σ : Type} {formula : Formula} {timeout : Timeout} {marked : Marked} {request : Request}
  {coreSize index : Nat} {indices : List Nat} {exchanges : List Exchange}

/-- No number up to the limit is the variable of a literal of either list. -/
def ApartUpTo (limit : Nat) (first second : List Literal) : Prop :=
  ∀ index ≤ limit, index ∈ Literals.vars first → index ∉ Literals.vars second

/-- A number for which there is no room or that occurs in no such list carries no new mark. -/
theorem unmarked_mark_iff {numbers : List Nat} :
    (marked.mark numbers).contains index = false ↔
      marked.contains index = false ∧ (index < marked.size → index ∉ numbers) := by
  rw [← Bool.not_eq_true, Marked.contains_mark, not_or, not_and, Bool.not_eq_true]
  exact And.comm

theorem Probed.unmarked {literal opposite : Literal} {group : List Literal}
    (probed : Probed formula timeout coreSize marked literal opposite exchanges (.ok group))
    (fresh : marked.contains literal.var = false) :
    ∀ other ∈ Literals.vars group, marked.contains other = false := by
  cases probed with
  | alone =>
    intro other member
    rw [List.mem_singleton.1 member]
    exact fresh
  | flipped =>
    intro other member
    obtain ⟨literal, inside, rfl⟩ := List.mem_map.1 member
    rw [flippedGroup, List.mem_filter] at inside
    simpa using inside.2

/-- No variable for which marks have room occurs in two groups of a walk, and none that carries a
mark when the walk begins occurs in any. -/
theorem Walk.separate {limit : Nat} {found : Except Fault (List (List Literal))}
    (walk : Walk formula timeout coreSize marked indices exchanges found)
    (small : ∀ index ∈ indices, index < Text.signedBound) (room : limit < marked.size) :
    ∀ groups, found = .ok groups → groups.Pairwise (ApartUpTo limit) ∧
      ∀ group ∈ groups, ∀ other ∈ Literals.vars group, marked.contains other = false := by
  induction walk with
  | finished =>
    intro groups same
    cases same
    exact ⟨.nil, fun group member => absurd member List.not_mem_nil⟩
  | pass _ _ ih => exact ih (List.forall_mem_cons.1 small).2 room
  | refused =>
    intro groups same
    cases same
  | @visit marked index indices first rest group found fresh probed _ ih =>
    intro groups same
    rw [List.forall_mem_cons] at small
    cases found with
    | error fault => cases same
    | ok others =>
      cases same
      obtain ⟨apart, later⟩ := ih small.2 room others rfl
      -- the group was marked before the others were looked for
      have unmarked : ∀ set ∈ others, ∀ other ∈ Literals.vars set, _ :=
        fun set member other inside => unmarked_mark_iff.1 (later set member other inside)
      refine ⟨List.pairwise_cons.2 ⟨?_, apart⟩, List.forall_mem_cons.2 ⟨?_, ?_⟩⟩
      · intro set member other below inGroup inside
        exact (unmarked set member other inside).2 (Nat.lt_of_le_of_lt below room)
          (List.mem_cons_of_mem _ inGroup)
      · exact ((probedAt_iff small.1).1 probed).unmarked fresh
      · exact fun set member other inside => (unmarked set member other inside).1

/-- With variables in the signed range and any oracle, no variable of the formula occurs in two sets
of a result, and none that occurs in the first reply occurs in another set, whether or not that
reply is a set of the result. -/
theorem compute_pairwise_apart {oracle : Oracle (StateM σ)} {state : σ} {result : LiteralSets}
    (small : formula.numVariables < Text.signedBound)
    (finished : ((request.compute formula).held oracle state).result = .ok result) :
    result.sets.Pairwise (ApartUpTo formula.numVariables) ∧
      ∃ core groups, ((oracle.core formula request.timeout).run state).1 = .ok core ∧
        result.sets = (if request.omitCore then groups else core :: groups) ∧
        ∀ group ∈ groups, ApartUpTo formula.numVariables core group := by
  have takes := Analysis.takes_held (request.compute formula) oracle state
  rw [finished] at takes
  cases known : request.targets formula with
  | error fault =>
    obtain ⟨-, same⟩ := takes_compute_refused known takes
    cases same
  | ok targets =>
    rcases takes_compute known takes with ⟨fault, -, same⟩ | ⟨core, rest, found, asked, walk, same⟩
    · cases same
    · cases found with
      | error fault => cases same
      | ok groups =>
        cases same
        have room := Marked.room_of_lt small
        obtain ⟨apart, unmarked⟩ := walk.separate (targets_lt_signedBound small known)
          (Marked.lt_size_ofCore room core) groups rfl
        have shown : (groups.filter request.shows).Sublist groups := List.filter_sublist
        have fromCore : ∀ group ∈ groups.filter request.shows,
            ApartUpTo formula.numVariables core group := by
          intro group member other within inCore inGroup
          have clear := unmarked group (shown.subset member) other inGroup
          rw [(Marked.contains_ofCore room within).2 inCore] at clear
          cases clear
        refine ⟨?_, core, _, Oracle.reply_of_exchanges asked, rfl, fromCore⟩
        show (request.withCore core _).Pairwise _
        rw [Request.withCore]
        split
        · exact apart.sublist shown
        · exact List.pairwise_cons.2 ⟨fromCore, apart.sublist shown⟩

/-! ### An oracle that says anything -/

/-- An oracle that replies with the lists of its state in turn, whatever it is asked. -/
def recitingOracle : Oracle (StateM (List (List Literal))) where
  core _ _ := modifyGet fun
    | [] => (.error .indeterminate, [])
    | reply :: replies => (.ok reply, replies)
  solve _ _ := return .error .indeterminate

/-- The replies contradict themselves and each other here, and one variable in them is not of the
formula; only that one occurs twice. -/
theorem compute_pairwise_apart_recitingOracle :
    ((Request.compute {} ⟨5, [], .empty⟩).held recitingOracle
        [[5, 9, -5], [1, 2, 2, 5, -9], [-1, -2, -5, 9], [3, 1, 9, -9, 2], [-3, -1, -9], [4]]).result =
      .ok ⟨[[5, 9, -5], [1, 2, 2, -9], [3, 9], [4]], 5, .empty⟩ ∧
      [[5, 9, -5], [1, 2, 2, -9], [3, 9], [4]].Pairwise (ApartUpTo 5) := by
  have finished : ((Request.compute {} ⟨5, [], .empty⟩).held recitingOracle
      [[5, 9, -5], [1, 2, 2, 5, -9], [-1, -2, -5, 9], [3, 1, 9, -9, 2], [-3, -1, -9], [4]]).result =
        .ok ⟨[[5, 9, -5], [1, 2, 2, -9], [3, 9], [4]], 5, .empty⟩ := rfl
  exact ⟨finished, (compute_pairwise_apart (by decide) finished).1⟩

end Backbone.AtomicSets
