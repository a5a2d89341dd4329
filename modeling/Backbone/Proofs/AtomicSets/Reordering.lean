import Backbone.Proofs.AtomicSets.Agreement
import Backbone.Proofs.Lockstep

/-!
# The order in a core does not matter

An oracle may list the literals of a core in any order.  Two oracles that differ in nothing else
lead the analysis through the same queries to the same sets, up to the order in each of them, right
or wrong as the replies may be.  The analysis looks at a core in three ways only: how long it is,
which literals are in it, and which variables are to be marked.  None of them depends on the order.

* `Marked.Same` — marks that were set in another order;
* `flippedGroup_perm` — what flips between two cores, reordered with them;
* `inStep_probe`, `inStep_groupOf`, `inStep_groups`, `inStep_compute` — each step of the analysis
  stays in lockstep with itself;
* `compute_reordered` — held with two such oracles, the analysis asks the same and finds the same.
-/

namespace Backbone.AtomicSets

open Analysis

variable {session : Session} {marked marked' : Marked} {request : Request} {formula : Formula}
  {coreSize index : Nat} {indices : List Nat}

/-! ### Marks and groups -/

/-- The same marks, set in another order. -/
structure Marked.Same (marked marked' : Marked) : Prop where
  /-- The same numbers can carry a mark. -/
  size : marked.size = marked'.size
  /-- The same numbers were marked. -/
  members : marked.members.Perm marked'.members

theorem Marked.Same.contains_eq (same : marked.Same marked') (index : Nat) :
    marked.contains index = marked'.contains index := by
  rw [Marked.contains, Marked.contains, same.size, same.members.contains_eq]

theorem Marked.Same.mark {numbers numbers' : List Nat} (same : marked.Same marked')
    (perm : numbers.Perm numbers') : (marked.mark numbers).Same (marked'.mark numbers') :=
  ⟨same.size, perm.append same.members⟩

theorem flippedGroup_perm {positive positive' negative negative' : List Literal}
    (same : marked.Same marked') (perm : positive.Perm positive')
    (perm' : negative.Perm negative') :
    (flippedGroup marked positive negative).Perm (flippedGroup marked' positive' negative') := by
  simp only [flippedGroup, Literals.flipped, same.contains_eq, perm'.contains_eq]
  exact (perm.filter _).filter _

/-! ### The steps of the analysis -/

/-- A probe and the same probe end with the session as it was and with cores up to order. -/
theorem inStep_probe (session : Session) (literal : Literal) :
    InStep session.timeout List.Perm (probe session literal) (probe session literal)
      fun first second => first.1.Perm second.1 ∧ first.2 = session ∧ second.2 = session := by
  have undone : (session.appendAll [literal]).retractMany 1 = session :=
    session.retractMany_appendAll [literal]
  refine .core ?_
  intro reply reply' alike
  refine .done ?_
  show Alike _ (reply.map (·, (session.appendAll [literal]).retractMany 1))
    (reply'.map (·, (session.appendAll [literal]).retractMany 1))
  rw [undone]
  cases alike with
  | error => exact .error
  | ok perm => exact .ok ⟨perm, rfl, rfl⟩

theorem inStep_groupOf (same : marked.Same marked') :
    InStep session.timeout List.Perm (groupOf session coreSize marked index)
      (groupOf session coreSize marked' index)
      fun first second => first.1.Perm second.1 ∧ first.2 = session ∧ second.2 = session := by
  rw [groupOf, groupOf]
  refine (inStep_probe session (.ofIndex index)).bind ?_
  intro first second found
  obtain ⟨positive, left⟩ := first
  obtain ⟨positive', left'⟩ := second
  obtain ⟨perm, rfl, rfl⟩ := found
  dsimp only
  rw [← perm.length_eq]
  by_cases small : positive.length ≤ coreSize + 1
  · rw [if_pos small, if_pos small]
    exact .pure ⟨.refl _, rfl, rfl⟩
  · rw [if_neg small, if_neg small]
    refine (inStep_probe _ _).bind ?_
    intro first second found
    obtain ⟨negative, left⟩ := first
    obtain ⟨negative', left'⟩ := second
    obtain ⟨perm', rfl, rfl⟩ := found
    dsimp only
    have group := flippedGroup_perm same perm perm'
    have nothing_iff : flippedGroup marked positive negative = [] ↔
        flippedGroup marked' positive' negative' = [] := by
      rw [← List.length_eq_zero_iff, group.length_eq, List.length_eq_zero_iff]
    by_cases nothing : flippedGroup marked positive negative = []
    · rw [if_pos nothing, if_pos (nothing_iff.1 nothing)]
      exact (inStep_warn _).bind fun _ _ _ => .pure ⟨group, rfl, rfl⟩
    · rw [if_neg nothing, if_neg (mt nothing_iff.2 nothing)]
      exact .pure ⟨group, rfl, rfl⟩

theorem inStep_groups (session : Session) (same : marked.Same marked') :
    InStep session.timeout List.Perm (request.groups coreSize session marked indices)
      (request.groups coreSize session marked' indices) (List.Forall₂ List.Perm) := by
  induction indices generalizing session marked marked' with
  | nil => exact .pure .nil
  | cons index indices ih =>
    rw [Request.groups, Request.groups, ← same.contains_eq]
    by_cases hit : marked.contains index = true
    · rw [if_pos hit, if_pos hit]
      exact ih session same
    · rw [if_neg hit, if_neg hit]
      refine (inStep_groupOf same).bind ?_
      intro first second found
      obtain ⟨group, left⟩ := first
      obtain ⟨group', left'⟩ := second
      obtain ⟨perm, rfl, rfl⟩ := found
      refine (ih _ (same.mark ((perm.map Literal.var).cons index))).bind ?_
      intro shown shown' agree
      rw [shows_eq_of_perm perm]
      refine .pure ?_
      by_cases visible : request.shows group' = true
      · rw [if_pos visible, if_pos visible]
        exact .cons perm agree
      · rw [if_neg visible, if_neg visible]
        exact agree

theorem inStep_compute (request : Request) (formula : Formula) :
    InStep request.timeout List.Perm (request.compute formula) (request.compute formula)
      fun found found' => AgreeUpToOrder (.ok found) (.ok found') := by
  rw [Request.compute]
  cases request.targets formula with
  | error fault => exact .done .error
  | ok targets =>
    show InStep _ _ ((Session.start formula request.timeout).core >>= _)
      ((Session.start formula request.timeout).core >>= _) _
    refine (inStep_core formula).bind ?_
    intro core core' perm
    have same : Marked.Same (.ofCore formula.numVariables core)
        (.ofCore formula.numVariables core') := ⟨rfl, perm.map Literal.var⟩
    rw [perm.length_eq]
    refine InStep.bind (inStep_groups (.start formula request.timeout) same) ?_
    intro shown shown' agree
    exact .pure ⟨withCore_agree perm agree, rfl, rfl⟩

/-! ### Two oracles -/

theorem agreeUpToOrder_of_alike {first second : Except Fault LiteralSets}
    (alike : Alike (fun found found' => AgreeUpToOrder (.ok found) (.ok found')) first second) :
    AgreeUpToOrder first second := by
  cases alike with
  | error => exact rfl
  | ok agree => exact agree

/-- With two oracles that have no state and reply to each formula with the same fault or with the
same literals in some order, as often as they may occur, the analysis asks the same queries, gives
the same warnings and ends with the same fault or with sets that agree up to order. -/
theorem compute_reordered {oracle oracle' : Oracle (StateM Unit)} (request : Request)
    (formula : Formula)
    (alike : ∀ asked : Formula, Alike List.Perm
      (oracle.reply ⟨.core, asked, request.timeout⟩)
      (oracle'.reply ⟨.core, asked, request.timeout⟩)) :
    let run := (request.compute formula).held oracle ()
    let run' := (request.compute formula).held oracle' ()
    run'.queries = run.queries ∧ run'.warnings = run.warnings ∧
      AgreeUpToOrder run.result run'.result := by
  intro run run'
  obtain ⟨queries, warnings, agree⟩ := (inStep_compute request formula).run alike
  exact ⟨queries, warnings, agreeUpToOrder_of_alike agree⟩

/-! ### An oracle read backwards -/

/-- The oracle that lists every core backwards. -/
def backwards (oracle : Oracle (StateM Unit)) : Oracle (StateM Unit) where
  core formula timeout := return (← oracle.core formula timeout).map List.reverse
  solve := oracle.solve

theorem alike_backwards (oracle : Oracle (StateM Unit)) (query : Query) :
    Alike List.Perm (oracle.reply query) ((backwards oracle).reply query) := by
  show Alike List.Perm (oracle.reply query) ((oracle.reply query).map List.reverse)
  cases oracle.reply query with
  | error fault => exact .error
  | ok core => exact .ok (List.reverse_perm core).symm

/-- Replies to two formulas of one unit clause; literals are repeated in them, and some are of no
variable of the formula. -/
def gossip : List (Clause × List Literal) :=
  [([2], [3, 2, 2, 1, -9]), ([-2], [-3, -2, -2, 1])]

/-- An oracle that knows two replies and says the same to all else. -/
def gossipOracle : Oracle (StateM Unit) where
  core formula _ := return .ok ((gossip.lookup formula.clauses.flatten).getD [1, 7, 7])
  solve _ _ := return .error .indeterminate

theorem compute_reordered_backwards :
    let run := (Request.compute {} ⟨4, [], .empty⟩).held gossipOracle ()
    let run' := (Request.compute {} ⟨4, [], .empty⟩).held (backwards gossipOracle) ()
    run.result = .ok ⟨[[1, 7, 7], [3, 2, 2], [4]], 4, .empty⟩ ∧
      run'.result = .ok ⟨[[7, 7, 1], [2, 2, 3], [4]], 4, .empty⟩ ∧
      run'.queries = run.queries ∧ AgreeUpToOrder run.result run'.result := by
  have alike (asked : Formula) : Alike List.Perm
      (gossipOracle.reply ⟨.core, asked, (0 : Timeout)⟩)
      ((backwards gossipOracle).reply ⟨.core, asked, (0 : Timeout)⟩) := alike_backwards _ _
  obtain ⟨queries, -, agree⟩ := compute_reordered {} ⟨4, [], .empty⟩ alike
  exact ⟨rfl, rfl, queries, agree⟩

end Backbone.AtomicSets
