import Backbone.AtomicSets
import Backbone.Proofs.Contract

/-!
# The steps of the search for atomic sets

What each step of the analysis asks and gives back, as rules for meeting a contract.  Sessions
occur here and nowhere after: each step ends with the session it began with, so all queries are
about the formula or the formula with one assumption.

* `meets_probe` — one query about the formula with the assumption, and the old session;
* `meets_groupOf` — the group of a variable: alone, or what flips between two cores;
* `meets_groups_skip`, `meets_groups_visit` — a marked variable is passed over, any other one
  costs a group and marks it;
* `meets_compute` — the targets, the core, then the groups.
-/

namespace Backbone.AtomicSets

variable {contract : Contract} {session : Session} {marked : Marked} {request : Request}
  {coreSize index : Nat} {indices : List Nat}

theorem meets_probe (literal : Literal) (wish : Except Fault (List Literal × Session) → Prop) :
    (ExceptT.run (probe session literal)).Meets contract wish ↔
      contract.asks ⟨.core, session.formula.assume [literal], session.timeout⟩ ∧
        ∀ reply, contract.core (session.formula.assume [literal]) reply →
          wish (reply.map (·, session)) := by
  have asked : (session.appendAll [literal]).formula = session.formula.assume [literal] :=
    session.formula_appendAll [literal]
  have undone : (session.appendAll [literal]).retractMany 1 = session :=
    session.retractMany_appendAll [literal]
  show contract.asks ⟨.core, (session.appendAll [literal]).formula, session.timeout⟩ ∧
    (∀ reply, contract.core (session.appendAll [literal]).formula reply →
      wish (reply.map (·, (session.appendAll [literal]).retractMany 1))) ↔ _
  rw [asked, undone]

/-- The group of a variable is its literal alone if the first core is small, and otherwise what
flips between the two cores. -/
theorem meets_groupOf {literal opposite : Literal} (same : Literal.ofIndex index = literal)
    (turned : literal.negate = opposite)
    {wish : Except Fault (List Literal × Session) → Prop}
    (first : contract.asks ⟨.core, session.formula.assume [literal], session.timeout⟩)
    (second : contract.asks ⟨.core, session.formula.assume [opposite], session.timeout⟩)
    (failed : ∀ probed ∈ [literal, opposite], ∀ fault,
      contract.core (session.formula.assume [probed]) (.error fault) → wish (.error fault))
    (alone : ∀ positiveCore,
      contract.core (session.formula.assume [literal]) (.ok positiveCore) →
        positiveCore.length ≤ coreSize + 1 → wish (.ok ([literal], session)))
    (flips : ∀ positiveCore negativeCore,
      contract.core (session.formula.assume [literal]) (.ok positiveCore) →
        contract.core (session.formula.assume [opposite]) (.ok negativeCore) →
          wish (.ok (flippedGroup marked positiveCore negativeCore, session))) :
    (ExceptT.run (groupOf session coreSize marked index)).Meets contract wish := by
  subst same turned
  rw [groupOf, Analysis.meets_bind, meets_probe]
  refine ⟨first, ?_⟩
  intro reply permitted
  cases reply with
  | error fault => exact failed _ List.mem_cons_self fault permitted
  | ok positiveCore =>
    show Dialogue.Meets contract (ExceptT.run (ite _ _ _)) wish
    by_cases small : positiveCore.length ≤ coreSize + 1
    · rw [if_pos small]
      exact alone positiveCore permitted small
    · rw [if_neg small, Analysis.meets_bind, meets_probe]
      refine ⟨second, ?_⟩
      intro reply permitted'
      cases reply with
      | error fault =>
        exact failed _ (List.mem_cons_of_mem _ List.mem_cons_self) fault permitted'
      | ok negativeCore =>
        have found := flips positiveCore negativeCore permitted permitted'
        show Dialogue.Meets contract (ExceptT.run (ite _ _ _)) wish
        -- the warning about an empty group changes nothing else
        split
        · exact found
        · exact found

theorem meets_groups_skip (hit : marked.contains index = true)
    (wish : Except Fault (List (List Literal)) → Prop) :
    (ExceptT.run (request.groups coreSize session marked (index :: indices))).Meets contract wish ↔
      (ExceptT.run (request.groups coreSize session marked indices)).Meets contract wish := by
  rw [Request.groups, if_pos hit]

theorem meets_groups_visit (fresh : marked.contains index = false)
    (wish : Except Fault (List (List Literal)) → Prop) :
    (ExceptT.run (request.groups coreSize session marked (index :: indices))).Meets contract wish ↔
      (ExceptT.run (groupOf session coreSize marked index)).Meets contract fun
        | .error fault => wish (.error fault)
        | .ok (group, session) =>
          (ExceptT.run (request.groups coreSize session
              (marked.mark (index :: Literals.vars group)) indices)).Meets contract fun
            | .error fault => wish (.error fault)
            | .ok shown => wish (.ok (if request.shows group then group :: shown else shown)) := by
  rw [Request.groups, if_neg (by simp [fresh]), Analysis.meets_bind]
  apply Dialogue.meets_congr
  intro reply
  cases reply with
  | error fault => rfl
  | ok found =>
    show Dialogue.Meets contract (ExceptT.run (_ >>= _)) wish ↔ _
    rw [Analysis.meets_bind]
    apply Dialogue.meets_congr
    intro reply
    cases reply with
    | error fault => rfl
    | ok shown => rfl

theorem targets_declared {formula : Formula} {targets : List Nat}
    (known : request.targets formula = .ok targets) :
    ∀ index ∈ targets, formula.declares index = true := by
  rw [Request.targets] at known
  split at known
  · cases known
    exact fun index => Formula.mem_vars.1
  · split at known
    · cases known
    · rename_i none_foreign
      cases known
      intro index member
      have inside := List.find?_eq_none.1 none_foreign index member
      simpa using inside

theorem targets_le {formula : Formula} {targets : List Nat}
    (known : request.targets formula = .ok targets) :
    ∀ index ∈ targets, index ≤ formula.numVariables := fun index member =>
  (Formula.declares_iff.1 (targets_declared known index member)).2

/-- There is room for marks on all targets. -/
theorem targets_lt_size {formula : Formula} {targets : List Nat}
    (room : formula.numVariables + 1 < Text.unsignedBound)
    (known : request.targets formula = .ok targets) (core : List Literal) :
    ∀ index ∈ targets, index < (Marked.ofCore formula.numVariables core).size :=
  fun index member =>
    Nat.lt_of_le_of_lt (targets_le known index member) (Marked.lt_size_ofCore room core)

theorem targets_lt_signedBound {formula : Formula} {targets : List Nat}
    (small : formula.numVariables < Text.signedBound)
    (known : request.targets formula = .ok targets) :
    ∀ index ∈ targets, index < Text.signedBound := fun index member =>
  Nat.lt_of_le_of_lt (targets_le known index member) small

theorem targets_of_known {formula : Formula}
    (known : ∀ index ∈ request.interest, formula.declares index = true) :
    request.targets formula =
      .ok (if request.interest = [] then formula.vars else request.interest) := by
  rw [Request.targets]
  by_cases none : request.interest = []
  · rw [if_pos none, if_pos none]
  · have all : request.interest.find? (fun index => !formula.declares index) = Option.none := by
      rw [List.find?_eq_none]
      intro index member
      rw [known index member]
      decide
    rw [if_neg none, if_neg none, all]

theorem meets_compute {formula : Formula} {targets : List Nat}
    (known : request.targets formula = .ok targets)
    (wish : Except Fault LiteralSets → Prop) :
    (ExceptT.run (request.compute formula)).Meets contract wish ↔
      contract.asks ⟨.core, formula, request.timeout⟩ ∧
        ∀ reply, contract.core formula reply → match reply with
          | .error fault => wish (.error fault)
          | .ok core =>
            (ExceptT.run (request.groups core.length (Session.start formula request.timeout)
                (.ofCore formula.numVariables core) targets)).Meets contract fun
              | .error fault => wish (.error fault)
              | .ok shown =>
                wish (.ok (.ofFormula formula (request.withCore core shown))) := by
  rw [Request.compute, known, Analysis.meets_bind]
  show Dialogue.Meets contract (ExceptT.run (_ >>= _)) wish ↔ _
  rw [Analysis.meets_bind]
  show contract.asks ⟨.core, formula, request.timeout⟩ ∧ _ ↔ _
  apply and_congr_right
  intro _
  apply forall_congr'
  intro reply
  apply imp_congr_right
  intro _
  cases reply with
  | error fault => rfl
  | ok core =>
    show Dialogue.Meets contract (ExceptT.run (_ >>= _)) wish ↔ _
    rw [Analysis.meets_bind]
    apply Dialogue.meets_congr
    intro reply
    cases reply with
    | error fault => rfl
    | ok shown => rfl

theorem meets_compute_refused {formula : Formula} {fault : Fault}
    (refused : request.targets formula = .error fault)
    (wish : Except Fault LiteralSets → Prop) :
    (ExceptT.run (request.compute formula)).Meets contract wish ↔ wish (.error fault) := by
  rw [Request.compute, refused, Analysis.meets_bind]
  rfl

end Backbone.AtomicSets
