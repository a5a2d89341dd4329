import Backbone.Proofs.AtomicSets.Steps
import Backbone.Proofs.Enumeration.Core
import Backbone.Proofs.Equivalence

/-!
# Atomic sets are exact over an exact oracle

If each reply of the oracle is the whole core, in any order, or rightly that there is no solution,
then the analysis finds the core and the class of each variable of interest, once.  The loop keeps
one invariant: the marked variables are those with only one value and those that go together with
a variable visited before.

* `Leads` — a variable with both values that goes together with no earlier one;
* `Classes` — the classes met on a walk through the variables of interest;
* `Covers` — the invariant of the marks, kept by `Covers.pass` and `Covers.lead`;
* `meets_compute_exact` — every run ends as `IsExact` says, and no probe is without solutions;
* `compute_exact` — the same of the run with an oracle, in full.
-/

namespace Backbone.AtomicSets

variable {σ : Type} {session : Session} {marked : Marked} {request : Request}
  {formula : Formula} {coreSize index : Nat} {earlier indices : List Nat}
  {core group : List Literal}

/-! ### What is to be found -/

/-- The variable has both values, and it goes together with none of the earlier ones. -/
def Leads (formula : Formula) (earlier : List Nat) (index : Nat) : Prop :=
  ¬formula.Fixed index ∧ ∀ other ∈ earlier, ¬formula.Coupled other index

/-- The classes of the variables, one for each that leads when its turn comes. -/
inductive Classes (formula : Formula) : List Nat → List Nat → List (List Literal) → Prop
  | nil {earlier : List Nat} : Classes formula earlier [] []
  | pass {earlier indices : List Nat} {index : Nat} {classes : List (List Literal)} :
      ¬Leads formula earlier index → Classes formula (index :: earlier) indices classes →
      Classes formula earlier (index :: indices) classes
  | lead {earlier indices : List Nat} {index : Nat} {members : List Literal}
      {classes : List (List Literal)} :
      Leads formula earlier index → formula.IsClass index members →
      Classes formula (index :: earlier) indices classes →
      Classes formula earlier (index :: indices) (members :: classes)

/-- What an analysis ends with if all replies are exact. -/
inductive IsExact (request : Request) (formula : Formula) : Except Fault LiteralSets → Prop
  | refused {fault : Fault} : request.targets formula = .error fault →
      IsExact request formula (.error fault)
  | unsatisfiable {targets : List Nat} : request.targets formula = .ok targets →
      ¬formula.Satisfiable → IsExact request formula (.error .unsatisfiable)
  | found {targets : List Nat} {core : List Literal} {classes : List (List Literal)} :
      request.targets formula = .ok targets → formula.Satisfiable → formula.IsCore core →
      Classes formula [] targets classes →
      IsExact request formula
        (.ok (.ofFormula formula (request.withCore core (classes.filter request.shows))))

/-! ### The marks -/

/-- A mark is on exactly those variables of the formula that do not lead any more. -/
def Covers (formula : Formula) (earlier : List Nat) (marked : Marked) : Prop :=
  marked.size = formula.numVariables + 1 ∧
    ∀ index, formula.declares index = true →
      (marked.contains index = true ↔ ¬Leads formula earlier index)

/-- Of two variables that go together, either both lead or none. -/
theorem Leads.of_coupled {a b : Nat} (nonzeroA : (a : Literal) ≠ 0) (nonzeroB : (b : Literal) ≠ 0)
    (coupled : formula.Coupled a b) (leads : Leads formula earlier b) :
    Leads formula earlier a := by
  refine ⟨fun fixed => leads.1 (fixed.of_coupled nonzeroA nonzeroB coupled), ?_⟩
  intro other member coupled'
  exact leads.2 other member (coupled'.trans nonzeroA nonzeroB coupled)

theorem leads_cons_iff {other : Nat} :
    Leads formula (index :: earlier) other ↔
      Leads formula earlier other ∧ ¬formula.Coupled index other := by
  rw [Leads, Leads, List.forall_mem_cons, and_assoc, and_congr_right_iff]
  intro _
  exact and_comm

theorem covers_core (room : formula.numVariables + 1 < Text.unsignedBound)
    (isCore : formula.IsCore core) :
    Covers formula [] (.ofCore formula.numVariables core) := by
  refine ⟨Marked.size_ofCore room core, ?_⟩
  intro index declared
  have leads : ¬Leads formula [] index ↔ formula.Fixed index := by simp [Leads]
  rw [leads, Marked.contains_ofCore room (Formula.declares_iff.1 declared).2, Literals.vars,
    List.mem_map]
  constructor
  · intro given
    obtain ⟨literal, member, rfl⟩ := given
    have entails := ((isCore.2 literal).1 member).2
    rcases Literal.eq_or_eq_neg_of_var_eq (rfl : literal.var = literal.var) with same | opposite
    · exact .inl (same ▸ entails)
    · exact .inr (opposite ▸ entails)
  · intro given
    rcases given with entails | entails
    · exact ⟨index, (isCore.2 _).2 ⟨declared, entails⟩, rfl⟩
    · refine ⟨-(index : Literal), (isCore.2 _).2 ⟨?_, entails⟩, Literal.var_neg _⟩
      rw [Literal.var_neg]
      exact declared

/-- A variable that does not lead covers nothing new. -/
theorem Covers.pass (covers : Covers formula earlier marked)
    (declared : formula.declares index = true) (follows : ¬Leads formula earlier index) :
    Covers formula (index :: earlier) marked := by
  refine ⟨covers.1, ?_⟩
  intro other known
  have same : Leads formula (index :: earlier) other ↔ Leads formula earlier other := by
    rw [leads_cons_iff]
    apply and_iff_left_of_imp
    intro leads coupled
    exact follows (leads.of_coupled (Formula.cast_ne_zero_of_declares declared)
      (Formula.cast_ne_zero_of_declares known) coupled)
  rw [covers.2 other known, same]

/-- A class that was found covers the variables that go together with its own. -/
theorem Covers.lead (covers : Covers formula earlier marked)
    (declared : formula.declares index = true) (isClass : formula.IsClass index group) :
    Covers formula (index :: earlier) (marked.mark (index :: Literals.vars group)) := by
  refine ⟨covers.1, ?_⟩
  intro other known
  have small : other < marked.size := by
    rw [covers.1]
    exact Nat.lt_succ_of_le (Formula.declares_iff.1 known).2
  have inGroup : other ∈ index :: Literals.vars group ↔ formula.Coupled index other := by
    rw [List.mem_cons, isClass.mem_vars_iff declared known]
    apply or_iff_right_of_imp
    intro same
    subst same
    exact .inl (.refl _)
  rw [Marked.contains_mark, covers.2 other known, leads_cons_iff, inGroup, not_and_or, not_not,
    and_iff_right small]
  exact or_comm

/-! ### The steps with exact replies -/

/-- The queries of the analysis: about the formula, or about the formula with one assumption on its
variables, and never about a formula without solutions unless the given one has none. -/
structure IsProbe (formula : Formula) (limit : Timeout) (query : Query) : Prop where
  question : query.question = .core
  timeout : query.timeout = limit
  about : query.formula = formula ∨
    ∃ literal : Literal, formula.declares literal.var = true ∧
      query.formula = formula.assume [literal]
  satisfiable : formula.Satisfiable → query.formula.Satisfiable

theorem IsProbe.elim {timeout : Timeout} {query : Query} (probe : IsProbe formula timeout query)
    (property : Formula → Prop) (given : property formula)
    (assumed : ∀ literal : Literal, formula.declares literal.var = true →
      property (formula.assume [literal])) : property query.formula := by
  rcases probe.about with same | ⟨literal, declared, extended⟩
  · rw [same]
    exact given
  · rw [extended]
    exact assumed literal declared

/-- All replies are exact. -/
def exactReplies (formula : Formula) (timeout : Timeout) : Contract where
  asks := IsProbe formula timeout
  core asked reply := asked.IsCoreReply reply
  solve _ _ := True

theorem isProbe_assume {literal : Literal} {timeout : Timeout}
    (declared : formula.declares literal.var = true) (open_ : ¬formula.Entails (-literal)) :
    IsProbe formula timeout ⟨.core, formula.assume [literal], timeout⟩ where
  question := rfl
  timeout := rfl
  about := .inr ⟨literal, declared, rfl⟩
  satisfiable _ := Formula.satisfiable_assume (Formula.ne_zero_of_declares declared) open_

/-- A variable that leads has no marked variable in its class, so the marks take nothing away. -/
theorem isClass_flippedGroup {positiveCore negativeCore : List Literal}
    (small : formula.numVariables < Text.signedBound)
    (covers : Covers formula earlier marked) (declared : formula.declares index = true)
    (leads : Leads formula earlier index)
    (positive : (formula.assume [(index : Literal)]).IsCore positiveCore)
    (negative : (formula.assume [-(index : Literal)]).IsCore negativeCore) :
    formula.IsClass index (flippedGroup marked positiveCore negativeCore) := by
  have isClass := Formula.isClass_of_flipped small declared positive negative
  have unmarked : flippedGroup marked positiveCore negativeCore =
      Literals.flipped positiveCore negativeCore := by
    rw [flippedGroup, List.filter_eq_self]
    intro literal member
    have known := ((isClass.2 literal).1 member).1
    have nonzero := Formula.cast_ne_zero_of_declares declared
    have nonzero' := Formula.cast_ne_zero_of_declares known
    have coupled : formula.Coupled index literal.var :=
      (isClass.mem_vars_iff declared known).1 (List.mem_map.2 ⟨literal, member, rfl⟩)
    have leads' := leads.of_coupled nonzero' nonzero (coupled.symm nonzero nonzero')
    rw [Bool.not_eq_true', ← Bool.not_eq_true, covers.2 _ known, not_not]
    exact leads'
  rw [unmarked]
  exact isClass

theorem meets_groupOf_exact (small : session.formula.numVariables < Text.signedBound)
    (declared : session.formula.declares index = true)
    (whole : session.formula.IsCore core) (covers : Covers session.formula earlier marked)
    (leads : Leads session.formula earlier index) :
    (ExceptT.run (groupOf session core.length marked index)).Meets
      (exactReplies session.formula session.timeout) fun
        | .error _ => False
        | .ok (group, left) => left = session ∧ session.formula.IsClass index group := by
  have loose := leads.1
  have declared' : session.formula.declares (Literal.var (-(index : Literal))) = true := by
    rw [Literal.var_neg]
    exact declared
  have first : ¬session.formula.Entails (-(index : Literal)) := fun entails =>
    loose (.inr entails)
  have second : ¬session.formula.Entails (-(-(index : Literal))) := by
    rw [Int.neg_neg]
    exact fun entails => loose (.inl entails)
  have positive : IsProbe session.formula session.timeout
      ⟨.core, session.formula.assume [(index : Literal)], session.timeout⟩ :=
    isProbe_assume declared first
  have negative : IsProbe session.formula session.timeout
      ⟨.core, session.formula.assume [-(index : Literal)], session.timeout⟩ :=
    isProbe_assume declared' second
  apply meets_groupOf (Formula.ofIndex_of_declares small declared)
    (Formula.negate_of_declares small declared) positive negative
  · -- neither probe is without solutions, so no exact reply to it is a fault
    have satisfiable : ∀ probed ∈ [(index : Literal), -(index : Literal)],
        (session.formula.assume [probed]).Satisfiable := by
      rw [List.forall_mem_cons, List.forall_mem_singleton]
      exact ⟨Formula.satisfiable_assume (Formula.cast_ne_zero_of_declares declared) first,
        Formula.satisfiable_assume (Formula.ne_zero_of_declares declared') second⟩
    intro probed member fault reply
    have satisfiable := satisfiable probed member
    cases reply with
    | unsatisfiable hopeless => exact hopeless satisfiable
  · intro positiveCore reply small
    cases reply with
    | core _ isCore => exact ⟨rfl, Formula.isClass_singleton declared loose whole isCore small⟩
  · intro positiveCore negativeCore reply reply'
    cases reply with
    | core _ isCore =>
      cases reply' with
      | core _ isCore' =>
        exact ⟨rfl, isClass_flippedGroup small covers declared leads isCore isCore'⟩

/-- What is shown of the classes met on the way, which marks and groups never disagree about. -/
theorem meets_groups_exact (small : session.formula.numVariables < Text.signedBound)
    (known : ∀ index ∈ indices, session.formula.declares index = true)
    (whole : session.formula.IsCore core) (covers : Covers session.formula earlier marked) :
    (ExceptT.run (request.groups core.length session marked indices)).Meets
      (exactReplies session.formula session.timeout) fun
        | .error _ => False
        | .ok shown => ∃ classes, Classes session.formula earlier indices classes ∧
            shown = classes.filter request.shows := by
  induction indices generalizing earlier marked with
  | nil => exact ⟨[], .nil, rfl⟩
  | cons index indices ih =>
    have declared := known index List.mem_cons_self
    have later : ∀ other ∈ indices, session.formula.declares other = true :=
      fun other member => known other (List.mem_cons_of_mem _ member)
    cases hit : marked.contains index with
    | true =>
      have follows := (covers.2 index declared).1 hit
      rw [meets_groups_skip hit]
      apply (ih later (covers.pass declared follows)).mono
      intro result wished
      cases result with
      | error fault => exact wished
      | ok shown =>
        obtain ⟨classes, walk, rfl⟩ := wished
        exact ⟨classes, .pass follows walk, rfl⟩
    | false =>
      have leads : Leads session.formula earlier index := by
        by_contra follows
        rw [(covers.2 index declared).2 follows] at hit
        cases hit
      rw [meets_groups_visit hit]
      apply (meets_groupOf_exact small declared whole covers leads).mono
      intro result found
      cases result with
      | error fault => exact found
      | ok found' =>
        obtain ⟨group, left⟩ := found'
        obtain ⟨same, isClass⟩ := found
        subst same
        apply (ih later (covers.lead declared isClass)).mono
        intro result wished
        cases result with
        | error fault => exact wished
        | ok shown =>
          obtain ⟨classes, walk, rfl⟩ := wished
          refine ⟨group :: classes, .lead leads isClass walk, ?_⟩
          rw [List.filter_cons]

/-! ### The analysis with exact replies -/

/-- Every run with exact replies ends as it should. -/
theorem meets_compute_exact (request : Request)
    (small : formula.numVariables < Text.signedBound) :
    (ExceptT.run (request.compute formula)).Meets (exactReplies formula request.timeout)
      (IsExact request formula) := by
  cases targets : request.targets formula with
  | error fault =>
    rw [meets_compute_refused targets]
    exact .refused targets
  | ok known =>
    rw [meets_compute targets]
    refine ⟨⟨rfl, rfl, .inl rfl, id⟩, ?_⟩
    intro reply exact_
    cases exact_ with
    | unsatisfiable hopeless => exact .unsatisfiable targets hopeless
    | @core core satisfiable whole =>
      have covers := covers_core (Marked.room_of_lt small) whole
      have whole' : (Session.start formula request.timeout).formula.IsCore core := whole
      apply (meets_groups_exact small (targets_declared targets) whole' covers).mono
      intro result wished
      cases result with
      | error fault => exact wished.elim
      | ok shown =>
        obtain ⟨classes, walk, rfl⟩ := wished
        exact .found targets satisfiable whole walk

/-- With variables in the signed range and an oracle whose replies are exact, in any order and in
any state, the analysis finds that there is no solution, or it finds the core and, on its walk
through the variables of interest, the class of each that leads; it never asks about a formula
without solutions then. -/
theorem compute_exact {oracle : Oracle (StateM σ)}
    (exact_ : ∀ (asked : Formula) (timeout : Timeout) (state : σ), asked.WellFormed →
      asked.IsCoreReply ((oracle.core asked timeout).run state).1)
    (request : Request) (formula : Formula) (state : σ)
    (small : formula.numVariables < Text.signedBound) (wellFormed : formula.WellFormed)
    (known : ∀ index ∈ request.interest, formula.declares index = true) :
    (¬formula.Satisfiable →
      ((request.compute formula).held oracle state).result = .error .unsatisfiable) ∧
    (formula.Satisfiable →
      (∀ query ∈ ((request.compute formula).held oracle state).queries,
        query.formula.Satisfiable) ∧
      ∃ core classes, formula.IsCore core ∧
        Classes formula []
          (if request.interest = [] then formula.vars else request.interest) classes ∧
        ((request.compute formula).held oracle state).result =
          .ok (.ofFormula formula ((if request.omitCore then [] else [core]) ++
            classes.filter fun members => !(request.omitSingles && members.length == 1)))) := by
  have targets := targets_of_known known
  have keeps : oracle.Keeps (exactReplies formula request.timeout) := by
    refine ⟨?_, fun _ _ _ _ => trivial⟩
    intro asked timeout state probe
    exact exact_ asked timeout state
      (probe.elim Formula.WellFormed wellFormed fun _ declared => wellFormed.assume declared)
  obtain ⟨ended, probes⟩ :=
    Analysis.held_of_meets keeps (meets_compute_exact request small) state
  generalize ((request.compute formula).held oracle state).result = result at ended ⊢
  cases ended with
  | refused refused =>
    rw [targets] at refused
    cases refused
  | unsatisfiable _ hopeless =>
    exact ⟨fun _ => rfl, fun satisfiable => absurd satisfiable hopeless⟩
  | @found targets' core classes targets'' satisfiable isCore walk =>
    refine ⟨fun hopeless => absurd satisfiable hopeless, fun _ => ⟨?_, core, classes, isCore, ?_⟩⟩
    · intro query member
      exact (probes query member).satisfiable satisfiable
    · rw [targets] at targets''
      cases targets''
      refine ⟨walk, ?_⟩
      have shows : request.shows =
          fun members => !(request.omitSingles && members.length == 1) := by
        funext members
        rw [Request.shows, Bool.not_and]
        rfl
      rw [Request.withCore, shows]
      cases request.omitCore with
      | false => rfl
      | true => rfl

/-! ### An oracle that turns its answers around -/

/-- The core by enumeration, backwards at every other call. -/
def turnedCore (calls : Nat) (formula : Formula) : Except Fault (List Literal) :=
  let reply := Id.run (Enumeration.core none formula)
  if calls % 2 = 0 then reply else reply.map List.reverse

theorem isCoreReply_turnedCore (calls : Nat) (wellFormed : formula.WellFormed) :
    formula.IsCoreReply (turnedCore calls formula) := by
  have reply := Enumeration.core_isCoreReply wellFormed
  rw [turnedCore]
  split
  · exact reply
  · exact reply.reverse

/-- An oracle by enumeration that counts its calls and lists every other core backwards. -/
def turningOracle : Oracle (StateM Nat) where
  core formula _ := modifyGet fun calls => (turnedCore calls formula, calls + 1)
  solve _ _ := return .error .indeterminate

theorem turningOracle_exact (asked : Formula) (timeout : Timeout) (state : Nat)
    (wellFormed : asked.WellFormed) :
    asked.IsCoreReply ((turningOracle.core asked timeout).run state).1 :=
  isCoreReply_turnedCore state wellFormed

/-- The variables are looked at downwards here, and the group of the third takes in the first. -/
theorem compute_exact_turningOracle :
    (Formula.mk 4 [[-1, -3], [1, 3], [4]] .empty).Satisfiable ∧
      ((Request.compute ⟨[3, 2, 1, 4, 3], false, true, 0⟩
          ⟨4, [[-1, -3], [1, 3], [4]], .empty⟩).held turningOracle 0).result =
        .ok ⟨[[4], [3, -1]], 4, .empty⟩ ∧
      ∃ core classes, (Formula.mk 4 [[-1, -3], [1, 3], [4]] .empty).IsCore core ∧
        Classes ⟨4, [[-1, -3], [1, 3], [4]], .empty⟩ [] [3, 2, 1, 4, 3] classes ∧
        core :: classes.filter (fun members => !(members.length == 1)) = [[4], [3, -1]] := by
  have satisfiable : (Formula.mk 4 [[-1, -3], [1, 3], [4]] .empty).Satisfiable :=
    ⟨fun index => index == 1 || index == 4, by decide⟩
  have finished : ((Request.compute ⟨[3, 2, 1, 4, 3], false, true, 0⟩
      ⟨4, [[-1, -3], [1, 3], [4]], .empty⟩).held turningOracle 0).result =
        .ok ⟨[[4], [3, -1]], 4, .empty⟩ := rfl
  obtain ⟨-, core, classes, isCore, walk, result⟩ :=
    (compute_exact turningOracle_exact ⟨[3, 2, 1, 4, 3], false, true, 0⟩
      ⟨4, [[-1, -3], [1, 3], [4]], .empty⟩ 0 (by decide) (by decide) (by decide)).2 satisfiable
  rw [finished] at result
  refine ⟨satisfiable, finished, core, classes, isCore, walk, ?_⟩
  have sets := congrArg (fun result => result.toOption.map LiteralSets.sets) result
  exact (Option.some.inj sets).symm

end Backbone.AtomicSets
