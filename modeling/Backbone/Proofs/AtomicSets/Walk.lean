import Backbone.AtomicSets
import Backbone.Proofs.Exchanges

/-!
# The walk through the variables

What the analysis asks, whatever the replies are, and what it makes of them.  A walk goes through
the variables with the marks that were set so far; a variable that carries a mark is passed over,
any other one is probed, and then it and the variables of its group are marked.  Sessions do not
occur in a walk: each probe is about the formula with one assumption.  Nor do the options that
leave sets out: they only filter what a walk finds.

* `Probed`, `ProbedAt` — the one or two queries about a literal and its opposite, or about those of
  a variable, and the group or a fault;
* `Walk` — the queries about a list of variables, and all their groups or the first fault;
* `takes_groupOf`, `takes_groups`, `takes_compute` — the analysis does what these rules say;
* `endsWith_of_takes`, `asksCores_of_takes` — the analysis ends at the first query that fails, and
  asks for nothing but cores.
-/

namespace Backbone.AtomicSets

variable {formula : Formula} {timeout : Timeout} {session : Session} {marked : Marked}
  {request : Request} {coreSize index : Nat} {indices : List Nat} {exchanges : List Exchange}

/-! ### One variable -/

/-- The queries about a literal and the opposite one, and the group or the fault of the query that
failed.  The formula with the opposite literal is asked about only if the first reply has more than
one literal beyond the size of the core. -/
inductive Probed (formula : Formula) (timeout : Timeout) (coreSize : Nat) (marked : Marked)
    (literal opposite : Literal) : List Exchange → Except Fault (List Literal) → Prop
  | refused {fault : Fault} :
      Probed formula timeout coreSize marked literal opposite
        [.core (formula.assume [literal]) timeout (.error fault)] (.error fault)
  | alone {core : List Literal} : core.length ≤ coreSize + 1 →
      Probed formula timeout coreSize marked literal opposite
        [.core (formula.assume [literal]) timeout (.ok core)] (.ok [literal])
  | refusedAgain {core : List Literal} {fault : Fault} : coreSize + 1 < core.length →
      Probed formula timeout coreSize marked literal opposite
        [.core (formula.assume [literal]) timeout (.ok core),
          .core (formula.assume [opposite]) timeout (.error fault)] (.error fault)
  | flipped {positiveCore negativeCore : List Literal} : coreSize + 1 < positiveCore.length →
      Probed formula timeout coreSize marked literal opposite
        [.core (formula.assume [literal]) timeout (.ok positiveCore),
          .core (formula.assume [opposite]) timeout (.ok negativeCore)]
        (.ok (flippedGroup marked positiveCore negativeCore))

/-- The queries about a variable are those about its literal and the negation of that, which wrap
around if the variable is beyond the signed range. -/
def ProbedAt (formula : Formula) (timeout : Timeout) (coreSize : Nat) (marked : Marked)
    (index : Nat) : List Exchange → Except Fault (List Literal) → Prop :=
  Probed formula timeout coreSize marked (.ofIndex index) (Literal.ofIndex index).negate

theorem probedAt_iff {found : Except Fault (List Literal)} (small : index < Text.signedBound) :
    ProbedAt formula timeout coreSize marked index exchanges found ↔
      Probed formula timeout coreSize marked index (-(index : Literal)) exchanges found := by
  have var : Literal.var index < Text.signedBound := small
  rw [ProbedAt, Literal.ofIndex_of_lt small, Literal.negate_of_lt var]

/-- A probe asks one query and leaves the session as it was, so the rest goes on with that. -/
theorem takes_probe_bind {α : Type} {literal : Literal}
    {next : List Literal × Session → Analysis α} {result : Except Fault α}
    (takes : (ExceptT.run (probe session literal >>= next)).Takes exchanges result) :
    (∃ fault,
      exchanges = [.core (session.formula.assume [literal]) session.timeout (.error fault)] ∧
        result = .error fault) ∨
      ∃ core rest,
        exchanges = .core (session.formula.assume [literal]) session.timeout (.ok core) :: rest ∧
          (ExceptT.run (next (core, session))).Takes rest result := by
  have asked : (session.appendAll [literal]).formula = session.formula.assume [literal] :=
    session.formula_appendAll [literal]
  have undone : (session.appendAll [literal]).retractMany 1 = session :=
    session.retractMany_appendAll [literal]
  obtain ⟨reply, rest, rfl, takes⟩ := takes
  cases reply with
  | error fault =>
    obtain ⟨rfl, rfl⟩ := takes
    refine .inl ⟨fault, ?_, rfl⟩
    show [Exchange.core (session.appendAll [literal]).formula session.timeout _] = _
    rw [asked]
  | ok core =>
    refine .inr ⟨core, rest, ?_, ?_⟩
    · show Exchange.core (session.appendAll [literal]).formula session.timeout _ :: _ = _
      rw [asked]
    · rw [← undone]
      exact takes

theorem takes_groupOf {result : Except Fault (List Literal × Session)}
    (takes : (ExceptT.run (groupOf session coreSize marked index)).Takes exchanges result) :
    ∃ found, ProbedAt session.formula session.timeout coreSize marked index exchanges found ∧
      result = found.map (·, session) := by
  rw [groupOf] at takes
  rcases takes_probe_bind takes with ⟨fault, rfl, rfl⟩ | ⟨core, rest, rfl, second⟩
  · exact ⟨.error fault, .refused, rfl⟩
  · change Dialogue.Takes (ExceptT.run (ite (core.length ≤ coreSize + 1) _ _)) rest result at second
    by_cases small : core.length ≤ coreSize + 1
    · rw [if_pos small] at second
      obtain ⟨rfl, rfl⟩ := second
      exact ⟨.ok [.ofIndex index], .alone small, rfl⟩
    · rw [if_neg small] at second
      rw [Nat.not_le] at small
      rcases takes_probe_bind second with ⟨fault, rfl, rfl⟩ | ⟨negativeCore, rest, rfl, last⟩
      · exact ⟨.error fault, .refusedAgain small, rfl⟩
      · have ends : rest = [] ∧
            result = .ok (flippedGroup marked core negativeCore, session) := by
          change Dialogue.Takes
            (ExceptT.run (ite (flippedGroup marked core negativeCore = []) _ _)) rest result at last
          -- the warning about an empty group changes nothing else
          split at last
          · exact last
          · exact last
        obtain ⟨rfl, rfl⟩ := ends
        exact ⟨.ok _, .flipped small, rfl⟩

/-! ### All variables -/

/-- The queries about the variables, and all their groups or the fault of the query that failed. -/
inductive Walk (formula : Formula) (timeout : Timeout) (coreSize : Nat) :
    Marked → List Nat → List Exchange → Except Fault (List (List Literal)) → Prop
  | finished {marked : Marked} : Walk formula timeout coreSize marked [] [] (.ok [])
  | pass {marked : Marked} {index : Nat} {indices : List Nat} {exchanges : List Exchange}
      {found : Except Fault (List (List Literal))} :
      marked.contains index = true →
      Walk formula timeout coreSize marked indices exchanges found →
      Walk formula timeout coreSize marked (index :: indices) exchanges found
  | refused {marked : Marked} {index : Nat} {indices : List Nat} {exchanges : List Exchange}
      {fault : Fault} :
      marked.contains index = false →
      ProbedAt formula timeout coreSize marked index exchanges (.error fault) →
      Walk formula timeout coreSize marked (index :: indices) exchanges (.error fault)
  | visit {marked : Marked} {index : Nat} {indices : List Nat} {first rest : List Exchange}
      {group : List Literal} {found : Except Fault (List (List Literal))} :
      marked.contains index = false →
      ProbedAt formula timeout coreSize marked index first (.ok group) →
      Walk formula timeout coreSize (marked.mark (index :: Literals.vars group)) indices rest
        found →
      Walk formula timeout coreSize marked (index :: indices) (first ++ rest)
        (found.map (group :: ·))

theorem takes_groups {result : Except Fault (List (List Literal))}
    (takes : (ExceptT.run (request.groups coreSize session marked indices)).Takes exchanges
      result) :
    ∃ found, Walk session.formula session.timeout coreSize marked indices exchanges found ∧
      result = found.map (List.filter request.shows) := by
  induction indices generalizing marked exchanges result with
  | nil =>
    obtain ⟨rfl, rfl⟩ := takes
    exact ⟨.ok [], .finished, rfl⟩
  | cons index indices ih =>
    rw [Request.groups] at takes
    cases hit : marked.contains index with
    | true =>
      rw [if_pos hit] at takes
      obtain ⟨found, walk, rfl⟩ := ih takes
      exact ⟨found, .pass hit walk, rfl⟩
    | false =>
      rw [if_neg (by simp [hit])] at takes
      rcases Analysis.takes_bind takes with
        ⟨fault, begun, rfl⟩ | ⟨first, ⟨group, left⟩, rest, rfl, begun, takes⟩
      · obtain ⟨found, probed, same⟩ := takes_groupOf begun
        cases found with
        | ok group => cases same
        | error fault =>
          cases same
          exact ⟨.error fault, .refused hit probed, rfl⟩
      · obtain ⟨found, probed, same⟩ := takes_groupOf begun
        cases found with
        | error fault => cases same
        | ok group =>
          cases same
          obtain ⟨shown, later, rfl⟩ := Analysis.takes_map takes
          obtain ⟨found, walk, rfl⟩ := ih later
          refine ⟨found.map (group :: ·), .visit hit probed walk, ?_⟩
          cases found with
          | error fault => rfl
          | ok groups =>
            show Except.ok (if request.shows group = true then _ else _) =
              Except.ok (List.filter request.shows (group :: groups))
            rw [List.filter_cons]

/-! ### The analysis -/

/-- The analysis asks about the formula and, if it learns the core, goes on a walk through the
targets with the variables of the core marked. -/
theorem takes_compute {targets : List Nat} {result : Except Fault LiteralSets}
    (known : request.targets formula = .ok targets)
    (takes : (ExceptT.run (request.compute formula)).Takes exchanges result) :
    (∃ fault, exchanges = [.core formula request.timeout (.error fault)] ∧
      result = .error fault) ∨
      ∃ core rest found, exchanges = .core formula request.timeout (.ok core) :: rest ∧
        Walk formula request.timeout core.length (.ofCore formula.numVariables core) targets rest
          found ∧
        result = found.map fun groups =>
          .ofFormula formula (request.withCore core (groups.filter request.shows)) := by
  rw [Request.compute, known] at takes
  obtain ⟨reply, rest, rfl, continued⟩ := takes
  cases reply with
  | error fault =>
    obtain ⟨rfl, rfl⟩ := continued
    exact .inl ⟨fault, rfl, rfl⟩
  | ok core =>
    obtain ⟨shown, begun, rfl⟩ := Analysis.takes_map continued
    obtain ⟨found, walk, rfl⟩ := takes_groups begun
    refine .inr ⟨core, rest, found, rfl, walk, ?_⟩
    cases found with
    | error fault => rfl
    | ok groups => rfl

theorem takes_compute_refused {fault : Fault} {result : Except Fault LiteralSets}
    (refused : request.targets formula = .error fault)
    (takes : (ExceptT.run (request.compute formula)).Takes exchanges result) :
    exchanges = [] ∧ result = .error fault := by
  rw [Request.compute, refused] at takes
  exact takes

/-! ### Queries that fail -/

theorem Probed.endsWith {literal opposite : Literal} {found : Except Fault (List Literal)}
    (probed : Probed formula timeout coreSize marked literal opposite exchanges found) :
    EndsWith exchanges found := by
  cases probed with
  | refused => exact ⟨[], _, rfl, fun _ member => absurd member List.not_mem_nil, rfl⟩
  | alone => exact List.forall_mem_singleton.2 rfl
  | refusedAgain => exact ⟨[_], _, rfl, List.forall_mem_singleton.2 rfl, rfl⟩
  | flipped => exact List.forall_mem_cons.2 ⟨rfl, List.forall_mem_singleton.2 rfl⟩

theorem Walk.endsWith {found : Except Fault (List (List Literal))}
    (walk : Walk formula timeout coreSize marked indices exchanges found) :
    EndsWith exchanges found := by
  induction walk with
  | finished => exact fun _ member => absurd member List.not_mem_nil
  | pass _ _ ih => exact ih
  | refused _ probed => exact probed.endsWith
  | visit _ probed _ ih => exact (endsWith_map.2 ih).after probed.endsWith

/-- The analysis ends at the first query that fails. -/
theorem endsWith_of_takes {targets : List Nat} {result : Except Fault LiteralSets}
    (known : request.targets formula = .ok targets)
    (takes : (ExceptT.run (request.compute formula)).Takes exchanges result) :
    EndsWith exchanges result := by
  rcases takes_compute known takes with ⟨fault, rfl, rfl⟩ | ⟨core, rest, found, rfl, walk, rfl⟩
  · exact ⟨[], _, rfl, fun _ member => absurd member List.not_mem_nil, rfl⟩
  · exact (endsWith_map.2 walk.endsWith).after (List.forall_mem_singleton.2 rfl)

end Backbone.AtomicSets
