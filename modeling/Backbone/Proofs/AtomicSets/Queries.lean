import Mathlib.Data.List.Dedup
import Mathlib.Data.List.Perm.Subperm
import Backbone.Proofs.AtomicSets.Disjointness
import Backbone.Proofs.AtomicSets.Exactness

/-!
# The queries of the analysis

Which formulas an oracle is asked about, in which order, and what its faults do, for any oracle.
The marks matter here for one thing only: a variable that was probed carries one, so it is not
probed again.

* `Probes` — the queries about some variables, one variable after the other;
* `Walk.probes` — a walk probes some of its variables in their order, none of them twice;
* `Probed.literals`, `Probes.literals` — each of their queries adds one assumption to the formula,
  a different one each time;
* `Disciplined` — how the queries of the analysis and its result belong together;
* `compute_disciplined` — a variable that the formula has not is refused before anything is asked,
  and otherwise the analysis is disciplined.
-/

namespace Backbone.AtomicSets

variable {σ : Type} {formula : Formula} {timeout : Timeout} {marked : Marked} {request : Request}
  {coreSize index : Nat} {indices probed targets : List Nat} {exchanges : List Exchange}

/-! ### Probes one after the other -/

/-- The queries about the variables in turn; one that fails is the last. -/
inductive Probes (formula : Formula) (timeout : Timeout) (coreSize : Nat) :
    List Nat → List Exchange → Prop
  | finished : Probes formula timeout coreSize [] []
  | refused {marked : Marked} {index : Nat} {exchanges : List Exchange} {fault : Fault} :
      Probed formula timeout coreSize marked index (-(index : Literal)) exchanges (.error fault) →
      Probes formula timeout coreSize [index] exchanges
  | next {marked : Marked} {index : Nat} {indices : List Nat} {first rest : List Exchange}
      {group : List Literal} :
      Probed formula timeout coreSize marked index (-(index : Literal)) first (.ok group) →
      Probes formula timeout coreSize indices rest →
      Probes formula timeout coreSize (index :: indices) (first ++ rest)

/-- A variable that was probed carries a mark for the rest of the walk. -/
theorem Walk.probes {found : Except Fault (List (List Literal))}
    (walk : Walk formula timeout coreSize marked indices exchanges found)
    (small : ∀ index ∈ indices, index < Text.signedBound)
    (within : ∀ index ∈ indices, index < marked.size) :
    ∃ probed, probed.Nodup ∧ probed.Sublist indices ∧
      (∀ index ∈ probed, marked.contains index = false) ∧
      Probes formula timeout coreSize probed exchanges := by
  induction walk with
  | finished => exact ⟨[], .nil, .slnil, fun _ member => absurd member List.not_mem_nil, .finished⟩
  | pass _ _ ih =>
    rw [List.forall_mem_cons] at small within
    obtain ⟨probed, nodup, sublist, unmarked, probes⟩ := ih small.2 within.2
    exact ⟨probed, nodup, sublist.cons _, unmarked, probes⟩
  | @refused marked index indices exchanges fault fresh refused =>
    have below := small index List.mem_cons_self
    refine ⟨[index], List.nodup_singleton index, ?_, ?_, .refused ((probedAt_iff below).1 refused)⟩
    · exact List.singleton_sublist.2 List.mem_cons_self
    · exact List.forall_mem_singleton.2 fresh
  | @visit marked index indices first rest group found fresh answered _ ih =>
    rw [List.forall_mem_cons] at small within
    obtain ⟨probed, nodup, sublist, unmarked, probes⟩ := ih small.2 within.2
    have answered := (probedAt_iff small.1).1 answered
    have later : ∀ other ∈ probed, other ≠ index ∧ marked.contains other = false := by
      intro other member
      have clear := unmarked other member
      rw [← Bool.not_eq_true, Marked.contains_mark, not_or, Bool.not_eq_true] at clear
      refine ⟨?_, clear.2⟩
      intro same
      exact clear.1 ⟨same ▸ within.1, same ▸ List.mem_cons_self⟩
    refine ⟨index :: probed, ?_, sublist.cons_cons index, ?_, .next answered probes⟩
    · exact List.nodup_cons.2 ⟨fun member => (later index member).1 rfl, nodup⟩
    · exact List.forall_mem_cons.2 ⟨fresh, fun other member => (later other member).2⟩

/-! ### Assumptions -/

/-- The query for the core of the formula under one assumption. -/
def probeQuery (formula : Formula) (timeout : Timeout) (literal : Literal) : Query :=
  ⟨.core, formula.assume [literal], timeout⟩

/-- A variable is probed by at most two queries, under assumptions with different signs. -/
theorem Probed.literals {found : Except Fault (List Literal)} (nonzero : index ≠ 0)
    (probed : Probed formula timeout coreSize marked index (-(index : Literal)) exchanges found) :
    ∃ literals : List Literal,
      exchanges.map Exchange.query = literals.map (probeQuery formula timeout) ∧
      literals.Nodup ∧ literals.length ≤ 2 ∧ ∀ literal ∈ literals, literal.var = index := by
  have positive : (index : Literal).var = index := Int.natAbs_natCast index
  have negative : (-(index : Literal)).var = index := (Literal.var_neg _).trans positive
  have differ : (index : Literal) ≠ -(index : Literal) := by
    simp only [Literal] at *
    omega
  have once : [(index : Literal)].Nodup ∧ [(index : Literal)].length ≤ 2 ∧
      ∀ literal ∈ [(index : Literal)], literal.var = index :=
    ⟨List.nodup_singleton _, Nat.le_succ 1, List.forall_mem_singleton.2 positive⟩
  have twice : [(index : Literal), -(index : Literal)].Nodup ∧
      [(index : Literal), -(index : Literal)].length ≤ 2 ∧
      ∀ literal ∈ [(index : Literal), -(index : Literal)], literal.var = index := by
    refine ⟨List.nodup_cons.2 ⟨?_, List.nodup_singleton _⟩, Nat.le_refl _, ?_⟩
    · rwa [List.mem_singleton]
    · exact List.forall_mem_cons.2 ⟨positive, List.forall_mem_singleton.2 negative⟩
  cases probed with
  | refused => exact ⟨[(index : Literal)], rfl, once⟩
  | alone => exact ⟨[(index : Literal)], rfl, once⟩
  | refusedAgain => exact ⟨[(index : Literal), -(index : Literal)], rfl, twice⟩
  | flipped => exact ⟨[(index : Literal), -(index : Literal)], rfl, twice⟩

theorem Probes.literals (probes : Probes formula timeout coreSize probed exchanges)
    (nodup : probed.Nodup) (nonzero : ∀ index ∈ probed, index ≠ 0) :
    ∃ literals : List Literal,
      exchanges.map Exchange.query = literals.map (probeQuery formula timeout) ∧
      literals.Nodup ∧ literals.length ≤ 2 * probed.length ∧
      ∀ literal ∈ literals, literal.var ∈ probed := by
  induction probes with
  | finished =>
    exact ⟨[], rfl, .nil, Nat.le_refl _, fun _ member => absurd member List.not_mem_nil⟩
  | refused refused =>
    obtain ⟨literals, asked, distinct, few, about⟩ :=
      refused.literals (nonzero _ List.mem_cons_self)
    exact ⟨literals, asked, distinct, few, fun literal member =>
      List.mem_singleton.2 (about literal member)⟩
  | @next marked index indices first rest group answered _ ih =>
    rw [List.nodup_cons] at nodup
    rw [List.forall_mem_cons] at nonzero
    obtain ⟨literals, asked, distinct, few, about⟩ := answered.literals nonzero.1
    obtain ⟨later, asked', distinct', few', about'⟩ := ih nodup.2 nonzero.2
    refine ⟨literals ++ later, ?_, ?_, ?_, ?_⟩
    · rw [List.map_append, List.map_append, asked, asked']
    · refine List.nodup_append.2 ⟨distinct, distinct', ?_⟩
      intro literal member other member' same
      subst same
      exact nodup.1 (about literal member ▸ about' literal member')
    · rw [List.length_append, List.length_cons]
      omega
    · refine List.forall_mem_append.2 ⟨?_, ?_⟩
      · exact fun literal member => about literal member ▸ List.mem_cons_self
      · exact fun literal member => List.mem_cons_of_mem _ (about' literal member)

/-! ### The whole analysis -/

/-- The formula is asked about first, and then it is probed with the variables, if there was a
reply. -/
inductive Asked (formula : Formula) (timeout : Timeout) : List Nat → List Exchange → Prop
  | refused {fault : Fault} : Asked formula timeout [] [.core formula timeout (.error fault)]
  | answered {core : List Literal} {probed : List Nat} {rest : List Exchange} :
      Probes formula timeout core.length probed rest →
      Asked formula timeout probed (.core formula timeout (.ok core) :: rest)

/-- How the queries of the analysis and its result belong together. -/
structure Disciplined (request : Request) (formula : Formula) (targets : List Nat)
    (exchanges : List Exchange) (result : Except Fault LiteralSets) : Prop where
  /-- The formula comes first, then some of the targets in their order, none of them twice. -/
  inTurn : ∃ probed, probed.Nodup ∧ probed.Sublist targets ∧
    Asked formula request.timeout probed exchanges
  /-- No query is about a formula with two assumptions. -/
  oneAssumption : ∀ exchange ∈ exchanges,
    exchange.query = ⟨.core, formula, request.timeout⟩ ∨
      ∃ literal : Literal, literal.var ∈ targets ∧
        exchange.query = probeQuery formula request.timeout literal
  /-- No formula is asked about twice. -/
  noneTwice : (exchanges.map fun exchange => exchange.query.formula).Nodup
  /-- There are at most two queries for each of the different targets. -/
  few : exchanges.length ≤ 1 + 2 * targets.dedup.length
  /-- A query that fails is the last one, and its fault is the result. -/
  stops : ∀ before exchange after fault, exchanges = before ++ exchange :: after →
    exchange.fault? = some fault → after = [] ∧ result = .error fault
  /-- If no query fails, the analysis does not. -/
  succeeds : (∀ exchange ∈ exchanges, exchange.fault? = none) → ∃ sets, result = .ok sets

theorem assume_injective {a b : Literal} (same : formula.assume [a] = formula.assume [b]) :
    a = b := by
  have clauses := congrArg Formula.clauses same
  simpa [Formula.assume] using clauses

theorem assume_ne (literal : Literal) : formula ≠ formula.assume [literal] := by
  intro same
  have clauses := congrArg (fun formula => formula.clauses.length) same
  simp [Formula.assume] at clauses

theorem Asked.literals (asked : Asked formula timeout probed exchanges) (nodup : probed.Nodup)
    (nonzero : ∀ index ∈ probed, index ≠ 0) :
    ∃ literals : List Literal, exchanges.map Exchange.query =
        ⟨.core, formula, timeout⟩ :: literals.map (probeQuery formula timeout) ∧
      literals.Nodup ∧ literals.length ≤ 2 * probed.length ∧
      ∀ literal ∈ literals, literal.var ∈ probed := by
  cases asked with
  | refused =>
    exact ⟨[], rfl, .nil, Nat.le_refl _, fun _ member => absurd member List.not_mem_nil⟩
  | answered probes =>
    obtain ⟨literals, queries, rest⟩ := probes.literals nodup nonzero
    exact ⟨literals, congrArg (_ :: ·) queries, rest⟩

theorem disciplined_of_asked {result : Except Fault LiteralSets} (nodup : probed.Nodup)
    (sublist : probed.Sublist targets) (nonzero : ∀ index ∈ targets, index ≠ 0)
    (asked : Asked formula request.timeout probed exchanges) (ends : EndsWith exchanges result) :
    Disciplined request formula targets exchanges result := by
  obtain ⟨literals, queries, distinct, few, about⟩ :=
    asked.literals nodup fun index member => nonzero index (sublist.subset member)
  refine ⟨⟨probed, nodup, sublist, asked⟩, ?_, ?_, ?_, ?_, ends.succeeds⟩
  · intro exchange member
    have inQueries : exchange.query ∈ exchanges.map Exchange.query := List.mem_map_of_mem member
    rw [queries, List.mem_cons, List.mem_map] at inQueries
    rcases inQueries with first | ⟨literal, inside, same⟩
    · exact .inl first
    · exact .inr ⟨literal, sublist.subset (about literal inside), same.symm⟩
  · have formulas : exchanges.map (fun exchange => exchange.query.formula) =
        formula :: literals.map fun literal => formula.assume [literal] := by
      have mapped := congrArg (List.map Query.formula) queries
      rw [List.map_map, List.map_cons, List.map_map] at mapped
      exact mapped
    rw [formulas, List.nodup_cons, List.nodup_map_iff fun a b => assume_injective]
    refine ⟨?_, distinct⟩
    intro member
    obtain ⟨literal, -, same⟩ := List.mem_map.1 member
    exact assume_ne literal same.symm
  · have counted := congrArg List.length queries
    rw [List.length_map, List.length_cons, List.length_map] at counted
    have different : probed.length ≤ targets.dedup.length :=
      (nodup.subperm fun index member => List.mem_dedup.2 (sublist.subset member)).length_le
    omega
  · intro before exchange after fault same failed
    subst same
    exact ends.stops failed

theorem disciplined_of_takes {result : Except Fault LiteralSets}
    (small : formula.numVariables < Text.signedBound)
    (known : request.targets formula = .ok targets)
    (takes : (ExceptT.run (request.compute formula)).Takes exchanges result) :
    Disciplined request formula targets exchanges result := by
  have declared := targets_declared known
  have nonzero : ∀ index ∈ targets, index ≠ 0 := by
    intro index member
    have range := Formula.declares_iff.1 (declared index member)
    omega
  have ends := endsWith_of_takes known takes
  rcases takes_compute known takes with ⟨fault, rfl, rfl⟩ | ⟨core, rest, found, rfl, walk, rfl⟩
  · exact disciplined_of_asked .nil (List.nil_sublist _) nonzero .refused ends
  · obtain ⟨probed, nodup, sublist, -, probes⟩ :=
      walk.probes (targets_lt_signedBound small known)
        (targets_lt_size (Marked.room_of_lt small) known core)
    exact disciplined_of_asked nodup sublist nonzero (.answered probes) ends

theorem targets_of_foreign {before after : List Nat}
    (interest : request.interest = before ++ index :: after)
    (declared : ∀ other ∈ before, formula.declares other = true)
    (foreign : formula.declares index = false) :
    request.targets formula = .error (.unknownVariable (decimal index)) := by
  have first : (before ++ index :: after).find? (fun index => !formula.declares index) =
      some index := by
    rw [List.find?_append, List.find?_eq_none.2, List.find?_cons_of_pos]
    · rfl
    · rw [foreign]
      rfl
    · intro other member
      rw [declared other member]
      decide
  rw [Request.targets, interest, if_neg (by simp), first]

/-- With variables in the signed range and any oracle, the first variable of interest that the
formula has not is refused without a query, and if there is none the analysis is disciplined. -/
theorem compute_disciplined (oracle : Oracle (StateM σ)) (request : Request) (state : σ)
    (small : formula.numVariables < Text.signedBound) :
    (∀ before index after, request.interest = before ++ index :: after →
      (∀ other ∈ before, formula.declares other = true) → formula.declares index = false →
      ((request.compute formula).held oracle state).result =
          .error (.unknownVariable (decimal index)) ∧
        ((request.compute formula).held oracle state).queries = []) ∧
      ((∀ index ∈ request.interest, formula.declares index = true) →
        Disciplined request formula
          (if request.interest = [] then formula.vars else request.interest)
          (oracle.exchanges state ((request.compute formula).held oracle state).queries)
          ((request.compute formula).held oracle state).result) := by
  have takes := Analysis.takes_held (request.compute formula) oracle state
  refine ⟨?_, ?_⟩
  · intro before index after interest declared foreign
    obtain ⟨nothing, refused⟩ :=
      takes_compute_refused (targets_of_foreign interest declared foreign) takes
    refine ⟨refused, ?_⟩
    rw [← oracle.map_query_exchanges state ((request.compute formula).held oracle state).queries,
      nothing]
    rfl
  · intro known
    exact disciplined_of_takes small (targets_of_known known) takes

/-- The first variable is probed twice, the second once, and the fourth query about a variable
fails; a request for a variable that the formula has not asks nothing. -/
theorem compute_disciplined_recitingOracle :
    let run := (Request.compute { interest := [3, 1, 3, 2, 4] } ⟨5, [], .empty⟩).held recitingOracle
      [[5], [3, 2, 5], [-3, -5], [1, 5]]
    run.result = .error .indeterminate ∧
      run.queries.map (fun query => query.formula.clauses) = [[], [[3]], [[-3]], [[1]], [[2]]] ∧
      Disciplined { interest := [3, 1, 3, 2, 4] } ⟨5, [], .empty⟩ [3, 1, 3, 2, 4]
        (recitingOracle.exchanges [[5], [3, 2, 5], [-3, -5], [1, 5]] run.queries) run.result ∧
      ((Request.compute { interest := [2, 9, 7] } ⟨5, [], .empty⟩).held recitingOracle
        [[5]]).result = .error (.unknownVariable (decimal 9)) := by
  have small : (Formula.mk 5 [] .empty).numVariables < Text.signedBound := by decide
  refine ⟨rfl, rfl, ?_, ?_⟩
  · exact (compute_disciplined recitingOracle { interest := [3, 1, 3, 2, 4] } _ small).2 (by decide)
  · exact ((compute_disciplined recitingOracle { interest := [2, 9, 7] } _ small).1 [2] 9 [7] rfl
      (by decide) (by decide)).1

end Backbone.AtomicSets
