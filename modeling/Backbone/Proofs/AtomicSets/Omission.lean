import Backbone.Proofs.AtomicSets.Disjointness

/-!
# Sets that are left out

Two options leave sets out of a result: the core, and the groups of one literal.  They are filters
on the result and nothing else.  Written as a dialogue, the analysis of any request is the analysis
of the request that leaves nothing out, followed by a choice among the sets that it found.  That is
an equation of dialogues, so the queries, the warnings and the faults are the same with every
oracle, whatever its state and however wrong it is.

* `Request.full` — the request that leaves nothing out;
* `Request.chosen` — the sets of a full result that a request asks for;
* `groups_eq_map`, `compute_eq_map` — the analysis is the full one with a choice at its end;
* `full_found` — a full result begins with the first reply;
* `compute_leaves_out` — any request beside the full one, held with the same oracle;
* `compute_leaves_out_recitingOracle` — a core of one literal and an empty group, which both stay.
-/

namespace Backbone.AtomicSets

variable {σ : Type} {request : Request} {formula : Formula} {session : Session} {marked : Marked}
  {coreSize : Nat} {indices : List Nat}

/-! ### The full request -/

/-- The request that leaves nothing out. -/
def Request.full (request : Request) : Request :=
  { request with omitCore := false, omitSingles := false }

/-- The sets that the request asks for, of a list of the core and all groups. -/
def Request.chosen (request : Request) : List (List Literal) → List (List Literal)
  | [] => []
  | core :: groups => request.withCore core (groups.filter request.shows)

theorem targets_full (request : Request) (formula : Formula) :
    request.full.targets formula = request.targets formula := rfl

@[simp]
theorem shows_full (group : List Literal) : request.full.shows group = true := rfl

@[simp]
theorem withCore_full (core : List Literal) (groups : List (List Literal)) :
    request.full.withCore core groups = core :: groups := rfl

theorem chosen_cons (core : List Literal) (groups : List (List Literal)) :
    request.chosen (core :: groups) =
      (if request.omitCore then [] else [core]) ++
        groups.filter fun group => !request.omitSingles || group.length != 1 := by
  show (if request.omitCore then _ else _) = _
  by_cases omitted : request.omitCore = true
  · rw [if_pos omitted, if_pos omitted]
    rfl
  · rw [if_neg omitted, if_neg omitted]
    rfl

/-! ### The analysis as a full analysis with a choice -/

theorem groups_eq_map (request : Request) :
    request.groups coreSize session marked indices =
      List.filter request.shows <$> request.full.groups coreSize session marked indices := by
  induction indices generalizing session marked with
  | nil => simp [Request.groups]
  | cons index indices ih =>
    rw [Request.groups, Request.groups]
    by_cases hit : marked.contains index = true
    · rw [if_pos hit, if_pos hit]
      exact ih
    · rw [if_neg hit, if_neg hit, map_bind]
      refine bind_congr fun found => ?_
      simp only [ih, shows_full, if_true, map_bind, bind_map_left, map_pure]
      refine bind_congr fun shown => ?_
      rw [List.filter_cons]

/-- The sets that are left out are left out of the result, and nothing else is changed. -/
theorem compute_eq_map (request : Request) (formula : Formula) :
    request.compute formula =
      (fun found => { found with sets := request.chosen found.sets }) <$>
        request.full.compute formula := by
  simp only [Request.compute, targets_full, groups_eq_map request, withCore_full,
    map_bind, bind_map_left, map_pure]
  rfl

/-! ### The analysis with an oracle -/

/-- A full result begins with what the oracle replies to the formula itself. -/
theorem full_found (request : Request) {oracle : Oracle (StateM σ)} {state : σ}
    {found : LiteralSets}
    (finished : ((request.full.compute formula).held oracle state).result = .ok found) :
    ∃ core groups, ((oracle.core formula request.timeout).run state).1 = .ok core ∧
      found = .ofFormula formula (core :: groups) := by
  have takes := Analysis.takes_held (request.full.compute formula) oracle state
  rw [finished] at takes
  cases known : request.full.targets formula with
  | error fault =>
    obtain ⟨-, same⟩ := takes_compute_refused known takes
    cases same
  | ok targets =>
    rcases takes_compute known takes with ⟨fault, -, same⟩ | ⟨core, rest, groups, asked, -, same⟩
    · cases same
    · cases groups with
      | error fault => cases same
      | ok groups =>
        cases same
        exact ⟨core, _, Oracle.reply_of_exchanges asked, rfl⟩

/-- With any oracle, a request asks and warns just as the request that leaves nothing out.  Either
both end with the same fault, or the sets of the full result are the first reply and after it the
groups, and those of the other are what remains without that first set, if it is left out, and
without those of the groups that have one literal, if they are.  Both results are about the
variables and the names of the formula. -/
theorem compute_leaves_out (oracle : Oracle (StateM σ)) (request : Request) (formula : Formula)
    (state : σ) :
    let run := (request.compute formula).held oracle state
    let full := (request.full.compute formula).held oracle state
    run.queries = full.queries ∧ run.warnings = full.warnings ∧
      ((∃ fault, full.result = .error fault ∧ run.result = .error fault) ∨
        ∃ found shown core groups, full.result = .ok found ∧ run.result = .ok shown ∧
          ((oracle.core formula request.timeout).run state).1 = .ok core ∧
          found.sets = core :: groups ∧
          shown.sets = (if request.omitCore then [] else [core]) ++
            groups.filter (fun group => !request.omitSingles || group.length != 1) ∧
          found.numVariables = formula.numVariables ∧ found.names = formula.names ∧
          shown.numVariables = formula.numVariables ∧ shown.names = formula.names) := by
  intro run full
  have same : run = { full with
      result := full.result.map fun found =>
        { found with sets := request.chosen found.sets } } := by
    show (request.compute formula).held oracle state = _
    rw [compute_eq_map, Analysis.held_map]
  refine ⟨by rw [same], by rw [same], ?_⟩
  cases ended : full.result with
  | error fault => exact .inl ⟨fault, rfl, by rw [same, ended]; rfl⟩
  | ok found =>
    obtain ⟨core, groups, reply, rfl⟩ := full_found request ended
    have shown : run.result =
        .ok (.ofFormula formula (request.chosen (core :: groups))) := by
      rw [same, ended]
      rfl
    exact .inr ⟨_, _, core, groups, rfl, shown, reply, rfl, chosen_cons core groups, rfl, rfl,
      rfl, rfl⟩

/-- Of the core, a pair, a single literal and an empty group, the single literal alone is left
out. -/
theorem compute_leaves_out_recitingOracle :
    let formula : Formula := ⟨5, [], .empty⟩
    let replies : List (List Literal) := [[5], [1, 2, 5], [-1, -2, 5], [3, 5], [4, 5, 2], [2, 5]]
    ((Request.compute {} formula).held recitingOracle replies).result =
      .ok ⟨[[5], [1, 2], [3], []], 5, .empty⟩ ∧
    ∃ shown, ((Request.compute { omitSingles := true } formula).held
        recitingOracle replies).result = .ok shown ∧ shown.sets = [[5], [1, 2], []] := by
  intro formula replies
  have whole : ((Request.compute {} formula).held recitingOracle replies).result =
      .ok ⟨[[5], [1, 2], [3], []], 5, .empty⟩ := rfl
  refine ⟨whole, ?_⟩
  obtain ⟨-, -, ⟨fault, failed, -⟩ | ⟨found, shown, core, groups, full, ran, -, sets, left, -⟩⟩ :=
    compute_leaves_out recitingOracle { omitSingles := true } formula replies
  · cases whole.symm.trans failed
  · cases whole.symm.trans full
    cases sets
    exact ⟨shown, ran, left⟩

end Backbone.AtomicSets
