import Backbone.Proofs.Contract
import Backbone.Proofs.Enumeration.Masks
import Backbone.Proofs.Enumeration.Search

/-!
# Cores by enumeration are exact under any clock

After any number of masks, what is known are the literals common to all solutions seen so far, or
that none was seen.  Only two kinds of knowledge are given out as a core: that of a search through
all masks, and the empty list, to which further solutions add nothing.

* `Common` — what is known after the masks below a number;
* `Common.skip`, `Common.keep` — one more mask, rejected or accepted;
* `core_exact` — the core, the lack of a solution and the giving up of a search are what they say,
  whatever the clock says at each look;
* `core_cases`, `core_isCoreReply`, `oracle_core_untimed` — without a clock, a formula over its own
  variables is never given up.
-/

namespace Backbone

/-- The list holds, ascending by variable, the literals of the formula's variables that are true
in every confined solution, of which there is one. -/
structure Formula.IsAscendingCore (formula : Formula) (core : List Literal) : Prop where
  solvable : ∃ valuation, formula.IsConfinedSolution valuation
  ascending : core.Pairwise fun a b => a.var < b.var
  mem_iff : ∀ literal : Literal, literal ∈ core ↔ formula.declares literal.var = true ∧
    ∀ valuation, formula.IsConfinedSolution valuation → valuation.Holds literal

theorem Formula.IsAscendingCore.nodup {formula : Formula} {core : List Literal}
    (h : formula.IsAscendingCore core) : core.Nodup := by
  refine h.ascending.imp fun below same => ?_
  rw [same] at below
  exact absurd below (Nat.lt_irrefl _)

namespace Enumeration

variable {formula : Formula} {mask : Nat}

/-! ### What is known on the way -/

/-- What is known after the masks below a number: that none was accepted, or else the literals that
hold under all that were. -/
def Common (formula : Formula) (bound : Nat) : Option (List Literal) → Prop
  | none => ∀ mask < bound, accepts formula mask = false
  | some common =>
    (∃ mask < bound, accepts formula mask = true) ∧
      (common.Pairwise fun a b => a.var < b.var) ∧
      ∀ literal : Literal, literal ∈ common ↔ formula.declares literal.var = true ∧
        ∀ mask < bound, accepts formula mask = true → holdsIn mask literal = true

theorem Common.skip {known : Option (List Literal)} (h : Common formula mask known)
    (rejected : accepts formula mask = false) : Common formula (mask + 1) known := by
  cases known with
  | none =>
    intro other below
    rcases Nat.lt_succ_iff_lt_or_eq.1 below with before | rfl
    · exact h other before
    · exact rejected
  | some common =>
    obtain ⟨⟨seen, before, accepted⟩, ascending, members⟩ := h
    refine ⟨⟨seen, by omega, accepted⟩, ascending, ?_⟩
    intro literal
    rw [members]
    apply and_congr_right
    intro _
    constructor
    · intro all other below accepted'
      rcases Nat.lt_succ_iff_lt_or_eq.1 below with before' | rfl
      · exact all other before' accepted'
      · rw [rejected] at accepted'
        cases accepted'
    · intro all other before'
      exact all other (by omega)

theorem Common.keep {known : Option (List Literal)} (h : Common formula mask known)
    (accepted : accepts formula mask = true) :
    Common formula (mask + 1) (keepCommon formula known mask).1 := by
  cases known with
  | none =>
    refine ⟨⟨mask, by omega, accepted⟩, pairwise_solutionOf formula mask, ?_⟩
    intro literal
    rw [mem_solutionOf]
    apply and_congr_right
    intro _
    constructor
    · intro holds other below accepted'
      rcases Nat.lt_succ_iff_lt_or_eq.1 below with before | rfl
      · rw [h other before] at accepted'
        cases accepted'
      · exact holds
    · intro all
      exact all mask (by omega) accepted
  | some common =>
    obtain ⟨-, ascending, members⟩ := h
    refine ⟨⟨mask, by omega, accepted⟩, ascending.filter _, ?_⟩
    intro literal
    rw [List.mem_filter, members, and_assoc]
    apply and_congr_right
    intro _
    constructor
    · intro given
      obtain ⟨all, holds⟩ := given
      intro other below accepted'
      rcases Nat.lt_succ_iff_lt_or_eq.1 below with before | rfl
      · exact all other before accepted'
      · exact holds
    · intro all
      exact ⟨fun other before => all other (by omega), all mask (by omega) accepted⟩

/-- A visit ends the search only when nothing is left in common. -/
theorem keepCommon_stop {known : Option (List Literal)}
    (stop : (keepCommon formula known mask).2 = false) :
    (keepCommon formula known mask).1 = some [] := by
  simp only [keepCommon, Bool.not_eq_false', List.isEmpty_iff] at stop ⊢
  rw [stop]

theorem searchAll_ends (clock : Option (Nat → Id Bool)) (formula : Formula) :
    Ends clock (2 ^ formula.numVariables) (Common formula) (· = some [])
      (Id.run (searchAll clock formula (keepCommon formula) none)) := by
  have start : Common formula 0 none := fun _ below => absurd below (Nat.not_lt_zero _)
  rw [← Nat.one_shiftLeft, ← Nat.zero_add (1 <<< formula.numVariables), searchAll]
  apply search_ends _ _ _ _ _ _ _ start
  · exact fun _ _ => Common.skip
  · exact fun _ _ => Common.keep
  · exact fun _ _ => keepCommon_stop

/-! ### What is known at the end -/

section Final

variable {bound : Nat} {common : List Literal} (within : formula.LiteralsWithin bound)
include within

/-- After all masks, what the solutions have in common is the core. -/
theorem Common.isAscendingCore
    (h : Common formula (2 ^ formula.numVariables) (some common)) :
    formula.IsAscendingCore common := by
  obtain ⟨seen, ascending, members⟩ := h
  refine ⟨(exists_confined_iff within).2 seen, ascending, ?_⟩
  intro literal
  rw [members]
  apply and_congr_right
  intro declared
  exact (forall_confined_iff within (Formula.ne_zero_of_declares declared)).symm

/-- If nothing is in common, it need not be after all masks. -/
theorem Common.isAscendingCore_nil (small : mask ≤ 2 ^ formula.numVariables)
    (h : Common formula mask (some [])) : formula.IsAscendingCore [] := by
  obtain ⟨⟨seen, below, accepted⟩, -, members⟩ := h
  refine ⟨(exists_confined_iff within).2 ⟨seen, by omega, accepted⟩, .nil, ?_⟩
  intro literal
  refine iff_of_false List.not_mem_nil ?_
  intro given
  obtain ⟨declared, holds⟩ := given
  rw [forall_confined_iff within (Formula.ne_zero_of_declares declared)] at holds
  exact List.not_mem_nil ((members literal).2
    ⟨declared, fun other before => holds other (by omega)⟩)

theorem Common.unsolvable (h : Common formula (2 ^ formula.numVariables) none) :
    ¬∃ valuation, formula.IsConfinedSolution valuation := by
  rw [exists_confined_iff within]
  intro given
  obtain ⟨seen, below, accepted⟩ := given
  rw [h seen below] at accepted
  cases accepted

/-- The three ways out of the search, and what each of them lets the answer say. -/
theorem core_of_ends {clock : Option (Nat → Id Bool)} {outcome : Option (List Literal) × Ending}
    (ends : Ends clock (2 ^ formula.numVariables) (Common formula) (· = some []) outcome) :
    match coreOf outcome with
    | .ok core => formula.IsAscendingCore core
    | .error .unsatisfiable => ¬∃ valuation, formula.IsConfinedSolution valuation
    | .error .indeterminate => ∃ mask < 2 ^ formula.numVariables, Fired clock mask
    | .error _ => False := by
  cases ends with
  | @exhausted known complete =>
    match known, complete with
    | none, complete => exact complete.unsolvable within
    | some [], complete => exact complete.isAscendingCore within
    | some (_ :: _), complete => exact complete.isAscendingCore within
  | @settled mask known below partly empty =>
    subst empty
    exact partly.isAscendingCore_nil within below
  | @timedOut mask known below partly fired =>
    match known, partly with
    | none, _ => exact ⟨mask, below, fired⟩
    | some [], partly => exact partly.isAscendingCore_nil within (Nat.le_of_lt below)
    | some (_ :: _), _ => exact ⟨mask, below, fired⟩

end Final

/-! ### The oracle -/

theorem refusal?_eq_none {limit : Nat} (few : formula.numVariables ≤ min limit maxLimit) :
    refusal? limit formula = none := by
  rw [refusal?]
  exact if_neg (Nat.not_lt.2 few)

/-- The clock of a query, when the looks at it come out as the stopwatch says. -/
def clockOf (stopwatch : Stopwatch Id) (timeout : Timeout) : Option (Nat → Id Bool) :=
  if timeout = 0 then none else some (Id.run (stopwatch timeout))

theorem run_startClock (stopwatch : Stopwatch Id) (timeout : Timeout) :
    Id.run (startClock stopwatch timeout) = clockOf stopwatch timeout := by
  rw [startClock, clockOf]
  split <;> rfl

theorem oracle_core_eq {limit : Nat} (stopwatch : Stopwatch Id) (timeout : Timeout)
    (few : formula.numVariables ≤ min limit maxLimit) :
    Id.run ((oracle limit stopwatch).core formula timeout) =
      coreOf (Id.run (searchAll (clockOf stopwatch timeout) formula (keepCommon formula) none)) := by
  simp only [oracle, refusal?_eq_none few, ← run_startClock]
  rfl

/-- The answers of the oracle are exact whatever the clock says at each of the masks at which it is
looked at.  Variables above the formula's own count as false. -/
theorem core_exact (limit : Nat) (stopwatch : Stopwatch Id) (timeout : Timeout)
    {formula : Formula} (few : formula.numVariables ≤ min limit maxLimit)
    (within : formula.LiteralsWithin 64) :
    match Id.run ((oracle limit stopwatch).core formula timeout) with
    | .ok core => formula.IsAscendingCore core
    | .error .unsatisfiable => ¬∃ valuation, formula.IsConfinedSolution valuation
    | .error .indeterminate => timeout ≠ 0 ∧ ∃ mask < 2 ^ formula.numVariables,
        mask % checkInterval = 0 ∧ Id.run (stopwatch timeout) mask = true
    | .error _ => False := by
  have answer := core_of_ends within (searchAll_ends (clockOf stopwatch timeout) formula)
  rw [← oracle_core_eq stopwatch timeout few] at answer
  generalize Id.run ((oracle limit stopwatch).core formula timeout) = reply at answer ⊢
  match reply, answer with
  | .ok _, answer => exact answer
  | .error .unsatisfiable, answer => exact answer
  | .error .indeterminate, ⟨mask, below, look, expired, started, fired⟩ =>
    rw [clockOf] at started
    split at started
    · cases started
    · rename_i timed
      cases started
      exact ⟨timed, mask, below, look, fired⟩

/-- The third variable counts as false here, and the clock fires too late to matter. -/
theorem core_exact_late_clock :
    Id.run ((oracle 24 fun _ mask => decide (1 ≤ mask)).core ⟨2, [[1, 3]], .empty⟩ 5) = .ok [1] ∧
      (Formula.mk 2 [[1, 3]] .empty).IsAscendingCore [1] := by
  have few : (Formula.mk 2 [[1, 3]] .empty).numVariables ≤ min 24 maxLimit := by decide
  have within : (Formula.mk 2 [[1, 3]] .empty).LiteralsWithin 64 := by decide
  exact ⟨rfl, core_exact 24 (fun _ mask => decide (1 ≤ mask)) 5 few within⟩

/-! ### Without a clock -/

theorem isCore_of_isAscendingCore (wellFormed : formula.WellFormed) {core : List Literal}
    (h : formula.IsAscendingCore core) : formula.IsCore core := by
  refine ⟨h.nodup, ?_⟩
  intro literal
  rw [h.mem_iff]
  apply and_congr_right
  intro declared
  exact (Formula.entails_iff_confined wellFormed declared).symm

/-- Without a clock the search is never given up. -/
theorem core_cases (wellFormed : formula.WellFormed) :
    (Id.run (core none formula) = .error .unsatisfiable ∧
      ¬∃ valuation, formula.IsConfinedSolution valuation) ∨
      ∃ found, Id.run (core none formula) = .ok found ∧ formula.IsAscendingCore found := by
  have answer := core_of_ends wellFormed.literalsWithin (searchAll_ends none formula)
  show (coreOf (Id.run (searchAll none formula (keepCommon formula) none)) = _ ∧ _) ∨
    ∃ found, coreOf (Id.run (searchAll none formula (keepCommon formula) none)) = _ ∧ _
  generalize coreOf (Id.run (searchAll none formula (keepCommon formula) none)) = reply
    at answer ⊢
  match reply, answer with
  | .ok found, isCore => exact .inr ⟨found, rfl, isCore⟩
  | .error .unsatisfiable, hopeless => exact .inl ⟨rfl, hopeless⟩
  | .error .indeterminate, ⟨_, _, _, _, impossible, _⟩ => cases impossible

/-- So the reply is the whole truth. -/
theorem core_isCoreReply (wellFormed : formula.WellFormed) :
    formula.IsCoreReply (Id.run (core none formula)) := by
  rcases core_cases wellFormed with ⟨same, hopeless⟩ | ⟨found, same, isCore⟩
  · rw [← Formula.satisfiable_iff_confined wellFormed] at hopeless
    rw [same]
    exact .unsatisfiable hopeless
  · have satisfiable := (Formula.satisfiable_iff_confined wellFormed).2 isCore.solvable
    rw [same]
    exact .core satisfiable (isCore_of_isAscendingCore wellFormed isCore)

/-- In any monad, a query without a time limit is answered at once. -/
theorem oracle_core_untimed {m : Type → Type} [Monad m] [LawfulMonad m] {limit : Nat}
    (stopwatch : Stopwatch m) (few : formula.numVariables ≤ min limit maxLimit) :
    (oracle limit stopwatch).core formula 0 = pure (Id.run (core none formula)) := by
  have started : startClock stopwatch 0 = pure none := if_pos rfl
  simp only [oracle, refusal?_eq_none few, started, pure_bind, core, searchAll]
  rw [search_none, map_pure]
  rfl

end Enumeration

end Backbone
