import Backbone.Proofs.AtomicSets.Exactness
import Backbone.Proofs.Dimacs.Accepted
import Backbone.Proofs.External

/-!
# The two oracles agree

What an analysis finds with exact replies is determined up to the order of literals in a set.  The
oracle that tries every assignment gives exact replies when there is no time limit, and so does the
one that asks a faithful program about a formula that came from a text.

* `AgreeUpToOrder` — the same fault, or the same sets up to the order in each of them;
* `IsExact.agree` — two results with exact replies agree;
* `keeps_enumeration`, `keeps_external` — both oracles give exact replies to all probes;
* `external_agrees_with_enumeration` — so the analysis finds the same with both.
-/

namespace Backbone.AtomicSets

variable {σ τ : Type} {request : Request} {formula : Formula}

/-! ### Results up to order -/

/-- The same fault, or sets that agree one by one up to the order of their literals. -/
def AgreeUpToOrder : Except Fault LiteralSets → Except Fault LiteralSets → Prop
  | .error fault, .error fault' => fault = fault'
  | .ok found, .ok found' =>
    List.Forall₂ List.Perm found.sets found'.sets ∧
      found.numVariables = found'.numVariables ∧ found.names = found'.names
  | _, _ => False

theorem Classes.agree {earlier indices : List Nat} {classes classes' : List (List Literal)}
    (walk : Classes formula earlier indices classes)
    (walk' : Classes formula earlier indices classes') :
    List.Forall₂ List.Perm classes classes' := by
  induction walk generalizing classes' with
  | nil =>
    cases walk' with
    | nil => exact .nil
  | pass follows _ ih =>
    cases walk' with
    | pass _ later' => exact ih later'
    | lead leads _ _ => exact absurd leads follows
  | lead leads isClass _ ih =>
    cases walk' with
    | pass follows _ => exact absurd leads follows
    | lead _ isClass' later' => exact .cons (isClass.perm isClass') (ih later')

theorem shows_eq_of_perm {group group' : List Literal} (perm : group.Perm group') :
    request.shows group = request.shows group' := by
  rw [Request.shows, Request.shows, perm.length_eq]

theorem filter_shows_agree {groups groups' : List (List Literal)}
    (agree : List.Forall₂ List.Perm groups groups') :
    List.Forall₂ List.Perm (groups.filter request.shows) (groups'.filter request.shows) := by
  induction agree with
  | nil => exact .nil
  | @cons group group' groups groups' perm _ ih =>
    rw [List.filter_cons, List.filter_cons, shows_eq_of_perm perm]
    by_cases shown : request.shows group' = true
    · rw [if_pos shown, if_pos shown]
      exact .cons perm ih
    · rw [if_neg shown, if_neg shown]
      exact ih

theorem withCore_agree {core core' : List Literal} {shown shown' : List (List Literal)}
    (perm : core.Perm core') (agree : List.Forall₂ List.Perm shown shown') :
    List.Forall₂ List.Perm (request.withCore core shown) (request.withCore core' shown') := by
  rw [Request.withCore, Request.withCore]
  by_cases omitted : request.omitCore = true
  · rw [if_pos omitted, if_pos omitted]
    exact agree
  · rw [if_neg omitted, if_neg omitted]
    exact .cons perm agree

/-- Exact replies leave open nothing but the order of literals. -/
theorem IsExact.agree {first second : Except Fault LiteralSets}
    (h : IsExact request formula first) (h' : IsExact request formula second) :
    AgreeUpToOrder first second := by
  cases h with
  | refused refused =>
    cases h' with
    | refused refused' =>
      rw [refused] at refused'
      exact Except.error.inj refused'
    | unsatisfiable targets' =>
      rw [refused] at targets'
      cases targets'
    | found targets' =>
      rw [refused] at targets'
      cases targets'
  | unsatisfiable targets hopeless =>
    cases h' with
    | refused refused' =>
      rw [targets] at refused'
      cases refused'
    | unsatisfiable => exact rfl
    | found _ satisfiable' => exact absurd satisfiable' hopeless
  | found targets satisfiable isCore walk =>
    cases h' with
    | refused refused' =>
      rw [targets] at refused'
      cases refused'
    | unsatisfiable _ hopeless' => exact absurd satisfiable hopeless'
    | found targets' _ isCore' walk' =>
      rw [targets] at targets'
      cases targets'
      have groups : List.Forall₂ List.Perm (List.filter request.shows _)
        (List.filter request.shows _) := filter_shows_agree (walk.agree walk')
      exact ⟨withCore_agree (isCore.perm isCore') groups, rfl, rfl⟩

/-! ### Both oracles are exact -/

theorem keeps_enumeration {limit : Nat} (stopwatch : Enumeration.Stopwatch (StateM τ))
    (few : formula.numVariables ≤ min limit Enumeration.maxLimit)
    (wellFormed : formula.WellFormed) :
    (Enumeration.oracle limit stopwatch).Keeps (exactReplies formula 0) := by
  refine ⟨?_, fun _ _ _ _ => trivial⟩
  intro asked timeout state probe
  have few' : asked.numVariables ≤ min limit Enumeration.maxLimit :=
    probe.elim (fun asked => asked.numVariables ≤ _) few fun _ _ => few
  have wellFormed' : asked.WellFormed :=
    probe.elim Formula.WellFormed wellFormed fun _ declared => wellFormed.assume declared
  rw [show timeout = 0 from probe.timeout, Enumeration.oracle_core_untimed stopwatch few']
  exact Enumeration.core_isCoreReply wellFormed'

theorem keeps_external {programs : External.Programs} {launch : External.Launcher (StateM σ)}
    (faithful : External.Faithful programs launch) (writable : formula.Writable)
    (small : formula.numVariables < Text.signedBound)
    (room : formula.clauses.length + 1 < Text.unsignedBound) (timeout : Timeout) :
    (External.oracle programs launch).Keeps (exactReplies formula timeout) := by
  refine ⟨?_, fun _ _ _ _ => trivial⟩
  intro asked timeout state probe
  have writable' : asked.Writable :=
    probe.elim Formula.Writable writable fun _ declared => writable.assume declared small room
  have small' : asked.numVariables < Text.signedBound :=
    probe.elim (fun asked => asked.numVariables < _) small fun _ _ => small
  exact External.oracle_core_isCoreReply faithful writable' small' timeout state

/-- About a formula that came from a text, and without a time limit, the analysis finds the same
with a faithful program as it does by enumeration.  Lengths of texts in memory are signed numbers,
so `bounded` is true of every text that can be read. -/
theorem external_agrees_with_enumeration {programs : External.Programs}
    {launch : External.Launcher (StateM σ)} (faithful : External.Faithful programs launch)
    {limit : Nat} (stopwatch : Enumeration.Stopwatch (StateM τ)) {text : String}
    (bounded : text.length < Text.signedBound) (accepted : Formula.ofDimacs text = .ok formula)
    (few : formula.numVariables ≤ min limit Enumeration.maxLimit) (request : Request)
    (untimed : request.timeout = 0) (state : σ) (state' : τ) :
    AgreeUpToOrder
      ((request.compute formula).held (External.oracle programs launch) state).result
      ((request.compute formula).held (Enumeration.oracle limit stopwatch) state').result := by
  have bounds : Text.signedBound + 2 < Text.unsignedBound := by decide
  have writable : formula.Writable := Dimacs.writable_of_ofDimacs (by omega) accepted
  have room : formula.clauses.length + 1 < Text.unsignedBound := by
    have clauses := Dimacs.length_clauses_of_ofDimacs accepted
    omega
  have small : formula.numVariables < Text.signedBound := by
    have most : min limit Enumeration.maxLimit < Text.signedBound :=
      Nat.lt_of_le_of_lt (Nat.min_le_right _ _) (by decide)
    omega
  have meets := meets_compute_exact request small
  rw [untimed] at meets
  have asked := Analysis.held_of_meets (keeps_external faithful writable small room 0) meets state
  have tried := Analysis.held_of_meets
    (keeps_enumeration stopwatch few writable.wellFormed) meets state'
  exact asked.1.agree tried.1

/-! ### A program that turns its reports around -/

/-- The report about a formula with the given core, or with no solution. -/
def reportOf : Except Fault (List Literal) → List External.OutputLine
  | .error _ => [External.unsatisfiableLine]
  | .ok core => core.map External.coreLine ++ [External.terminatorLine, External.satisfiableLine]

theorem report_reportOf {reply : Except Fault (List Literal)}
    (isCoreReply : formula.IsCoreReply reply) : External.Report formula (reportOf reply) := by
  cases isCoreReply with
  | unsatisfiable hopeless => exact .unsatisfiable hopeless
  | core satisfiable isCore => exact .core satisfiable isCore

/-- The output that is nothing but the lines. -/
def outputOf (ls : List External.OutputLine) : External.Output where
  stdout := (ls.flatMap fun line => line ++ ['\n']).flatMap String.utf8EncodeChar

/-- What is printed at a call about the formula that was read, or nothing about none. -/
def turnedOutput (calls : Nat) : Except Fault Formula → External.Output
  | .error _ => {}
  | .ok formula => outputOf (reportOf (turnedCore calls formula))

/-- A program that counts its calls and reports every other core backwards. -/
def turningProgram : External.Launcher (StateM Nat) := fun call =>
  modifyGet fun calls => (.ok (turnedOutput calls (Formula.ofDimacs call.input)), calls + 1)

theorem turningProgram_faithful : External.Faithful {} turningProgram := by
  intro input formula state denotes
  refine ⟨turnedOutput state (.ok formula), reportOf (turnedCore state formula), ?_, rfl, ?_⟩
  · show Except.ok (turnedOutput state (Formula.ofDimacs input)) = _
    rw [denotes]
  · exact report_reportOf (isCoreReply_turnedCore state (Dimacs.wellFormed_of_ofDimacs denotes))

/-- A stopwatch that would stop every search at once, were it ever started. -/
def impatience : Enumeration.Stopwatch (StateM Unit) := fun _ => pure fun _ => pure true

/-- The program has been called once, so it begins with a core that is listed backwards. -/
theorem external_agrees_with_enumeration_turningProgram :
    Formula.ofDimacs "p cnf 3 3\n-1 2 0\n1 -2 0\n3 0\n" =
        .ok ⟨3, [[-1, 2], [1, -2], [3]], .empty⟩ ∧
      AgreeUpToOrder
        ((Request.compute {} ⟨3, [[-1, 2], [1, -2], [3]], .empty⟩).held
          (External.oracle {} turningProgram) 1).result
        (.ok ⟨[[3], [1, 2]], 3, .empty⟩) := by
  have writable : (Formula.mk 3 [[-1, 2], [1, -2], [3]] .empty).Writable := by
    refine ⟨by decide, ?_, by decide, by decide, ?_⟩
    · show ∀ clause ∈ [[-1, 2], [1, -2], [3]], ∀ literal ∈ clause,
        -(Text.signedBound : Int) ≤ literal ∧ literal < Text.signedBound
      decide
    · intro entry member
      cases member
  have accepted : Formula.ofDimacs "p cnf 3 3\n-1 2 0\n1 -2 0\n3 0\n" =
      .ok ⟨3, [[-1, 2], [1, -2], [3]], .empty⟩ := by
    rw [show "p cnf 3 3\n-1 2 0\n1 -2 0\n3 0\n" =
      (Formula.mk 3 [[-1, 2], [1, -2], [3]] .empty).dimacs from rfl]
    exact Dimacs.ofDimacs_dimacs writable
  have bounded : "p cnf 3 3\n-1 2 0\n1 -2 0\n3 0\n".length < Text.signedBound := by decide
  have few : (Formula.mk 3 [[-1, 2], [1, -2], [3]] .empty).numVariables ≤
      min Enumeration.defaultLimit Enumeration.maxLimit := by decide
  have agree := external_agrees_with_enumeration turningProgram_faithful impatience bounded
    accepted few {} rfl 1 ()
  have found : ((Request.compute {} ⟨3, [[-1, 2], [1, -2], [3]], .empty⟩).held
      (Enumeration.oracle Enumeration.defaultLimit impatience) ()).result =
        .ok ⟨[[3], [1, 2]], 3, .empty⟩ := rfl
  rw [found] at agree
  exact ⟨accepted, agree⟩

end Backbone.AtomicSets
