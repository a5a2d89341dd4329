import Backbone.Analysis
import Backbone.LiteralSets
import Backbone.Session

/-!
# Atomic sets

Literals belong to one atomic set if in every solution all of them hold or none does.  The core
comes first, then the groups in the order of the variables of interest.

Solutions are not enumerated.  Each variable `v` that is in no set yet is probed: if the core
under `v` grows by more than `v` itself, other literals depend on it, and the literals that flip
between the cores under `v` and under `-v` are its group.  Otherwise `v` is alone.

* `Marked` — the variables already in some set;
* `probe` — the core under one assumption, which is taken off again afterwards;
* `groupOf` — the group of one variable, by one or two probes;
* `Request.groups` — the groups of a list of variables that are to be shown;
* `Request.compute` — the analysis.
-/

namespace Backbone.AtomicSets

/-! ### Requests -/

/-- What is to be computed. -/
structure Request where
  /-- The variables to look at, in order; none means all. -/
  interest : List Nat := []
  /-- Leave out the core. -/
  omitCore : Bool := false
  /-- Leave out the groups of one literal. -/
  omitSingles : Bool := false
  /-- The time limit of each query. -/
  timeout : Timeout := 0

/-- The variables to look at, or the fault of the first that the formula has not. -/
def Request.targets (request : Request) (formula : Formula) : Except Fault (List Nat) :=
  if request.interest = [] then .ok formula.vars
  else
    match request.interest.find? fun index => !formula.declares index with
    | some index => .error (.unknownVariable (decimal index))
    | none => .ok request.interest

/-- Whether a group is shown. -/
def Request.shows (request : Request) (group : List Literal) : Bool :=
  !request.omitSingles || group.length != 1

/-- The sets that are shown of the core and the groups that are shown. -/
def Request.withCore (request : Request) (core : List Literal) (shown : List (List Literal)) :
    List (List Literal) :=
  if request.omitCore then shown else core :: shown

/-! ### Marks -/

/-- The numbers below a size that carry a mark. -/
structure Marked where
  /-- The first number that can carry no mark. -/
  size : Nat
  /-- The numbers that were marked, of which only those below the size count. -/
  members : List Nat

/-- The marks on the variables of a core, with room for all variables.  The size has 64 bits, so it
wraps around to zero if there are `2 ^ 64 - 1` variables, and then nothing carries a mark. -/
def Marked.ofCore (numVariables : Nat) (core : List Literal) : Marked :=
  ⟨(numVariables + 1) % Text.unsignedBound, Literals.vars core⟩

/-- Whether a number carries a mark. -/
def Marked.contains (marked : Marked) (index : Nat) : Bool :=
  index < marked.size && marked.members.contains index

/-- Mark more numbers. -/
def Marked.mark (marked : Marked) (indices : List Nat) : Marked :=
  { marked with members := indices ++ marked.members }

@[simp]
theorem Marked.contains_mark (marked : Marked) (indices : List Nat) (index : Nat) :
    (marked.mark indices).contains index = true ↔
      (index < marked.size ∧ index ∈ indices) ∨ marked.contains index = true := by
  by_cases small : index < marked.size <;> simp [contains, mark, small]

theorem Marked.room_of_lt {numVariables : Nat} (small : numVariables < Text.signedBound) :
    numVariables + 1 < Text.unsignedBound :=
  Nat.lt_of_le_of_lt (Nat.succ_le_of_lt small) (by decide)

theorem Marked.size_ofCore {numVariables : Nat} (room : numVariables + 1 < Text.unsignedBound)
    (core : List Literal) : (ofCore numVariables core).size = numVariables + 1 :=
  Nat.mod_eq_of_lt room

theorem Marked.lt_size_ofCore {numVariables : Nat} (room : numVariables + 1 < Text.unsignedBound)
    (core : List Literal) : numVariables < (ofCore numVariables core).size := by
  rw [size_ofCore room]
  exact Nat.lt_succ_self _

theorem Marked.contains_ofCore {numVariables index : Nat} {core : List Literal}
    (room : numVariables + 1 < Text.unsignedBound) (small : index ≤ numVariables) :
    (ofCore numVariables core).contains index = true ↔ index ∈ Literals.vars core := by
  rw [contains, size_ofCore room, Bool.and_eq_true, decide_eq_true_eq, List.contains_iff_mem]
  exact and_iff_right (Nat.lt_succ_of_le small)

/-! ### Groups -/

/-- The literals that flip between the two cores, without the marked variables. -/
def flippedGroup (marked : Marked) (positiveCore negativeCore : List Literal) : List Literal :=
  (Literals.flipped positiveCore negativeCore).filter fun literal => !marked.contains literal.var

/-- The core under one more assumption, and the session without it. -/
def probe (session : Session) (literal : Literal) : Analysis (List Literal × Session) :=
  ExceptT.mk do
    let (answer, session) ← session.assuming [literal] fun extended => extended.core.run
    return answer.map (·, session)

/-- The group of a variable.  The second probe is made only if the first core has more than one
literal beyond the core of the formula. -/
def groupOf (session : Session) (coreSize : Nat) (marked : Marked) (index : Nat) :
    Analysis (List Literal × Session) := do
  let literal := Literal.ofIndex index
  let (positiveCore, session) ← probe session literal
  if positiveCore.length ≤ coreSize + 1 then return ([literal], session)
  let (negativeCore, session) ← probe session literal.negate
  let group := flippedGroup marked positiveCore negativeCore
  if group = [] then Analysis.warn (.nothingShared literal)
  return (group, session)

/-- The groups that are shown of the variables, each of those that carry no mark when their turn
comes. -/
def Request.groups (request : Request) (coreSize : Nat) :
    Session → Marked → List Nat → Analysis (List (List Literal))
  | _, _, [] => return []
  | session, marked, index :: indices =>
    if marked.contains index then request.groups coreSize session marked indices
    else do
      let (group, session) ← groupOf session coreSize marked index
      let marked := marked.mark (index :: Literals.vars group)
      let shown ← request.groups coreSize session marked indices
      return if request.shows group then group :: shown else shown

/-! ### The analysis -/

/-- The core and the atomic sets of the formula. -/
def Request.compute (request : Request) (formula : Formula) : Analysis LiteralSets := do
  let targets ← Analysis.ofExcept (request.targets formula)
  let session := Session.start formula request.timeout
  let core ← session.core
  let marked := Marked.ofCore formula.numVariables core
  let groups ← request.groups core.length session marked targets
  return .ofFormula formula (request.withCore core groups)

end Backbone.AtomicSets
