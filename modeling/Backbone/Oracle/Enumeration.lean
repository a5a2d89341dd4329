import Backbone.Oracle.Basic

/-!
# The oracle that tries every assignment

An assignment of the variables `1, …, n` is a number below `2 ^ n`, its *mask*: bit `v - 1` says
whether variable `v` holds.  The masks are tried in ascending order, so a solution found first
prefers false and varies the first variable fastest.

* `holdsIn`, `accepts`, `solutionOf` — truth under a mask, and the mask as a list of literals;
* `search` — the masks in order, with a look at the clock at each multiple of `checkInterval`;
* `Enumeration.solve`, `Enumeration.core` — the two answers;
* `Enumeration.oracle` — the oracle, which refuses formulas with too many variables.
-/

namespace Backbone.Enumeration

/-! ### Masks -/

/-- Whether the literal holds under the mask. -/
def holdsIn (mask : Nat) (literal : Literal) : Bool :=
  mask.testBit (literal.var - 1) == decide (0 < literal)

/-- Whether the mask satisfies every clause. -/
def accepts (formula : Formula) (mask : Nat) : Bool :=
  formula.clauses.all fun clause => clause.any (holdsIn mask)

/-- The literal of a variable that holds under the mask. -/
def literalOf (mask : Nat) (index : Nat) : Literal :=
  if holdsIn mask index then index else -index

/-- The literals that hold under the mask, ascending by variable. -/
def solutionOf (formula : Formula) (mask : Nat) : List Literal :=
  formula.vars.map (literalOf mask)

/-! ### The search -/

/-- How a search came to its end. -/
inductive Ending where
  /-- All masks were tried, or nothing was left to learn. -/
  | finished
  /-- The clock stopped it. -/
  | timedOut
deriving DecidableEq

/-- The number of masks between two looks at the clock. -/
def checkInterval : Nat := 1024

/-- What a visit to an accepted mask makes of what is known: that it goes on, or that it ends. -/
abbrev Visit (β : Type) := β → Nat → β × Bool

/-- The search through `count` masks from `mask` on, given what is known so far.  With no clock it
cannot be stopped from outside. -/
@[specialize]
def search {m : Type → Type} [Monad m] {β : Type} (clock : Option (Nat → m Bool))
    (accepted : Nat → Bool) (visit : Visit β) : (count mask : Nat) → β → m (β × Ending)
  | 0, _, known => pure (known, .finished)
  | count + 1, mask, known =>
    let proceed : Unit → m (β × Ending) := fun _ =>
      if accepted mask then
        match visit known mask with
        | (known, true) => search clock accepted visit count (mask + 1) known
        | (known, false) => pure (known, .finished)
      else search clock accepted visit count (mask + 1) known
    if mask % checkInterval = 0 then
      match clock with
      | none => proceed ()
      | some expired => do
        if ← expired mask then pure (known, .timedOut) else proceed ()
    else proceed ()

/-- The search through all masks of the formula. -/
@[inline]
def searchAll {m : Type → Type} [Monad m] {β : Type} (clock : Option (Nat → m Bool))
    (formula : Formula) (visit : Visit β) (known : β) : m (β × Ending) :=
  search clock (accepts formula) visit (1 <<< formula.numVariables) 0 known

/-! ### Answers -/

/-- The first accepted mask ends the search. -/
def keepFirst : Visit (Option Nat) := fun _ mask => (some mask, false)

/-- The answer of a search for the first solution. -/
def verdictOf (formula : Formula) : Option Nat × Ending → Verdict
  | (some mask, _) => .satisfiable (solutionOf formula mask)
  | (none, .timedOut) => .indeterminate
  | (none, .finished) => .unsatisfiable

/-- The literals that hold under all masks seen; none left ends the search. -/
def keepCommon (formula : Formula) : Visit (Option (List Literal)) := fun known mask =>
  let common := match known with
    | none => solutionOf formula mask
    | some common => common.filter (holdsIn mask)
  (some common, !common.isEmpty)

/-- The answer of a search for the common literals. -/
def coreOf : Option (List Literal) × Ending → Except Fault (List Literal)
  | (some [], _) => .ok []
  | (_, .timedOut) => .error .indeterminate
  | (some common, .finished) => .ok common
  | (none, .finished) => .error .unsatisfiable

variable {m : Type → Type} [Monad m]

/-- The first solution by mask. -/
def solve (clock : Option (Nat → m Bool)) (formula : Formula) : m Verdict :=
  verdictOf formula <$> searchAll clock formula keepFirst none

/-- The literals common to all solutions. -/
def core (clock : Option (Nat → m Bool)) (formula : Formula) :
    m (Except Fault (List Literal)) :=
  coreOf <$> searchAll clock formula (keepCommon formula) none

/-! ### The oracle -/

/-- The largest number of variables that any limit allows. -/
def maxLimit : Nat := 63

/-- The limit that holds unless another is chosen. -/
def defaultLimit : Nat := 24

/-- Starts measuring the time against a limit; the result says at a mask whether it is used up. -/
abbrev Stopwatch (m : Type → Type) := Timeout → m (Nat → m Bool)

/-- The clock of one query: none without a limit. -/
def startClock (stopwatch : Stopwatch m) (timeout : Timeout) : m (Option (Nat → m Bool)) :=
  if timeout = 0 then pure none else some <$> stopwatch timeout

/-- The fault for a formula with more variables than the limit. -/
def refusal? (limit : Nat) (formula : Formula) : Option Fault :=
  let limit := min limit maxLimit
  if limit < formula.numVariables then
    some (.unavailable (.tooManyVariables limit formula.numVariables))
  else none

/-- The oracle that tries every assignment of at most `limit` variables. -/
def oracle (limit : Nat) (stopwatch : Stopwatch m) : Oracle m where
  core formula timeout :=
    match refusal? limit formula with
    | some fault => pure (.error fault)
    | none => do core (← startClock stopwatch timeout) formula
  solve formula timeout :=
    match refusal? limit formula with
    | some fault => pure (.error fault)
    | none => do return .ok (← solve (← startClock stopwatch timeout) formula)

end Backbone.Enumeration
