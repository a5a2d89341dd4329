import Backbone.Oracle.Dialogue

/-!
# Sessions of assumptions

A session holds a formula that grows by unit clauses at its end and shrinks by them again.  The
clauses it began with, its *base*, are never taken off: `base_le` says so of every session.

* `Session.append`, `Session.retract` — add an assumption and take the last one off;
* `Session.assuming` — hold a dialogue under assumptions and take them off afterwards, whatever
  the answers were;
* `Session.core`, `Session.solve` — ask about the present clauses;
* `formula_appendAll` — the clauses with assumptions at their end;
* `retract_append`, `retractMany_appendAll` — taking off undoes adding.
-/

namespace Backbone

/-- A formula whose clauses beyond the base are assumptions. -/
structure Session where
  /-- The base clauses and after them the assumptions. -/
  formula : Formula
  /-- The number of base clauses. -/
  base : Nat
  /-- The time limit of each query. -/
  timeout : Timeout
  /-- The base clauses are there. -/
  base_le : base ≤ formula.clauses.length

namespace Session

/-- The session that begins with the formula. -/
def start (formula : Formula) (timeout : Timeout) : Session :=
  ⟨formula, formula.clauses.length, timeout, Nat.le_refl _⟩

/-- The number of assumptions. -/
def depth (session : Session) : Nat := session.formula.clauses.length - session.base

/-! ### Adding and taking off -/

theorem base_le_push (session : Session) (clause : Clause) :
    session.base ≤ (session.formula.push clause).clauses.length := by
  have := session.base_le
  rw [Formula.push, List.length_append]
  omega

/-- The session with one more assumption. -/
def append (session : Session) (literal : Literal) : Session where
  formula := session.formula.push [literal]
  base := session.base
  timeout := session.timeout
  base_le := session.base_le_push [literal]

/-- The last assumption and the session without it; a fault if there is none. -/
def retract (session : Session) : Except Fault (Clause × Session) :=
  if h : session.depth = 0 then .error .underflow
  else
    let last := session.formula.clauses.getLast (by
      intro empty
      simp [depth, empty] at h)
    .ok (last,
      { formula := { session.formula with clauses := session.formula.clauses.dropLast }
        base := session.base
        timeout := session.timeout
        base_le := by
          simp only [depth] at h
          simp only [List.length_dropLast]
          omega })

/-- The session with the assumptions added in their order. -/
def appendAll (session : Session) (literals : List Literal) : Session :=
  literals.foldl append session

/-- The session after taking off assumptions, as many as the number says or there are. -/
def retractMany : Nat → Session → Session
  | 0, session => session
  | count + 1, session =>
    match session.retract with
    | .ok (_, session) => retractMany count session
    | .error _ => session

theorem appendAll_cons (session : Session) (literal : Literal) (literals : List Literal) :
    session.appendAll (literal :: literals) = (session.append literal).appendAll literals := rfl

/-- The clauses of a session with assumptions are those of the formula with them. -/
theorem formula_appendAll (session : Session) (literals : List Literal) :
    (session.appendAll literals).formula = session.formula.assume literals := by
  induction literals generalizing session with
  | nil => rw [Formula.assume_nil]; rfl
  | cons literal literals ih => rw [appendAll_cons, ih, Formula.assume_cons]; rfl

theorem retract_append (session : Session) (literal : Literal) :
    (session.append literal).retract = .ok ([literal], session) := by
  have nonzero : (session.append literal).depth ≠ 0 := by
    have := session.base_le
    simp only [depth, append, Formula.push, List.length_append, List.length_singleton]
    omega
  rw [retract, dif_neg nonzero]
  simp [append, Formula.push]

theorem retractMany_append (session : Session) (literal : Literal) (count : Nat) :
    retractMany (count + 1) (session.append literal) = retractMany count session := by
  rw [retractMany, retract_append]

/-- Taking off as many assumptions as were added gives back the session. -/
theorem retractMany_appendAll (session : Session) (literals : List Literal) :
    retractMany literals.length (session.appendAll literals) = session := by
  suffices general : ∀ (literals : List Literal) (rest : Nat) (session : Session),
      retractMany (literals.length + rest) (session.appendAll literals) =
        retractMany rest session from general literals 0 session
  intro literals
  induction literals with
  | nil => intro rest session; simp [appendAll]
  | cons literal literals ih =>
    intro rest session
    have later := ih (rest + 1) (session.append literal)
    rw [retractMany_append] at later
    rw [← later, List.length_cons, Nat.add_right_comm, Nat.add_assoc]
    rfl

/-! ### Asking -/

/-- Ask for the core of the present clauses. -/
def core (session : Session) : Analysis (List Literal) :=
  Analysis.core session.formula session.timeout

/-- Ask for a solution of the present clauses. -/
def solve (session : Session) : Analysis Verdict :=
  Analysis.solve session.formula session.timeout

/-- Hold a dialogue under the assumptions, and give back the session without them. -/
def assuming {α : Type} (session : Session) (literals : List Literal)
    (ask : Session → Dialogue α) : Dialogue (α × Session) := do
  let extended := session.appendAll literals
  let answer ← ask extended
  pure (answer, extended.retractMany literals.length)

end Session

end Backbone
