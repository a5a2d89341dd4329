import Backbone.Session
import Backbone.Proofs.Contract

/-!
# The stack of assumptions

What a client sees of a session over a whole run of moves, with any oracle.  The session itself
holds a formula and a count; beside it runs a list of literals, the assumptions that were appended
and not yet taken off.  That list says all there is to say about the session: its formula is the
base with these literals as unit clauses, and nothing that is asked in between, under a guard or
not, changes it.

* `Move`, `perform`, `steps` — what a client can do, one move, and the record of a run;
* `outstanding` — the assumptions that stand after some moves;
* `standing` — the session in which given assumptions stand;
* `held_assuming` — a dialogue under a guard leaves the session as it was;
* `Step.Follows`, `follows_step` — all that can happen in one step;
* `Step.Disciplined`, `steps_disciplined` — how each step of a run belongs to the base and the
  assumptions that stand before it.
-/

namespace Backbone

variable {α β σ : Type}

namespace Session

variable {base : Formula} {timeout : Timeout} {stack : List Literal}

/-! ### Clients -/

/-- What a client does with a session. -/
inductive Move where
  /-- It adds an assumption. -/
  | append (literal : Literal)
  /-- It takes the last assumption off. -/
  | retract
  /-- It asks about the present clauses. -/
  | ask (question : Question)
  /-- It asks under more assumptions, which are taken off when all is asked. -/
  | askUnder (literals : List Literal) (questions : List Question)

/-- The reply to a question. -/
inductive Answer where
  | core (reply : Except Fault (List Literal))
  | verdict (reply : Except Fault Verdict)

/-- What a move gives back to the client. -/
inductive Outcome where
  | appended
  | retracted (result : Except Fault Clause)
  | answered (answers : List Answer)

/-- Ask a question about the present clauses. -/
def ask (session : Session) : Question → Dialogue Answer
  | .core => return .core (← session.core.run)
  | .solve => return .verdict (← session.solve.run)

/-- Ask questions in turn, whatever is replied to the earlier ones. -/
def askAll (session : Session) : List Question → Dialogue (List Answer)
  | [] => return []
  | question :: questions => do
    let answer ← session.ask question
    return answer :: (← session.askAll questions)

/-- Make a move. -/
def perform (session : Session) : Move → Dialogue (Outcome × Session)
  | .append literal => return (.appended, session.append literal)
  | .retract =>
    match session.retract with
    | .ok (clause, session) => return (.retracted (.ok clause), session)
    | .error fault => return (.retracted (.error fault), session)
  | .ask question => return (.answered [← session.ask question], session)
  | .askUnder literals questions => do
    let (answers, session) ← session.assuming literals fun extended => extended.askAll questions
    return (.answered answers, session)

/-- A move that was made. -/
structure Step where
  /-- The session before it. -/
  before : Session
  /-- The move. -/
  move : Move
  /-- What was asked in its course. -/
  queries : List Query
  /-- What it gave back. -/
  outcome : Outcome
  /-- The session after it. -/
  after : Session

/-- The move as it is made with an oracle in the given state, and the state it leaves. -/
def step (oracle : Oracle (StateM σ)) (state : σ) (session : Session) (move : Move) : Step × σ :=
  let held := ((session.perform move).run oracle).run state
  (⟨session, move, held.1.queries, held.1.result.1, held.1.result.2⟩, held.2)

/-- The moves as they are made one after the other. -/
def steps (oracle : Oracle (StateM σ)) : σ → Session → List Move → List Step
  | _, _, [] => []
  | state, session, move :: moves =>
    let made := step oracle state session move
    made.1 :: steps oracle made.2 made.1.after moves

/-! ### Assumptions that stand -/

/-- What a move makes of the assumptions that stand. -/
def Move.leaves (stack : List Literal) : Move → List Literal
  | .append literal => stack ++ [literal]
  | .retract => stack.dropLast
  | .ask _ => stack
  | .askUnder _ _ => stack

/-- The assumptions that were appended by the moves and not yet taken off. -/
def outstanding (moves : List Move) : List Literal := moves.foldl Move.leaves []

/-- The session that began with the base and in which the assumptions stand. -/
def standing (base : Formula) (timeout : Timeout) (stack : List Literal) : Session :=
  (start base timeout).appendAll stack

theorem formula_standing : (standing base timeout stack).formula = base.assume stack :=
  formula_appendAll _ _

theorem timeout_appendAll (session : Session) (literals : List Literal) :
    (session.appendAll literals).timeout = session.timeout := by
  induction literals generalizing session with
  | nil => rfl
  | cons literal literals ih => exact ih (session.append literal)

theorem timeout_standing : (standing base timeout stack).timeout = timeout :=
  timeout_appendAll _ _

theorem appendAll_appendAll (session : Session) (literals later : List Literal) :
    (session.appendAll literals).appendAll later = session.appendAll (literals ++ later) :=
  List.foldl_append.symm

theorem append_standing (literal : Literal) :
    (standing base timeout stack).append literal = standing base timeout (stack ++ [literal]) :=
  appendAll_appendAll _ stack [literal]

theorem retract_standing_nil : (standing base timeout []).retract = .error .underflow :=
  dif_pos (Nat.sub_self _)

theorem retract_standing_concat (literal : Literal) :
    (standing base timeout (stack ++ [literal])).retract =
      .ok ([literal], standing base timeout stack) := by
  rw [← append_standing, retract_append]

/-! ### Asking changes nothing -/

theorem queries_ask (oracle : Oracle (StateM σ)) (state : σ) (session : Session)
    (question : Question) :
    (((session.ask question).run oracle).run state).1.queries =
      [⟨question, session.formula, session.timeout⟩] := by
  cases question with
  | core => rfl
  | solve => rfl

theorem queries_askAll (oracle : Oracle (StateM σ)) (state : σ) (session : Session)
    (questions : List Question) :
    (((session.askAll questions).run oracle).run state).1.queries =
      questions.map fun question => ⟨question, session.formula, session.timeout⟩ := by
  induction questions generalizing state with
  | nil => rfl
  | cons question questions ih =>
    simp only [askAll, Dialogue.held_bind, Dialogue.held_pure, Dialogue.Run.andThen, queries_ask,
      ih, List.append_nil, List.map_cons, List.singleton_append]

/-- A dialogue under a guard asks what it asks of the session with the assumptions, and afterwards
the session is as it was, whatever was replied. -/
theorem held_assuming (oracle : Oracle (StateM σ)) (state : σ) (session : Session)
    (literals : List Literal) (dialogue : Session → Dialogue α) :
    ((session.assuming literals dialogue).run oracle).run state =
      let held := ((dialogue (session.appendAll literals)).run oracle).run state
      ({ held.1 with result := (held.1.result, session) }, held.2) := by
  simp only [assuming, Dialogue.held_bind, Dialogue.held_pure, Dialogue.Run.andThen,
    retractMany_appendAll, List.append_nil]

/-! ### One move -/

/-- What can happen in one step while the assumptions of a list stand.  Only the answers are open,
and nothing hangs on them. -/
inductive Step.Follows (base : Formula) (timeout : Timeout) : List Literal → Step → Prop
  | appended {stack : List Literal} {literal : Literal} :
      Follows base timeout stack
        ⟨standing base timeout stack, .append literal, [], .appended,
          standing base timeout (stack ++ [literal])⟩
  | underflow :
      Follows base timeout []
        ⟨standing base timeout [], .retract, [], .retracted (.error .underflow),
          standing base timeout []⟩
  | retracted {stack : List Literal} {literal : Literal} :
      Follows base timeout (stack ++ [literal])
        ⟨standing base timeout (stack ++ [literal]), .retract, [], .retracted (.ok [literal]),
          standing base timeout stack⟩
  | asked {stack : List Literal} {question : Question} {answers : List Answer} :
      Follows base timeout stack
        ⟨standing base timeout stack, .ask question, [⟨question, base.assume stack, timeout⟩],
          .answered answers, standing base timeout stack⟩
  | askedUnder {stack literals : List Literal} {questions : List Question}
      {answers : List Answer} :
      Follows base timeout stack
        ⟨standing base timeout stack, .askUnder literals questions,
          questions.map fun question => ⟨question, base.assume (stack ++ literals), timeout⟩,
          .answered answers, standing base timeout stack⟩

theorem follows_step (oracle : Oracle (StateM σ)) (state : σ) (move : Move) :
    (step oracle state (standing base timeout stack) move).1.Follows base timeout stack := by
  cases move with
  | append literal =>
    show Step.Follows base timeout stack ⟨_, _, [], .appended, (standing _ _ stack).append literal⟩
    rw [append_standing]
    exact .appended
  | retract =>
    rcases stack.eq_nil_or_concat with rfl | ⟨front, last, rfl⟩
    · simp only [step, perform, retract_standing_nil, Dialogue.held_pure]
      exact .underflow
    · simp only [step, perform, List.concat_eq_append, retract_standing_concat,
        Dialogue.held_pure]
      exact .retracted
  | ask question =>
    simp only [step, perform, Dialogue.held_bind, Dialogue.held_pure, Dialogue.Run.andThen,
      queries_ask, List.append_nil, formula_standing, timeout_standing]
    exact .asked
  | askUnder literals questions =>
    have extended : (standing base timeout stack).appendAll literals =
        standing base timeout (stack ++ literals) := appendAll_appendAll _ stack literals
    simp only [step, perform, Dialogue.held_bind, Dialogue.held_pure, Dialogue.Run.andThen,
      held_assuming, queries_askAll, List.append_nil, extended, formula_standing, timeout_standing]
    exact .askedUnder

theorem Step.Follows.after {step : Step} (follows : step.Follows base timeout stack) :
    step.after = standing base timeout (step.move.leaves stack) := by
  cases follows with
  | appended => rfl
  | underflow => rfl
  | retracted => rw [Move.leaves, List.dropLast_concat]
  | asked => rfl
  | askedUnder => rfl

/-! ### Whole runs -/

/-- How a step belongs to the base and the assumptions that stand before it. -/
structure Step.Disciplined (base : Formula) (timeout : Timeout) (stack : List Literal)
    (step : Step) : Prop where
  /-- Before the step there are the clauses of the base and the assumptions, in their order. -/
  before : step.before.formula =
    { base with clauses := base.clauses ++ stack.map fun literal => [literal] }
  /-- After it there are those of the base and the assumptions that the move leaves. -/
  after : step.after.formula =
    { base with clauses := base.clauses ++ (step.move.leaves stack).map fun literal => [literal] }
  /-- The assumption that is taken off is the last one. -/
  retracts : ∀ front last, step.move = .retract → stack = front ++ [last] →
    step.outcome = .retracted (.ok [last])
  /-- There is none to be taken off just if none stands. -/
  underflows : step.move = .retract →
    (step.outcome = .retracted (.error .underflow) ↔ stack = [])
  /-- And then the session stays as it is. -/
  keeps : step.outcome = .retracted (.error .underflow) → step.after = step.before
  /-- A question is about the clauses that are there. -/
  asks : ∀ question, step.move = .ask question →
    step.queries = [⟨question, base.assume stack, timeout⟩] ∧ step.after = step.before
  /-- A question under a guard is about these and the further assumptions after them, and once all
  is asked the session is as it was. -/
  guards : ∀ literals questions, step.move = .askUnder literals questions →
    step.queries =
        questions.map (fun question => ⟨question, base.assume (stack ++ literals), timeout⟩) ∧
      step.after = step.before

theorem Step.Follows.disciplined {step : Step} (follows : step.Follows base timeout stack) :
    step.Disciplined base timeout stack where
  before := by cases follows <;> exact formula_standing
  after := by rw [follows.after]; exact formula_standing
  retracts := by
    intro front last move same
    cases follows with
    | underflow => simp at same
    | retracted =>
      obtain ⟨-, same⟩ := List.append_inj' same rfl
      cases same
      rfl
    | appended | asked | askedUnder => cases move
  underflows := by
    intro move
    cases follows with
    | underflow => simp
    | retracted => simp
    | appended | asked | askedUnder => cases move
  keeps := by
    intro outcome
    cases follows with
    | underflow => rfl
    | appended | retracted | asked | askedUnder => cases outcome
  asks := by
    intro question move
    cases follows with
    | asked => cases move; exact ⟨rfl, rfl⟩
    | appended | underflow | retracted | askedUnder => cases move
  guards := by
    intro literals questions move
    cases follows with
    | askedUnder => cases move; exact ⟨rfl, rfl⟩
    | appended | underflow | retracted | asked => cases move

theorem follows_steps {oracle : Oracle (StateM σ)} {state : σ} {moves : List Move}
    {past future : List Step} {step : Step}
    (made : steps oracle state (standing base timeout stack) moves = past ++ step :: future) :
    step.Follows base timeout ((past.map Step.move).foldl Move.leaves stack) := by
  induction moves generalizing state stack past with
  | nil => simp [steps] at made
  | cons move moves ih =>
    have first : Step.Follows base timeout stack
        (Session.step oracle state (standing base timeout stack) move).1 :=
      follows_step oracle state move
    rw [steps] at made
    cases past with
    | nil =>
      cases made
      exact first
    | cons earlier past =>
      obtain ⟨same, later⟩ := List.cons.inj made
      subst same
      rw [first.after] at later
      have follows := ih later
      exact follows

theorem map_move_steps (oracle : Oracle (StateM σ)) (state : σ) (session : Session)
    (moves : List Move) : (steps oracle state session moves).map Step.move = moves := by
  induction moves generalizing state session with
  | nil => rfl
  | cons move moves ih => exact congrArg (move :: ·) (ih _ _)

/-- With any oracle, a run has a step for each move, and each step is as the base and the
assumptions that stand before it tell. -/
theorem steps_disciplined (oracle : Oracle (StateM σ)) (state : σ) (base : Formula)
    (timeout : Timeout) (moves : List Move) :
    (steps oracle state (start base timeout) moves).map Step.move = moves ∧
      ∀ past step future, steps oracle state (start base timeout) moves = past ++ step :: future →
        step.Disciplined base timeout (outstanding (past.map Step.move)) := by
  refine ⟨map_move_steps oracle state _ moves, ?_⟩
  intro past step future made
  have follows : step.Follows base timeout (outstanding (past.map Step.move)) :=
    follows_steps made
  exact follows.disciplined

end Session

end Backbone
