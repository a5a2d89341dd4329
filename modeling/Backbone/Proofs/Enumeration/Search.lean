import Backbone.Oracle.Enumeration

/-!
# How a search through masks ends

A search has three ways out: all masks were tried, a visit left nothing to learn, or a look at the
clock stopped it.  Each of them leaves behind what is known after a number of masks, so whatever
one more mask preserves holds at the end.

* `Fired` — a look at the clock that says the time is used up;
* `search_induct` — what one more mask preserves, carried to each way out of a search;
* `Ends` — the three ways out, with what is known then;
* `search_ends` — every search ends in one of them, for every clock;
* `search_none` — without a clock the monad of the search does not matter.
-/

namespace Backbone.Enumeration

variable {β : Type}

/-- At this mask there is a look at the clock, and the time is used up. -/
def Fired (clock : Option (Nat → Id Bool)) (mask : Nat) : Prop :=
  mask % checkInterval = 0 ∧ ∃ expired, clock = some expired ∧ Id.run (expired mask) = true

/-- The ways out of a search through the masks below a limit, where `Inv mask` holds of what is
known after the masks below `mask` and `Settled` of knowledge that ends the search. -/
inductive Ends (clock : Option (Nat → Id Bool)) (limit : Nat) (Inv : Nat → β → Prop)
    (Settled : β → Prop) : β × Ending → Prop
  | exhausted {known : β} : Inv limit known → Ends clock limit Inv Settled (known, .finished)
  | settled {mask : Nat} {known : β} : mask < limit → Inv (mask + 1) known → Settled known →
      Ends clock limit Inv Settled (known, .finished)
  | timedOut {mask : Nat} {known : β} : mask < limit → Inv mask known → Fired clock mask →
      Ends clock limit Inv Settled (known, .timedOut)

/-- One mask, after the look at the clock. -/
theorem search_succ {m : Type → Type} [Monad m] (clock : Option (Nat → m Bool))
    (accepted : Nat → Bool) (visit : Visit β) (count mask : Nat) (known : β) :
    search clock accepted visit (count + 1) mask known =
      let proceed : m (β × Ending) :=
        if accepted mask then
          if (visit known mask).2 then
            search clock accepted visit count (mask + 1) (visit known mask).1
          else pure ((visit known mask).1, .finished)
        else search clock accepted visit count (mask + 1) known
      if mask % checkInterval = 0 then
        match clock with
        | none => proceed
        | some expired => do if ← expired mask then pure (known, .timedOut) else proceed
      else proceed := by
  rw [search.eq_def]
  dsimp only
  rcases visit known mask with ⟨next, go⟩
  cases go <;> rfl

/-- What one more mask preserves while the search goes on holds of each of its ways out. -/
theorem search_induct {clock : Option (Nat → Id Bool)} {accepted : Nat → Bool} {visit : Visit β}
    {limit : Nat} {Inv : Nat → β → Prop} {Out : β × Ending → Prop}
    (skip : ∀ mask known, Inv mask known → accepted mask = false → Inv (mask + 1) known)
    (keep : ∀ mask known, Inv mask known → accepted mask = true → (visit known mask).2 = true →
      Inv (mask + 1) (visit known mask).1)
    (stop : ∀ mask known, mask < limit → Inv mask known → accepted mask = true →
      (visit known mask).2 = false → Out ((visit known mask).1, .finished))
    (fire : ∀ mask known, mask < limit → Inv mask known → Fired clock mask →
      Out (known, .timedOut))
    (exhaust : ∀ known, Inv limit known → Out (known, .finished))
    (count mask : Nat) (known : β) (within : mask + count = limit) (start : Inv mask known) :
    Out (Id.run (search clock accepted visit count mask known)) := by
  induction count generalizing mask known with
  | zero => exact exhaust known (within ▸ start)
  | succ count ih =>
    have inside : mask < limit := by omega
    have shift : mask + 1 + count = limit := by omega
    rw [search_succ]
    -- what follows the look at the clock is the same whether there was one or not
    have proceed : Out (Id.run (if accepted mask then
          if (visit known mask).2 then
            search clock accepted visit count (mask + 1) (visit known mask).1
          else pure ((visit known mask).1, .finished)
        else search clock accepted visit count (mask + 1) known)) := by
      cases take : accepted mask with
      | false =>
        rw [if_neg (by decide)]
        exact ih _ _ shift (skip mask known start take)
      | true =>
        rw [if_pos rfl]
        cases go : (visit known mask).2 with
        | false =>
          rw [if_neg (by decide)]
          exact stop mask known inside start take go
        | true =>
          rw [if_pos rfl]
          exact ih _ _ shift (keep mask known start take go)
    by_cases look : mask % checkInterval = 0
    · rw [if_pos look]
      cases clock with
      | none => exact proceed
      | some expired =>
        show Out (Id.run (if Id.run (expired mask) then _ else _))
        cases fired : Id.run (expired mask) with
        | false => exact proceed
        | true => exact fire mask known inside start ⟨look, expired, rfl, fired⟩
    · rw [if_neg look]
      exact proceed

theorem search_ends {accepted : Nat → Bool} {visit : Visit β} {Inv : Nat → β → Prop}
    {Settled : β → Prop}
    (skip : ∀ mask known, Inv mask known → accepted mask = false → Inv (mask + 1) known)
    (keep : ∀ mask known, Inv mask known → accepted mask = true →
      Inv (mask + 1) (visit known mask).1)
    (stop : ∀ mask known, (visit known mask).2 = false → Settled (visit known mask).1)
    (clock : Option (Nat → Id Bool)) (count mask : Nat) (known : β) (start : Inv mask known) :
    Ends clock (mask + count) Inv Settled
      (Id.run (search clock accepted visit count mask known)) := by
  refine search_induct skip ?_ ?_ ?_ ?_ count mask known rfl start
  · intro mask known inv take _
    exact keep mask known inv take
  · intro mask known inside inv take ended
    exact .settled inside (keep mask known inv take) (stop mask known ended)
  · intro mask known inside inv fired
    exact .timedOut inside inv fired
  · intro known inv
    exact .exhausted inv

/-- Without a clock the search asks nothing of its monad. -/
theorem search_none {m : Type → Type} [Monad m] (accepted : Nat → Bool) (visit : Visit β)
    (count mask : Nat) (known : β) :
    search (m := m) none accepted visit count mask known =
      pure (Id.run (search none accepted visit count mask known)) := by
  induction count generalizing mask known with
  | zero => rfl
  | succ count ih =>
    rw [search_succ, search_succ]
    simp only [ite_self]
    cases accepted mask with
    | false => exact ih _ _
    | true =>
      simp only [if_true]
      cases (visit known mask).2 with
      | false => rfl
      | true => exact ih _ _

end Backbone.Enumeration
