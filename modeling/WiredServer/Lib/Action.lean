import Mathlib

/-! Programs that change a state and may fail, and that leave the state as it is at the moment of
the failure. An invariant of all parts is one of the whole program.
-/

namespace Action

variable {ε σ α β : Type}

/-- The state after a program, whether it fails or not. -/
def after (action : EStateM ε σ α) (state : σ) : σ :=
  match action state with
  | .ok _ next => next
  | .error _ next => next

/-- A program keeps an invariant. -/
def Keeps (invariant : σ → Prop) (action : EStateM ε σ α) : Prop :=
  ∀ state, invariant state → invariant (after action state)

section Rules

variable {invariant : σ → Prop}

/-- Returning a value changes nothing. -/
theorem keeps_pure (value : α) : Keeps invariant (pure value : EStateM ε σ α) :=
  fun _ holds => holds

/-- Failing changes nothing. -/
theorem keeps_throw (failure : ε) : Keeps invariant (throw failure : EStateM ε σ α) :=
  fun _ holds => holds

/-- A sequence keeps what both of its parts keep. -/
theorem Keeps.bind {first : EStateM ε σ α} {rest : α → EStateM ε σ β}
    (kept : Keeps invariant first) (keptToo : ∀ value, Keeps invariant (rest value))
    : Keeps invariant (first >>= rest) := by
  intro state holds
  have middle := kept state holds
  rw [after] at middle
  show invariant (match EStateM.bind first rest state with
    | .ok _ next => next
    | .error _ next => next)
  rw [EStateM.bind]
  cases result : first state with
  | ok value next =>
      rw [result] at middle
      exact keptToo value next middle
  | error failure next =>
      rw [result] at middle
      exact middle

/-- A change of the state keeps what it keeps of every state. -/
theorem keeps_modify {change : σ → σ} (kept : ∀ state, invariant state → invariant (change state))
    : Keeps invariant (modify change : EStateM ε σ PUnit) :=
  kept

/-- Looking at the state keeps what the rest keeps for every state with the invariant. -/
theorem keeps_get {rest : σ → EStateM ε σ α}
    (kept : ∀ state, invariant state → Keeps invariant (rest state))
    : Keeps invariant (get >>= rest) :=
  fun state holds => kept state holds state holds

/-- A choice keeps what both branches keep. -/
theorem keeps_ite {condition : Prop} [Decidable condition] {first second : EStateM ε σ α}
    (kept : condition → Keeps invariant first) (keptToo : ¬condition → Keeps invariant second)
    : Keeps invariant (if condition then first else second) := by
  split
  · exact kept ‹_›
  · exact keptToo ‹_›

end Rules

/-- A sequence succeeds iff its first part does and the rest succeeds on its result. -/
theorem bind_eq_ok {first : EStateM ε σ α} {rest : α → EStateM ε σ β} {state last : σ}
    {result : β}
    : (first >>= rest) state = .ok result last
      ↔ ∃ value next, first state = .ok value next ∧ rest value next = .ok result last := by
  change EStateM.bind first rest state = _ ↔ _
  rw [EStateM.bind]
  cases first state with
  | ok value next => simp
  | error failure next => simp

/-- A sequence whose first part succeeds goes on with the rest. -/
theorem bind_of_ok {first : EStateM ε σ α} {rest : α → EStateM ε σ β} {state next : σ} {value : α}
    (ran : first state = .ok value next)
    : (first >>= rest) state = rest value next := by
  change EStateM.bind first rest state = _
  rw [EStateM.bind, ran]

/-- A sequence whose first part fails fails. -/
theorem bind_of_error {first : EStateM ε σ α} {rest : α → EStateM ε σ β} {state next : σ}
    {failure : ε} (failed : first state = .error failure next)
    : (first >>= rest) state = .error failure next := by
  change EStateM.bind first rest state = _
  rw [EStateM.bind, failed]

/-- The state after a sequence whose first part succeeds is the one after the rest. -/
theorem after_bind_of_ok {first : EStateM ε σ α} {rest : α → EStateM ε σ β} {state next : σ}
    {value : α} (ran : first state = .ok value next)
    : after (first >>= rest) state = after (rest value) next := by
  rw [after, after, bind_of_ok ran]

/-- Looking at the state leaves it to the rest. -/
theorem after_get {rest : σ → EStateM ε σ α} (state : σ)
    : after (get >>= rest) state = after (rest state) state :=
  rfl

end Action
