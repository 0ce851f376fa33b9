import Mathlib
import WiredServer.Lib.Bytes
import WiredServer.Lib.Fallible

/-! Programs over raw memory: accesses that may fault, and loops that run a body until it
stops. A loop carries fuel, and running out of it is a fault of its own, so a result proves
that the loop ended.
-/

namespace Loop

/-- Why a program has no result. -/
inductive Fault where
  /-- An access leaves its block. -/
  | outside
  /-- A null pointer is followed. -/
  | nullPointer
  /-- A loop does not end within its fuel. -/
  | endless
deriving DecidableEq, Repr

/-- A program that may fault. -/
abbrev Access := Except Fault

/-- The result of an access to a block, which is missing when the access leaves the block. -/
def inside {α : Type} : Option α → Access α
  | some value => .ok value
  | none => .error .outside

@[simp] theorem inside_some {α : Type} (value : α) : inside (some value) = .ok value := rfl

@[simp] theorem inside_none {α : Type} : inside (none : Option α) = .error .outside := rfl

/-- An access has the result of its block. -/
theorem inside_eq_ok {α : Type} {access : Option α} {value : α}
    : inside access = .ok value ↔ access = some value := by
  cases access <;> simp [inside]

/-- A program that returns, with whatever result. -/
def Returns {α : Type} (program : Access α) : Prop :=
  ∃ result, program = .ok result

/-- A sequence returns iff its first part does and the rest returns on its result. -/
theorem returns_bind {α β : Type} {first : Access α} {rest : α → Access β}
    : Returns (first >>= rest) ↔ ∃ value, first = .ok value ∧ Returns (rest value) := by
  simp only [Returns, Fallible.bind_eq_ok]
  constructor
  · rintro ⟨result, value, ran, returned⟩
    exact ⟨value, ran, result, returned⟩
  · rintro ⟨value, ran, result, returned⟩
    exact ⟨result, value, ran, returned⟩

/-- A sequence whose first part has run returns iff the rest does. -/
theorem returns_bind_ok {α β : Type} {first : Access α} {value : α} {rest : α → Access β}
    (ran : first = .ok value)
    : Returns (first >>= rest) ↔ Returns (rest value) := by
  subst ran
  rfl

/-- A finished program returns. -/
@[simp] theorem returns_ok {α : Type} (value : α) : Returns (.ok value : Access α) :=
  ⟨value, rfl⟩

/-- A fault is no return. -/
@[simp] theorem not_returns_error {α : Type} (fault : Fault)
    : ¬Returns (.error fault : Access α) := by
  simp [Returns]

/-- Changing a result keeps whether a program returns. -/
theorem returns_map {α β : Type} {program : Access α} {change : α → β}
    : Returns (program >>= fun value => .ok (change value)) ↔ Returns program := by
  rw [returns_bind]
  simp [Returns]

/-- A loop over a list returns when each of its rounds does, by list induction. -/
theorem returns_foldlM {α σ : Type} {step : σ → α → Access σ} {items : List α}
    (rounds : ∀ item ∈ items, ∀ state, Returns (step state item)) {init : σ}
    : Returns (items.foldlM step init) := by
  induction items generalizing init with
  | nil => exact returns_ok init
  | cons item rest ih =>
      obtain ⟨next, round⟩ := rounds item (.head _) init
      rw [List.foldlM_cons, returns_bind_ok round]
      exact ih fun other member => rounds other (.tail _ member)

/-- An access returns iff it has a result. -/
theorem returns_inside {α : Type} {access : Option α}
    : Returns (inside access) ↔ ∃ value, access = some value := by
  cases access <;> simp [Returns]

/-- What one round of a loop decides. -/
inductive Turn (σ ρ : Type) where
  | again (state : σ)
  | stop (result : ρ)
deriving DecidableEq, Repr

variable {σ ρ : Type}

/-- Runs a loop body until it stops. -/
def run (body : σ → Access (Turn σ ρ)) : ℕ → σ → Access ρ
  | 0, _ => .error .endless
  | fuel + 1, state => do
      match ← body state with
      | .again next => run body fuel next
      | .stop result => .ok result

section Rules

variable {body : σ → Access (Turn σ ρ)}

/-- A round that goes on continues with its next state. -/
theorem run_again {fuel : ℕ} {state next : σ} (round : body state = .ok (.again next))
    : run body (fuel + 1) state = run body fuel next := by
  simp [run, round, bind, Except.bind]

/-- A round that stops ends the loop. -/
theorem run_stop {fuel : ℕ} {state : σ} {result : ρ} (round : body state = .ok (.stop result))
    : run body (fuel + 1) state = .ok result := by
  simp [run, round, bind, Except.bind]

/-- A round that faults ends the loop with its fault. -/
theorem run_fault {fuel : ℕ} {state : σ} {fault : Fault} (round : body state = .error fault)
    : run body (fuel + 1) state = .error fault := by
  simp [run, round, bind, Except.bind]

/-- A loop that ended had fuel, and its first round either stopped or went on to a loop that
ended.
-/
theorem run_eq_ok {fuel : ℕ} {state : σ} {result : ρ} (ended : run body fuel state = .ok result)
    : ∃ rest, fuel = rest + 1
      ∧ (body state = .ok (.stop result)
        ∨ ∃ next, body state = .ok (.again next) ∧ run body rest next = .ok result) := by
  cases fuel with
  | zero => cases ended
  | succ rest =>
      refine ⟨rest, rfl, ?_⟩
      rw [run, Fallible.bind_eq_ok] at ended
      obtain ⟨turn, round, ended⟩ := ended
      cases turn with
      | again next => exact .inr ⟨next, round, ended⟩
      | stop other =>
          cases ended
          exact .inl round

end Rules

-----------------------------------------------------------------------------------------
-- Rounds
-----------------------------------------------------------------------------------------

/-- The states that a loop goes on to, one after the other, before it stops with a result. -/
inductive Rounds (body : σ → Access (Turn σ ρ)) : σ → List σ → ρ → Prop where
  | stop {state : σ} {result : ρ} (round : body state = .ok (.stop result))
      : Rounds body state [] result
  | again {state next : σ} {states : List σ} {result : ρ}
      (round : body state = .ok (.again next)) (rest : Rounds body next states result)
      : Rounds body state (next :: states) result

section Rounds

variable {body : σ → Access (Turn σ ρ)} {state : σ} {states : List σ} {result : ρ}

/-- With fuel for its rounds a loop ends with their result. -/
theorem Rounds.run_eq {fuel : ℕ} (rounds : Rounds body state states result)
    (enough : states.length < fuel)
    : run body fuel state = .ok result := by
  induction rounds generalizing fuel with
  | stop round =>
      obtain ⟨rest, rfl⟩ : ∃ rest, fuel = rest + 1 := ⟨fuel - 1, by omega⟩
      exact run_stop round
  | again round rest ih =>
      rw [List.length_cons] at enough
      obtain ⟨fuel, rfl⟩ : ∃ rest, fuel = rest + 1 := ⟨fuel - 1, by omega⟩
      rw [run_again round]
      exact ih (by omega)

end Rounds

end Loop
