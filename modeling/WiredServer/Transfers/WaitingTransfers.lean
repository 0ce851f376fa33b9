import WiredServer.Transfers.ThreadSteps

/-! Transfers that wait stay scheduled: they stand in the list of the queue thread, unless the
session of another user with the same key ends and takes them out while they wait.
-/

set_option linter.unusedSectionVars false

namespace WiredServer.Transfers

variable {ι υ κ : Type} [DecidableEq ι] [DecidableEq υ] [DecidableEq κ]

namespace State

/-- The thread of a transfer is in `wd_transfers_wait_until_ready`. -/
def InWait (state : State ι υ κ) (id : ι) : Prop :=
  match state.thread id with
  | .waiting | .writing _ | .checking _ => True
  | _ => False

/-- Every transfer that waits with a position stands in the list exactly once, so that a pass can
still wake it.
-/
def StaysScheduled (state : State ι υ κ) : Prop :=
  ∀ id, state.InWait id → (state.transfer id).queue ≠ 0 → state.transfers.count id = 1

/-- No user that leaves takes a transfer out of the list that waits with a position. -/
def sparesWaiting (action : Action ι υ κ) (state : State ι υ κ) : Bool :=
  (state.removed action).all fun id =>
    !(state.thread id).isAwaiting || (state.transfer id).queue = 0

/-- Every transfer that waits with a position, or is about to, stands in the list. -/
def WaitingListed (state : State ι υ κ) : Prop :=
  ∀ id, (state.thread id).isAwaiting = true → (state.transfer id).queue ≠ 0 →
    id ∈ state.transfers

/-- A thread that waits is at a point of waiting. -/
theorem isAwaiting_of_inWait {state : State ι υ κ} {id : ι} (waits : state.InWait id)
    : (state.thread id).isAwaiting = true := by
  rw [InWait] at waits
  split at waits
  · rename_i here
    rw [here]
    rfl
  · rename_i here
    rw [here]
    rfl
  · rename_i here
    rw [here]
    rfl
  · exact waits.elim

/-- Taking one transfer out of the list leaves the others. -/
theorem mem_eraseIdx_of_ne {ids : List ι} {index : ℕ} {victim id : ι}
    (found : ids[index]? = some victim) (member : id ∈ ids) (ne : id ≠ victim)
    : id ∈ ids.eraseIdx index := by
  obtain ⟨position, here⟩ := List.mem_iff_getElem?.mp member
  refine List.mem_eraseIdx_iff_getElem?.mpr ⟨position, ?_, here⟩
  rintro rfl
  rw [found] at here
  exact ne (Option.some.inj here).symm

/-- Sessions, removals and settings leave the waiting transfers in the list, if they spare them. -/
theorem WaitingListed.leave {state next : State ι υ κ} {victim : Option ι}
    (listed : state.WaitingListed) (leaves : state.LeavesTransfers next victim)
    (spares : victim.all (fun id =>
      !(state.thread id).isAwaiting || (state.transfer id).queue = 0) = true)
    : next.WaitingListed := by
  intro id
  rw [leaves.thread, leaves.transfer]
  intro awaits positioned
  have member := listed id awaits positioned
  rcases leaves.transfers with same | ⟨index, other, isVictim, found, same⟩
  · rw [same]
    exact member
  · rw [same]
    refine mem_eraseIdx_of_ne found member ?_
    rintro rfl
    rw [isVictim] at spares
    simp [awaits, positioned] at spares

/-- A step of a transfer's thread leaves the waiting transfers in the list. -/
theorem WaitingListed.move {state next : State ι υ κ} {id : ι} {point : ThreadPoint}
    (listed : state.WaitingListed) (moves : state.MovesThread next id point)
    (step : ThreadStep state next id (state.thread id) point)
    : next.WaitingListed := by
  intro other
  rw [moves.thread, moves.queue]
  by_cases same : other = id
  · subst same
    rw [Function.update_self]
    intro awaits positioned
    have member : (state.thread other).isAwaiting = true → other ∈ state.transfers :=
      fun awaits => listed other awaits positioned
    generalize state.thread other = before at step member
    cases step with
    | add counters transfers =>
        rw [transfers]
        exact List.mem_append_right _ (List.mem_singleton_self other)
    | work counters transfers working worked stays =>
        rw [transfers]
        exact member (stays awaits)
    | decide =>
        split at awaits <;> cases awaits
    | removeTotal | removeUser | remove | reschedule => cases awaits
  · rw [Function.update_of_ne same]
    intro awaits positioned
    have member := listed other awaits positioned
    generalize state.thread id = before at step
    cases step with
    | add counters transfers =>
        rw [transfers]
        exact List.mem_append_left _ member
    | remove counters transfers =>
        rw [transfers]
        exact (List.mem_erase_of_ne same).mpr member
    | work counters transfers | decide counters transfers | removeTotal counters transfers
    | removeUser counters transfers | reschedule counters transfers =>
        rw [transfers]
        exact member

/-- A step of the queue thread leaves the waiting transfers in the list. -/
theorem WaitingListed.queueStep {state next : State ι υ κ} {point : QueuePoint ι κ}
    (sound : state.Sound) (listed : state.WaitingListed) (moves : state.MovesQueue next point)
    (step : QueueStep state next state.queueThread point)
    : next.WaitingListed := by
  intro id
  rw [moves.thread, moves.transfers]
  intro awaits positioned
  refine listed id awaits ?_
  have pass := sound.queueThread
  generalize state.queueThread = before at step pass
  cases step with
  | publish counters transfer =>
      rename_i served rest position newPosition
      by_cases same : id = served
      · rw [same]
        exact (pass.2 served List.mem_cons_self).2
      · rw [transfer, Function.update_of_ne same] at positioned
        exact positioned
  | lockQueue counters transfer | lockTransfers counters transfer | gather counters transfer
  | sort perm counters transfer | pass counters transfer | grant counters transfer
  | place nonzero counters transfer | addTotal counters transfer | addUser counters transfer
  | unlock counters transfer =>
      rw [transfer] at positioned
      exact positioned

/-- An action that spares the waiting transfers leaves them in the list. -/
theorem WaitingListed.step {state next : State ι υ κ} {action : Action ι υ κ}
    (sound : state.Sound) (listed : state.WaitingListed) (spares : sparesWaiting action state = true)
    (stepped : step action state = some next)
    : next.WaitingListed := by
  rcases step_cases stepped with ⟨-, leaves⟩ | ⟨id, transfer, starts⟩
    | ⟨id, writes, point, -, moves, threadStep⟩ | ⟨queueAction, point, -, moves, queueStep⟩
  · exact listed.leave leaves spares
  · intro other
    rw [starts.thread, starts.transfer, starts.transfers]
    by_cases same : other = id
    · rw [same, Function.update_self]
      exact fun awaits => by cases awaits
    · rw [Function.update_of_ne same, Function.update_of_ne same]
      exact listed other
  · exact listed.move moves threadStep
  · exact listed.queueStep sound moves queueStep

/-- In every run in which no user that leaves takes out a waiting transfer, the waiting transfers
stay scheduled.
-/
theorem staysScheduled_of_run {transfer : ι → Transfer υ κ} {actions : List (Action ι υ κ)}
    {state : State ι υ κ} (ran : Machine.run step actions (initial transfer) = some state)
    (spares : Machine.Meets step (sparesWaiting · ·) actions (initial transfer))
    : state.StaysScheduled := by
  have kept : ∀ action (state next : State ι υ κ), sparesWaiting action state = true →
      state.Sound ∧ state.WaitingListed → step action state = some next →
      next.Sound ∧ next.WaitingListed :=
    fun action state next spared holds stepped =>
      ⟨holds.1.step stepped, holds.2.step holds.1 spared stepped⟩
  have nothingWaits : (initial transfer : State ι υ κ).WaitingListed :=
    fun id awaits => by cases awaits
  obtain ⟨sound, listed⟩ := Machine.holds_of_run kept ran spares
    ⟨sound_initial transfer, nothingWaits⟩
  intro id waits positioned
  have member := listed id (isAwaiting_of_inWait waits) positioned
  exact List.count_eq_one_of_mem sound.transfers_nodup member

section Kicked

/-- Sessions 0 and 1 of one login and address, and a session 2 whose download takes the only slot.
The download of session 0 waits at position 1 when the session is kicked and session 1 leaves.
-/
def kickedRun : List (Action ℕ ℕ ℕ) :=
  [.session 0 .connect, .session 0 (.setKey 7), .session 0 .logIn,
    .session 1 .connect, .session 1 (.setKey 7), .session 1 .logIn,
    .session 2 .connect, .session 2 (.setKey 8), .session 2 .logIn,
    .session 2 (.start 0 .download 0), .thread 0 true, .thread 0 true,
    .session 0 (.start 1 .download 1), .thread 1 true, .thread 1 true,
    .queue .lockQueue, .queue .lockTransfers, .queue .gather, .queue .gather,
    .queue (.sort [8, 7]), .queue (.decide ⟨1, 0⟩ ⟨0, 0⟩), .queue .add, .queue .add,
    .queue .publish, .queue (.decide ⟨1, 0⟩ ⟨0, 0⟩), .queue .publish, .queue .unlock,
    .thread 1 true, .thread 1 true, .thread 1 true,
    .disconnect 0, .session 1 .leave, .remove 1 false, .remove 1 false, .remove 1 false,
    .remove 1 false, .remove 1 false, .remove 1 false, .remove 1 false, .remove 1 false,
    .remove 1 false, .remove 1 false]

/-- Before session 1 leaves, the download is in the list. -/
theorem staysScheduled_of_run_beforeLeave
    : ∃ state, Machine.run step (kickedRun.take 30) (initial blank) = some state
        ∧ state.StaysScheduled := by
  have reached : (Machine.run step (kickedRun.take 30) (initial blank)).isSome = true := by decide
  obtain ⟨state, ran⟩ := Option.isSome_iff_exists.mp reached
  exact ⟨state, ran, staysScheduled_of_run ran (by decide)⟩

/-- The kicked session's download still waits at position 1, and is not in the list. -/
theorem not_staysScheduled_kicked
    : ¬∀ (actions : List (Action ℕ ℕ ℕ)) (state : State ℕ ℕ ℕ),
        Machine.run step actions (initial blank) = some state → state.StaysScheduled := by
  intro always
  have reached : (Machine.run step kickedRun (initial blank)).map
      (fun state => (state.thread 1, (state.transfer 1).queue, state.transfers))
        = some (.waiting, 1, [0]) := by
    decide
  obtain ⟨state, ran, here⟩ := Option.map_eq_some_iff.mp reached
  simp only [Prod.mk.injEq] at here
  have waits : state.InWait 1 := by
    rw [InWait, here.1]
    trivial
  have once := always kickedRun state ran 1 waits (by rw [here.2.1]; decide)
  rw [here.2.2] at once
  cases once

end Kicked

end State

end WiredServer.Transfers
