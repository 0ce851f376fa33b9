import WiredServer.Transfers.Threads

/-! What the threads around the transfer queue keep up in every interleaving: each transfer has one
thread and stands once in the list while that thread is in the queue, and a pass gives each
transfer one turn.
-/

set_option linter.unusedSectionVars false

namespace WiredServer.Transfers

variable {ι υ κ : Type} [DecidableEq ι] [DecidableEq υ] [DecidableEq κ]

/-- The points at which a transfer waits for a slot or is about to. -/
def ThreadPoint.isAwaiting : ThreadPoint → Bool
  | .scheduling | .waiting | .writing _ | .checking _ => true
  | _ => false

/-- The points at which a transfer may stand in the list. -/
def ThreadPoint.isListed : ThreadPoint → Bool
  | .absent | .adding | .rescheduling | .ended => false
  | _ => true

/-- The points between joining the list and deciding whether there is a slot to give back. -/
def ThreadPoint.isWorking : ThreadPoint → Bool
  | .scheduling | .waiting | .writing _ | .checking _ | .starting | .running | .finishing => true
  | _ => false

/-- A transfer at work stands in the list. -/
theorem ThreadPoint.isListed_of_isWorking {point : ThreadPoint} (working : point.isWorking = true)
    : point.isListed = true := by
  cases point <;> first | rfl | cases working

namespace State

section Environment

/-- The transfer that a call of `wd_transfers_remove_user` is about to take out of the list. -/
def victim (state : State ι υ κ) : RemovalPoint υ κ → Option ι
  | .scanning key index _ =>
      state.transfers[index]?.filter fun id =>
        key = (state.transfer id).key && (state.transfer id).state ≠ .running
  | _ => none

/-- The call of `wd_transfers_remove_user` that an action advances. -/
def removal (state : State ι υ κ) : Action ι υ κ → Option (RemovalPoint υ κ)
  | .remove user _ =>
      match (state.session user).point with
      | .removing point => some point
      | _ => none
  | .sweep _ => state.sweep.bind Prod.snd
  | _ => none

/-- The transfer that an action takes out of the list because a user leaves. -/
def removed (state : State ι υ κ) (action : Action ι υ κ) : Option ι :=
  (state.removal action).bind state.victim

/-- What sessions and removals leave as it is: everything about transfers, except that one may be
taken out of the list.
-/
structure LeavesTransfers (state next : State ι υ κ) (victim : Option ι) : Prop where
  counters : next.counters = state.counters
  started : next.started = state.started
  thread : next.thread = state.thread
  transfer : next.transfer = state.transfer
  queueThread : next.queueThread = state.queueThread
  transfers : next.transfers = state.transfers
    ∨ ∃ index id, victim = some id ∧ state.transfers[index]? = some id
      ∧ next.transfers = state.transfers.eraseIdx index

/-- A step that leaves all transfers and the list. -/
theorem leavesTransfers_of_eq {state next : State ι υ κ} (victim : Option ι)
    (counters : next.counters = state.counters) (started : next.started = state.started)
    (thread : next.thread = state.thread) (transfer : next.transfer = state.transfer)
    (queueThread : next.queueThread = state.queueThread)
    (transfers : next.transfers = state.transfers)
    : state.LeavesTransfers next victim :=
  ⟨counters, started, thread, transfer, queueThread, .inl transfers⟩

/-- A call of `wd_transfers_remove_user` takes out its victim, if it has one. -/
theorem leavesTransfers_stepRemoval {state next : State ι υ κ} {timeout : Bool}
    {point : RemovalPoint υ κ} {after : Option (RemovalPoint υ κ)}
    (stepped : state.stepRemoval timeout point = some (next, after))
    : state.LeavesTransfers next (state.victim point) := by
  cases point with
  | asking key rest =>
      cases rest with
      | nil =>
          cases stepped
          exact leavesTransfers_of_eq _ rfl rfl rfl rfl rfl rfl
      | cons user rest =>
          rw [stepRemoval] at stepped
          split at stepped <;> cases stepped
            <;> exact leavesTransfers_of_eq _ rfl rfl rfl rfl rfl rfl
  | locking key =>
      rw [stepRemoval] at stepped
      split at stepped <;> cases stepped
      exact leavesTransfers_of_eq _ rfl rfl rfl rfl rfl rfl
  | scanning key index update =>
      rw [stepRemoval] at stepped
      cases found : state.transfers[index]? with
      | none =>
          rw [found] at stepped
          simp only at stepped
          split at stepped <;> cases stepped
            <;> exact leavesTransfers_of_eq _ rfl rfl rfl rfl rfl rfl
      | some id =>
          rw [found] at stepped
          simp only at stepped
          split_ifs at stepped with same running ended <;> cases stepped
          · exact leavesTransfers_of_eq _ rfl rfl rfl rfl rfl rfl
          · refine ⟨rfl, rfl, rfl, rfl, rfl, .inr ⟨index, id, ?_, found, rfl⟩⟩
            simp [victim, found, same, running]
          · exact leavesTransfers_of_eq _ rfl rfl rfl rfl rfl rfl
  | signalling =>
      rw [stepRemoval] at stepped
      split at stepped <;> cases stepped
      exact leavesTransfers_of_eq _ rfl rfl rfl rfl rfl rfl

/-- A session that ends takes out the victim of its call. -/
theorem leavesTransfers_stepLeaving {state next : State ι υ κ} {user : υ} {timeout : Bool}
    (stepped : state.stepLeaving user timeout = some next)
    : state.LeavesTransfers next (state.removed (.remove user timeout)) := by
  rw [stepLeaving] at stepped
  cases point : (state.session user).point with
  | absent | serving | transferring | gone =>
      rw [point] at stepped
      cases stepped
  | leaving =>
      rw [point] at stepped
      simp only at stepped
      split at stepped
      · cases stepped
        exact leavesTransfers_of_eq _ rfl rfl rfl rfl rfl rfl
      · split at stepped <;> cases stepped
        exact leavesTransfers_of_eq _ rfl rfl rfl rfl rfl rfl
  | removing call =>
      rw [point] at stepped
      obtain ⟨⟨middle, after⟩, removes, same⟩ := Option.map_eq_some_iff.mp stepped
      subst same
      have leaves := leavesTransfers_stepRemoval removes
      have here : state.removed (.remove user timeout) = state.victim call := by
        simp [removed, removal, point]
      rw [here]
      exact ⟨leaves.1, leaves.2, leaves.3, leaves.4, leaves.5, leaves.6⟩
  | closing =>
      rw [point] at stepped
      simp only at stepped
      split at stepped <;> cases stepped
      exact leavesTransfers_of_eq _ rfl rfl rfl rfl rfl rfl

/-- The shutdown takes out the victim of its call. -/
theorem leavesTransfers_stepSweep {state next : State ι υ κ} {timeout : Bool}
    (stepped : state.stepSweep timeout = some next)
    : state.LeavesTransfers next (state.removed (.sweep timeout)) := by
  rw [stepSweep] at stepped
  split at stepped
  · cases stepped
  · cases stepped
    exact leavesTransfers_of_eq _ rfl rfl rfl rfl rfl rfl
  · cases stepped
    exact leavesTransfers_of_eq _ rfl rfl rfl rfl rfl rfl
  · rename_i rest call sweeps
    obtain ⟨⟨middle, after⟩, removes, same⟩ := Option.map_eq_some_iff.mp stepped
    subst same
    have leaves := leavesTransfers_stepRemoval removes
    have here : state.removed (.sweep timeout) = state.victim call := by
      simp [removed, removal, sweeps]
    rw [here]
    exact ⟨leaves.1, leaves.2, leaves.3, leaves.4, leaves.5, leaves.6⟩

/-- Whether an action belongs to sessions, removals or settings. -/
def isEnvironment : Action ι υ κ → Bool
  | .thread _ _ | .queue _ | .session _ (.start _ _ _) => false
  | _ => true

/-- Sessions, removals and settings leave the transfers. -/
theorem leavesTransfers_step {state next : State ι υ κ} {action : Action ι υ κ}
    (environment : isEnvironment action = true) (stepped : step action state = some next)
    : state.LeavesTransfers next (state.removed action) := by
  cases action with
  | thread | queue => cases environment
  | session user action =>
      rw [step] at stepped
      cases action with
      | start => cases environment
      | connect | setKey key | logIn | leave =>
          rw [stepSession] at stepped
          split at stepped <;> cases stepped
          exact leavesTransfers_of_eq _ rfl rfl rfl rfl rfl rfl
  | disconnect user =>
      cases stepped
      exact leavesTransfers_of_eq _ rfl rfl rfl rfl rfl rfl
  | applySettings | removeAllUsers =>
      rw [step] at stepped
      split at stepped <;> cases stepped
      exact leavesTransfers_of_eq _ rfl rfl rfl rfl rfl rfl
  | remove user timeout => exact leavesTransfers_stepLeaving stepped
  | sweep timeout => exact leavesTransfers_stepSweep stepped

end Environment

section Threads

/-- What every step of a transfer's thread does: it goes on to another point, and of the transfers
only states and conditions change.
-/
structure MovesThread (state next : State ι υ κ) (id : ι) (point : ThreadPoint) : Prop where
  present : state.thread id ≠ .absent
  moves : point ≠ .absent
  thread : next.thread = Function.update state.thread id point
  started : next.started = state.started
  queueThread : next.queueThread = state.queueThread
  user : ∀ other, (next.transfer other).user = (state.transfer other).user
  key : ∀ other, (next.transfer other).key = (state.transfer other).key
  type : ∀ other, (next.transfer other).type = (state.transfer other).type
  queue : ∀ other, (next.transfer other).queue = (state.transfer other).queue

/-- The steps of a transfer's thread: those at both ends of its life and those in between, which
change neither the list nor the counters.
-/
inductive ThreadStep (state next : State ι υ κ) (id : ι) : ThreadPoint → ThreadPoint → Prop where
  | add (counters : next.counters = state.counters)
      (transfers : next.transfers = state.transfers ++ [id])
      : ThreadStep state next id .adding .scheduling
  | work {before after : ThreadPoint} (counters : next.counters = state.counters)
      (transfers : next.transfers = state.transfers) (working : before.isWorking = true)
      (worked : after.isWorking = true ∨ after = .deciding)
      (awaits : after.isAwaiting = true → before.isAwaiting = true)
      : ThreadStep state next id before after
  | decide (counters : next.counters = state.counters)
      (transfers : next.transfers = state.transfers)
      : ThreadStep state next id .deciding
          (if (state.transfer id).queue = 0 then .removingTotal else .removing)
  | removeTotal
      (counters : next.counters = state.counters.countActive (state.transfer id).type false)
      (transfers : next.transfers = state.transfers)
      : ThreadStep state next id .removingTotal .removingUser
  | removeUser
      (counters : next.counters
        = state.counters.countUser (state.transfer id).type (state.transfer id).key false)
      (transfers : next.transfers = state.transfers)
      : ThreadStep state next id .removingUser .removing
  | remove (counters : next.counters = state.counters)
      (transfers : next.transfers = state.transfers.erase id)
      : ThreadStep state next id .removing .rescheduling
  | reschedule (counters : next.counters = state.counters)
      (transfers : next.transfers = state.transfers)
      : ThreadStep state next id .rescheduling .ended

/-- A step that leaves the transfers moves its thread. -/
theorem movesThread_goTo {state middle : State ι υ κ} {id : ι} {point : ThreadPoint}
    (present : state.thread id ≠ .absent) (moves : point ≠ .absent)
    (thread : middle.thread = state.thread) (started : middle.started = state.started)
    (queueThread : middle.queueThread = state.queueThread)
    (transfer : middle.transfer = state.transfer)
    : state.MovesThread (middle.goTo id point) id point where
  present := present
  moves := moves
  thread := by rw [← thread]; rfl
  started := started
  queueThread := queueThread
  user := fun other => by rw [← transfer]; rfl
  key := fun other => by rw [← transfer]; rfl
  type := fun other => by rw [← transfer]; rfl
  queue := fun other => by rw [← transfer]; rfl

/-- A step that changes the state or the condition of the transfer moves its thread. -/
theorem movesThread_setTransfer {state : State ι υ κ} {id : ι} {point : ThreadPoint}
    {transfer : Transfer υ κ} (present : state.thread id ≠ .absent) (moves : point ≠ .absent)
    (user : transfer.user = (state.transfer id).user)
    (key : transfer.key = (state.transfer id).key)
    (type : transfer.type = (state.transfer id).type)
    (queue : transfer.queue = (state.transfer id).queue)
    : state.MovesThread ((state.setTransfer id transfer).goTo id point) id point where
  present := present
  moves := moves
  thread := rfl
  started := rfl
  queueThread := rfl
  user := by
    intro other
    by_cases same : other = id
    · simp [goTo, setTransfer, same, user]
    · simp [goTo, setTransfer, same]
  key := by
    intro other
    by_cases same : other = id
    · simp [goTo, setTransfer, same, key]
    · simp [goTo, setTransfer, same]
  type := by
    intro other
    by_cases same : other = id
    · simp [goTo, setTransfer, same, type]
    · simp [goTo, setTransfer, same]
  queue := by
    intro other
    by_cases same : other = id
    · simp [goTo, setTransfer, same, queue]
    · simp [goTo, setTransfer, same]

/-- What a step of a transfer's thread does. -/
theorem stepThread_cases {state next : State ι υ κ} {id : ι} {writes : Bool}
    (stepped : state.stepThread id writes = some next)
    : ∃ point, state.MovesThread next id point
        ∧ ThreadStep state next id (state.thread id) point := by
  rw [stepThread] at stepped
  cases here : state.thread id with
  | absent | ended =>
      rw [here] at stepped
      cases stepped
  | adding =>
      rw [here] at stepped
      simp only at stepped
      split at stepped <;> cases stepped
      exact ⟨.scheduling, movesThread_goTo (by simp [here]) (by simp) rfl rfl rfl rfl,
        .add rfl rfl⟩
  | scheduling =>
      rw [here] at stepped
      simp only at stepped
      split at stepped <;> cases stepped
      exact ⟨.waiting, movesThread_goTo (by simp [here]) (by simp) rfl rfl rfl rfl,
        .work rfl rfl rfl (.inl rfl) fun _ => rfl⟩
  | waiting =>
      rw [here] at stepped
      simp only at stepped
      split at stepped <;> cases stepped
      refine ⟨_, movesThread_setTransfer (by simp [here]) (by split <;> simp) rfl rfl rfl rfl,
        .work rfl rfl rfl (.inl ?_) fun _ => rfl⟩
      split <;> rfl
  | writing queue =>
      rw [here] at stepped
      cases stepped
      refine ⟨_, movesThread_goTo (by simp [here]) (by split <;> simp) rfl rfl rfl rfl,
        .work rfl rfl rfl ?_ fun _ => rfl⟩
      cases writes
      · exact .inr rfl
      · exact .inl rfl
  | checking queue =>
      rw [here] at stepped
      cases stepped
      refine ⟨_, movesThread_goTo (by simp [here]) (by split <;> simp) rfl rfl rfl rfl,
        .work rfl rfl rfl (.inl ?_) fun _ => rfl⟩
      split <;> rfl
  | starting =>
      rw [here] at stepped
      cases stepped
      exact ⟨_, movesThread_setTransfer (by simp [here]) (by simp) rfl rfl rfl rfl,
        .work rfl rfl rfl (.inl rfl) fun awaits => by cases awaits⟩
  | running =>
      rw [here] at stepped
      cases stepped
      exact ⟨_, movesThread_goTo (by simp [here]) (by simp) rfl rfl rfl rfl,
        .work rfl rfl rfl (.inl rfl) fun awaits => by cases awaits⟩
  | finishing =>
      rw [here] at stepped
      cases stepped
      exact ⟨_, movesThread_goTo (by simp [here]) (by simp) rfl rfl rfl rfl,
        .work rfl rfl rfl (.inr rfl) fun awaits => by cases awaits⟩
  | deciding =>
      rw [here] at stepped
      cases stepped
      exact ⟨_, movesThread_goTo (by simp [here]) (by split <;> simp) rfl rfl rfl rfl,
        .decide rfl rfl⟩
  | removingTotal =>
      rw [here] at stepped
      cases stepped
      exact ⟨_, movesThread_goTo (by simp [here]) (by simp) rfl rfl rfl rfl,
        .removeTotal rfl rfl⟩
  | removingUser =>
      rw [here] at stepped
      cases stepped
      exact ⟨_, movesThread_goTo (by simp [here]) (by simp) rfl rfl rfl rfl,
        .removeUser rfl rfl⟩
  | removing =>
      rw [here] at stepped
      simp only at stepped
      split at stepped <;> cases stepped
      exact ⟨_, movesThread_goTo (by simp [here]) (by simp) rfl rfl rfl rfl, .remove rfl rfl⟩
  | rescheduling =>
      rw [here] at stepped
      simp only at stepped
      split at stepped <;> cases stepped
      exact ⟨_, movesThread_goTo (by simp [here]) (by simp) rfl rfl rfl rfl,
        .reschedule rfl rfl⟩

end Threads

section Queue

/-- What every step of the queue thread leaves: the list, the threads and most of a transfer. -/
structure MovesQueue (state next : State ι υ κ) (point : QueuePoint ι κ) : Prop where
  queueThread : next.queueThread = point
  thread : next.thread = state.thread
  started : next.started = state.started
  transfers : next.transfers = state.transfers

/-- The steps of the queue thread. Only three of them change more than where it is: a slot is
added to the total and to the number of its key, and a position is published.
-/
inductive QueueStep (state next : State ι υ κ) : QueuePoint ι κ → QueuePoint ι κ → Prop where
  | lockQueue (counters : next.counters = state.counters)
      (transfer : next.transfer = state.transfer)
      : QueueStep state next .idle .locked
  | lockTransfers (counters : next.counters = state.counters)
      (transfer : next.transfer = state.transfer)
      : QueueStep state next .locked (.gathering state.transfers .empty)
  | gather {id : ι} {rest : List ι} {keyQueues : KeyQueues ι κ}
      (counters : next.counters = state.counters) (transfer : next.transfer = state.transfer)
      : QueueStep state next (.gathering (id :: rest) keyQueues) (.gathering rest
          (if (state.transfer id).isWaiting then keyQueues.add (state.transfer id).key id
          else keyQueues))
  | sort {keys : List κ} {keyQueues : KeyQueues ι κ} (perm : keys.Perm keyQueues.keys)
      (counters : next.counters = state.counters) (transfer : next.transfer = state.transfer)
      : QueueStep state next (.gathering [] keyQueues)
          (.serving (RoundRobin.order keys keyQueues.queues keyQueues.longestQueue) 1)
  | pass {id : ι} {rest : List ι} {position position' : ℤ}
      (counters : next.counters = state.counters) (transfer : next.transfer = state.transfer)
      : QueueStep state next (.serving (id :: rest) position) (.serving rest position')
  | grant {id : ι} {rest : List ι} {position position' : ℤ}
      (counters : next.counters = state.counters) (transfer : next.transfer = state.transfer)
      : QueueStep state next (.serving (id :: rest) position) (.addingTotal id rest position')
  | place {id : ι} {rest : List ι} {position position' newPosition : ℤ}
      (nonzero : newPosition ≠ 0) (counters : next.counters = state.counters)
      (transfer : next.transfer = state.transfer)
      : QueueStep state next (.serving (id :: rest) position)
          (.publishing id newPosition rest position')
  | addTotal {id : ι} {rest : List ι} {position : ℤ}
      (counters : next.counters = state.counters.countActive (state.transfer id).type true)
      (transfer : next.transfer = state.transfer)
      : QueueStep state next (.addingTotal id rest position) (.addingUser id rest position)
  | addUser {id : ι} {rest : List ι} {position : ℤ}
      (counters : next.counters
        = state.counters.countUser (state.transfer id).type (state.transfer id).key true)
      (transfer : next.transfer = state.transfer)
      : QueueStep state next (.addingUser id rest position) (.publishing id 0 rest position)
  | publish {id : ι} {rest : List ι} {position newPosition : ℤ}
      (counters : next.counters = state.counters)
      (transfer : next.transfer = Function.update state.transfer id
        { state.transfer id with queue := newPosition, ready := true })
      : QueueStep state next (.publishing id newPosition rest position) (.serving rest position)
  | unlock {position : ℤ} (counters : next.counters = state.counters)
      (transfer : next.transfer = state.transfer)
      : QueueStep state next (.serving [] position) .idle

/-- What a step of the queue thread does. -/
theorem stepQueue_cases {state next : State ι υ κ} {action : QueueAction κ}
    (stepped : state.stepQueue action = some next)
    : ∃ point, state.MovesQueue next point
        ∧ QueueStep state next state.queueThread point := by
  unfold stepQueue at stepped
  split at stepped
  case h_1 here =>
    split at stepped <;> cases stepped
    exact ⟨_, ⟨rfl, rfl, rfl, rfl⟩, here ▸ .lockQueue rfl rfl⟩
  case h_2 here =>
    split at stepped <;> cases stepped
    exact ⟨_, ⟨rfl, rfl, rfl, rfl⟩, here ▸ .lockTransfers rfl rfl⟩
  case h_3 here =>
    cases stepped
    exact ⟨_, ⟨rfl, rfl, rfl, rfl⟩, here ▸ .gather rfl rfl⟩
  case h_4 here =>
    split at stepped <;> cases stepped
    rename_i may
    exact ⟨_, ⟨rfl, rfl, rfl, rfl⟩, here ▸ .sort may.1 rfl rfl⟩
  case h_5 total account id rest position here =>
    simp only at stepped
    generalize (if state.counters.isFull total account (state.transfer id).type
      (state.transfer id).key = true then position else 0) = newPosition at stepped
    generalize (if state.counters.isFull total account (state.transfer id).type
      (state.transfer id).key = true then position + 1 else position) = position' at stepped
    split_ifs at stepped with changes zero <;> cases stepped
    · exact ⟨_, ⟨rfl, rfl, rfl, rfl⟩, here ▸ .grant rfl rfl⟩
    · exact ⟨_, ⟨rfl, rfl, rfl, rfl⟩, here ▸ .place zero rfl rfl⟩
    · exact ⟨_, ⟨rfl, rfl, rfl, rfl⟩, here ▸ .pass rfl rfl⟩
  case h_6 here =>
    cases stepped
    exact ⟨_, ⟨rfl, rfl, rfl, rfl⟩, here ▸ .addTotal rfl rfl⟩
  case h_7 here =>
    cases stepped
    exact ⟨_, ⟨rfl, rfl, rfl, rfl⟩, here ▸ .addUser rfl rfl⟩
  case h_8 here =>
    cases stepped
    exact ⟨_, ⟨rfl, rfl, rfl, rfl⟩, here ▸ .publish rfl rfl⟩
  case h_9 here =>
    cases stepped
    exact ⟨_, ⟨rfl, rfl, rfl, rfl⟩, here ▸ .unlock rfl rfl⟩
  case h_10 => cases stepped

end Queue

section Step

/-- A transfer that a session starts has a thread of its own and no slot. -/
structure Starts (state next : State ι υ κ) (id : ι) (transfer : Transfer υ κ) : Prop where
  absent : state.thread id = .absent
  waits : transfer.queue ≠ 0
  thread : next.thread = Function.update state.thread id .adding
  transfer : next.transfer = Function.update state.transfer id transfer
  started : next.started = state.started ++ [id]
  counters : next.counters = state.counters
  transfers : next.transfers = state.transfers
  queueThread : next.queueThread = state.queueThread

/-- What the start of a transfer does. -/
theorem starts_stepSession {state next : State ι υ κ} {user : υ} {id : ι} {type : TransferType}
    {queueTime : ℚ} (stepped : state.stepSession user (.start id type queueTime) = some next)
    : ∃ transfer, state.Starts next id transfer := by
  rw [stepSession] at stepped
  split at stepped <;> cases stepped
  rename_i absent
  exact ⟨_, absent, by simp [newTransfer], rfl, rfl, rfl, rfl, rfl, rfl⟩

/-- An action is one of the environment, the start of a transfer, or a step of a transfer's thread
or of the queue thread.
-/
theorem step_cases {state next : State ι υ κ} {action : Action ι υ κ}
    (stepped : step action state = some next)
    : (isEnvironment action = true ∧ state.LeavesTransfers next (state.removed action))
      ∨ (∃ id transfer, state.Starts next id transfer)
      ∨ (∃ id writes point, action = .thread id writes ∧ state.MovesThread next id point
          ∧ ThreadStep state next id (state.thread id) point)
      ∨ ∃ queueAction point, action = .queue queueAction ∧ state.MovesQueue next point
          ∧ QueueStep state next state.queueThread point := by
  cases environment : isEnvironment action with
  | true => exact .inl ⟨rfl, leavesTransfers_step environment stepped⟩
  | false =>
      cases action with
      | session user action =>
          cases action with
          | start id type queueTime => exact .inr (.inl ⟨id, starts_stepSession stepped⟩)
          | connect | setKey | logIn | leave => cases environment
      | thread id writes =>
          obtain ⟨point, moves, threadStep⟩ := stepThread_cases stepped
          exact .inr (.inr (.inl ⟨id, writes, point, rfl, moves, threadStep⟩))
      | queue action =>
          obtain ⟨point, moves, queueStep⟩ := stepQueue_cases stepped
          exact .inr (.inr (.inr ⟨action, point, rfl, moves, queueStep⟩))
      | disconnect | applySettings | remove | removeAllUsers | sweep => cases environment

end Step

section Sound

/-- The transfers have one turn each, and their threads have no slot. -/
def Turns (transfer : ι → Transfer υ κ) (started : List ι) (ids : List ι) : Prop :=
  ids.Nodup ∧ ∀ id ∈ ids, id ∈ started ∧ (transfer id).queue ≠ 0

/-- What holds of a pass at each point. -/
def SoundQueue (transfer : ι → Transfer υ κ) (started : List ι) : QueuePoint ι κ → Prop
  | .idle | .locked => True
  | .gathering rest keyQueues => ∃ gathered,
      keyQueues.Gathers (fun id => (transfer id).key) gathered
        ∧ (gathered ++ rest).Nodup ∧ (∀ id ∈ gathered ++ rest, id ∈ started)
        ∧ ∀ id ∈ gathered, (transfer id).queue ≠ 0
  | .serving rest _ => Turns transfer started rest
  | .addingTotal id rest _ | .addingUser id rest _ | .publishing id _ rest _ =>
      Turns transfer started (id :: rest)

/-- What holds in every state: a transfer has a thread once it was started, stands in the list at
most once and only while its thread is between joining and leaving it, and passes are sound.
-/
structure Sound (state : State ι υ κ) : Prop where
  started_nodup : state.started.Nodup
  absent_iff : ∀ id, state.thread id = .absent ↔ id ∉ state.started
  transfers_nodup : state.transfers.Nodup
  listed : ∀ id ∈ state.transfers, (state.thread id).isListed = true
  queueThread : SoundQueue state.transfer state.started state.queueThread

/-- A transfer with a thread was started. -/
theorem Sound.started_of_present {state : State ι υ κ} (sound : state.Sound) {id : ι}
    (present : state.thread id ≠ .absent)
    : id ∈ state.started := by
  by_contra notStarted
  exact present ((sound.absent_iff id).mpr notStarted)

/-- A listed transfer was started. -/
theorem Sound.started_of_listed {state : State ι υ κ} (sound : state.Sound) {id : ι}
    (member : id ∈ state.transfers)
    : id ∈ state.started := by
  refine sound.started_of_present fun absent => ?_
  have listed := sound.listed id member
  rw [absent] at listed
  cases listed

/-- The turns of a pass depend only on the positions of started transfers. -/
theorem Turns.congr {transfer transfer' : ι → Transfer υ κ} {started started' ids : List ι}
    (turns : Turns transfer started ids) (subset : started ⊆ started')
    (queue : ∀ id ∈ started, (transfer' id).queue = (transfer id).queue)
    : Turns transfer' started' ids := by
  refine ⟨turns.1, fun id member => ?_⟩
  obtain ⟨start, waits⟩ := turns.2 id member
  rw [queue id start]
  exact ⟨subset start, waits⟩

/-- A pass depends only on the keys and positions of started transfers. -/
theorem SoundQueue.congr {transfer transfer' : ι → Transfer υ κ} {started started' : List ι}
    {point : QueuePoint ι κ} (sound : SoundQueue transfer started point)
    (subset : started ⊆ started') (key : ∀ id ∈ started, (transfer' id).key = (transfer id).key)
    (queue : ∀ id ∈ started, (transfer' id).queue = (transfer id).queue)
    : SoundQueue transfer' started' point := by
  cases point with
  | idle | locked => trivial
  | gathering rest keyQueues =>
      obtain ⟨gathered, gathers, nodup, start, waits⟩ := sound
      have mine : ∀ id ∈ gathered, id ∈ started := fun id member =>
        start id (List.mem_append_left _ member)
      refine ⟨gathered, gathers.congr fun id member => key id (mine id member), nodup,
        fun id member => subset (start id member), fun id member => ?_⟩
      rw [queue id (mine id member)]
      exact waits id member
  | serving rest position => exact Turns.congr sound subset queue
  | addingTotal id rest position => exact Turns.congr sound subset queue
  | addingUser id rest position => exact Turns.congr sound subset queue
  | publishing id newPosition rest position => exact Turns.congr sound subset queue

/-- No transfer has been started. -/
theorem sound_initial (transfer : ι → Transfer υ κ)
    : (initial transfer : State ι υ κ).Sound where
  started_nodup := List.nodup_nil
  absent_iff := fun id => by simp [initial]
  transfers_nodup := List.nodup_nil
  listed := fun id member => absurd member List.not_mem_nil
  queueThread := trivial

/-- Sessions, removals and settings keep the state sound. -/
theorem Sound.leave {state next : State ι υ κ} {victim : Option ι} (sound : state.Sound)
    (leaves : state.LeavesTransfers next victim)
    : next.Sound := by
  have sub : next.transfers.Sublist state.transfers := by
    rcases leaves.transfers with same | ⟨index, id, -, -, same⟩ <;> rw [same]
    exact List.eraseIdx_sublist _ _
  constructor
  case started_nodup =>
    rw [leaves.started]
    exact sound.started_nodup
  case absent_iff =>
    rw [leaves.thread, leaves.started]
    exact sound.absent_iff
  case transfers_nodup => exact sound.transfers_nodup.sublist sub
  case listed =>
    rw [leaves.thread]
    exact fun id member => sound.listed id (sub.subset member)
  case queueThread =>
    rw [leaves.transfer, leaves.started, leaves.queueThread]
    exact sound.queueThread

/-- The start of a transfer keeps the state sound. -/
theorem Sound.start {state next : State ι υ κ} {id : ι} {transfer : Transfer υ κ}
    (sound : state.Sound) (starts : state.Starts next id transfer)
    : next.Sound := by
  have fresh := (sound.absent_iff id).mp starts.absent
  have ne : ∀ other ∈ state.started, other ≠ id := fun other member same =>
    fresh (same ▸ member)
  constructor
  case started_nodup =>
    rw [starts.started]
    exact sound.started_nodup.append (List.nodup_singleton id)
      fun other member single => ne other member (List.mem_singleton.mp single)
  case absent_iff =>
    intro other
    rw [starts.thread, starts.started, List.mem_append, List.mem_singleton, not_or]
    by_cases same : other = id
    · simp [same]
    · rw [Function.update_of_ne same, sound.absent_iff]
      exact (and_iff_left same).symm
  case transfers_nodup =>
    rw [starts.transfers]
    exact sound.transfers_nodup
  case listed =>
    rw [starts.transfers, starts.thread]
    intro other member
    rw [Function.update_of_ne (ne other (sound.started_of_listed member))]
    exact sound.listed other member
  case queueThread =>
    rw [starts.queueThread, starts.transfer, starts.started]
    refine sound.queueThread.congr (List.subset_append_left _ _) ?_ ?_
    · intro other member
      rw [Function.update_of_ne (ne other member)]
    · intro other member
      rw [Function.update_of_ne (ne other member)]

/-- A step of a transfer's thread keeps the state sound. -/
theorem Sound.move {state next : State ι υ κ} {id : ι} {point : ThreadPoint}
    (sound : state.Sound) (moves : state.MovesThread next id point)
    (step : ThreadStep state next id (state.thread id) point)
    : next.Sound := by
  constructor
  case started_nodup =>
    rw [moves.started]
    exact sound.started_nodup
  case absent_iff =>
    intro other
    rw [moves.thread, moves.started, ← sound.absent_iff]
    by_cases same : other = id
    · subst same
      rw [Function.update_self]
      exact iff_of_false moves.moves moves.present
    · rw [Function.update_of_ne same]
  case transfers_nodup =>
    generalize here : state.thread id = before at step
    cases step with
    | add counters transfers =>
        have absent : id ∉ state.transfers := by
          intro member
          have listed := sound.listed id member
          rw [here] at listed
          cases listed
        rw [transfers]
        exact sound.transfers_nodup.append (List.nodup_singleton id)
          fun other member single => absent (List.mem_singleton.mp single ▸ member)
    | remove counters transfers =>
        rw [transfers]
        exact sound.transfers_nodup.erase id
    | work counters transfers | decide counters transfers | removeTotal counters transfers
    | removeUser counters transfers | reschedule counters transfers =>
        rw [transfers]
        exact sound.transfers_nodup
  case listed =>
    rw [moves.thread]
    intro other member
    by_cases same : other = id
    · subst same
      rw [Function.update_self]
      have listed : other ∈ state.transfers → (state.thread other).isListed = true :=
        sound.listed other
      generalize state.thread other = before at step listed
      cases step with
      | add | removeTotal | removeUser => rfl
      | work counters transfers working worked =>
          rcases worked with worked | rfl
          · exact ThreadPoint.isListed_of_isWorking worked
          · rfl
      | decide => split <;> rfl
      | remove counters transfers =>
          rw [transfers] at member
          exact absurd member sound.transfers_nodup.not_mem_erase
      | reschedule counters transfers =>
          rw [transfers] at member
          cases listed member
    · rw [Function.update_of_ne same]
      refine sound.listed other ?_
      generalize state.thread id = before at step
      cases step with
      | add counters transfers =>
          rw [transfers, List.mem_append, List.mem_singleton] at member
          exact member.resolve_right same
      | remove counters transfers =>
          rw [transfers] at member
          exact List.mem_of_mem_erase member
      | work counters transfers | decide counters transfers | removeTotal counters transfers
      | removeUser counters transfers | reschedule counters transfers =>
          rw [transfers] at member
          exact member
  case queueThread =>
    rw [moves.queueThread, moves.started]
    exact sound.queueThread.congr (List.Subset.refl _) (fun other _ => moves.key other)
      fun other _ => moves.queue other


/-- A step of the queue thread keeps its pass sound. -/
theorem Sound.queueStep {state next : State ι υ κ} {before after : QueuePoint ι κ}
    (sound : state.Sound) (pass : SoundQueue state.transfer state.started before)
    (step : QueueStep state next before after)
    : SoundQueue next.transfer state.started after := by
  cases step with
  | lockQueue | unlock => trivial
  | lockTransfers counters transfer =>
      refine ⟨[], KeyQueues.gathers_empty _, sound.transfers_nodup, ?_, by simp⟩
      exact fun id member => sound.started_of_listed member
  | gather counters transfer =>
      rw [transfer]
      rename_i id rest keyQueues
      obtain ⟨gathered, gathers, nodup, start, waits⟩ := pass
      split
      · rename_i waiting
        have split : gathered ++ id :: rest = gathered ++ [id] ++ rest := by simp
        rw [split] at nodup start
        refine ⟨gathered ++ [id], gathers.add id, nodup, start, ?_⟩
        intro other member
        rcases List.mem_append.mp member with member | single
        · exact waits other member
        · rw [List.mem_singleton.mp single]
          simp only [Transfer.isWaiting, Bool.and_eq_true, decide_eq_true_eq] at waiting
          exact waiting.2
      · have sub : (gathered ++ rest).Sublist (gathered ++ id :: rest) :=
          (List.sublist_cons_self id rest).append_left gathered
        exact ⟨gathered, gathers, nodup.sublist sub,
          fun other member => start other (sub.subset member), waits⟩
  | sort perm counters transfer =>
      rw [transfer]
      obtain ⟨gathered, gathers, nodup, start, waits⟩ := pass
      rw [List.append_nil] at nodup start
      have order := gathers.order_perm nodup perm
      refine ⟨order.nodup_iff.mpr nodup, fun id member => ?_⟩
      have member := order.mem_iff.mp member
      exact ⟨start id member, waits id member⟩
  | pass counters transfer =>
      rw [transfer]
      exact ⟨(List.nodup_cons.mp pass.1).2, fun id member =>
        pass.2 id (List.mem_cons_of_mem _ member)⟩
  | grant counters transfer | place nonzero counters transfer | addTotal counters transfer
  | addUser counters transfer =>
      rw [transfer]
      exact pass
  | publish counters transfer =>
      rename_i id rest position newPosition
      obtain ⟨absent, nodup⟩ := List.nodup_cons.mp pass.1
      refine ⟨nodup, fun other member => ?_⟩
      obtain ⟨start, waits⟩ := pass.2 other (List.mem_cons_of_mem _ member)
      have ne : other ≠ id := fun same => absent (same ▸ member)
      rw [transfer, Function.update_of_ne ne]
      exact ⟨start, waits⟩

/-- A step of the queue thread keeps the state sound. -/
theorem Sound.advance {state next : State ι υ κ} {point : QueuePoint ι κ} (sound : state.Sound)
    (moves : state.MovesQueue next point) (step : QueueStep state next state.queueThread point)
    : next.Sound := by
  constructor
  case started_nodup =>
    rw [moves.started]
    exact sound.started_nodup
  case absent_iff =>
    rw [moves.thread, moves.started]
    exact sound.absent_iff
  case transfers_nodup =>
    rw [moves.transfers]
    exact sound.transfers_nodup
  case listed =>
    rw [moves.transfers, moves.thread]
    exact sound.listed
  case queueThread =>
    rw [moves.started, moves.queueThread]
    exact sound.queueStep sound.queueThread step

/-- Every action keeps the state sound. -/
theorem Sound.step {state next : State ι υ κ} {action : Action ι υ κ} (sound : state.Sound)
    (stepped : step action state = some next)
    : next.Sound := by
  rcases step_cases stepped with ⟨-, leaves⟩ | ⟨id, transfer, starts⟩
    | ⟨id, writes, point, -, moves, threadStep⟩ | ⟨queueAction, point, -, moves, queueStep⟩
  · exact sound.leave leaves
  · exact sound.start starts
  · exact sound.move moves threadStep
  · exact sound.advance moves queueStep

/-- Every state that is reached is sound. -/
theorem sound_of_run {transfer : ι → Transfer υ κ} {actions : List (Action ι υ κ)}
    {state : State ι υ κ} (ran : Machine.run step actions (initial transfer) = some state)
    : state.Sound :=
  Machine.holds_of_run_always (fun _ _ _ sound stepped => sound.step stepped) ran
    (sound_initial transfer)

end Sound

end State

end WiredServer.Transfers
