import WiredServer.Lib.Counting
import WiredServer.Transfers.ThreadSteps

/-! The counters of active transfers count the slots that transfers hold, as long as the queue
thread and the thread of a transfer do not cross: the one takes a slot and publishes position 0
later, the other reads its position once more to see whether it has a slot to give back.
-/

set_option linter.unusedSectionVars false

namespace WiredServer.Transfers

variable {ι υ κ : Type} [DecidableEq ι] [DecidableEq υ] [DecidableEq κ]

/-- A thread has not yet looked whether there is a slot to give back. -/
def ThreadPoint.isUndecided : ThreadPoint → Bool
  | .adding | .deciding => true
  | point => point.isWorking

/-- A thread is about to give a slot of the total back. -/
def ThreadPoint.returnsTotal : ThreadPoint → Bool
  | .removingTotal => true
  | _ => false

/-- A thread is about to give a slot of its key back. -/
def ThreadPoint.returnsUser : ThreadPoint → Bool
  | .removingTotal | .removingUser => true
  | _ => false

/-- A thread at work has not decided and gives nothing back. -/
theorem ThreadPoint.of_isWorking {point : ThreadPoint} (working : point.isWorking = true)
    : point.isUndecided = true ∧ point.returnsTotal = false ∧ point.returnsUser = false := by
  cases point <;> first | exact ⟨rfl, rfl, rfl⟩ | cases working

/-- A thread that has not decided gives nothing back. -/
theorem ThreadPoint.returns_of_isUndecided {point : ThreadPoint}
    (undecided : point.isUndecided = true)
    : point.returnsTotal = false ∧ point.returnsUser = false := by
  cases point <;> first | exact ⟨rfl, rfl⟩ | cases undecided

/-- The queue thread has taken a slot of the total for a transfer and not yet published it. -/
def QueuePoint.hasAddedTotal (id : ι) : QueuePoint ι κ → Bool
  | .addingUser other _ _ => other = id
  | .publishing other newPosition _ _ => other = id && newPosition = 0
  | _ => false

/-- The queue thread has taken a slot of the key of a transfer and not yet published it. -/
def QueuePoint.hasAddedUser (id : ι) : QueuePoint ι κ → Bool
  | .publishing other newPosition _ _ => other = id && newPosition = 0
  | _ => false

namespace State

/-- A transfer holds a slot of the total: it was given one, which its thread has not given back. -/
def holdsTotal (state : State ι υ κ) (id : ι) : Bool :=
  (state.thread id).returnsTotal || ((state.thread id).isUndecided
    && ((state.transfer id).queue = 0 || state.queueThread.hasAddedTotal id))

/-- A transfer holds a slot of its key. -/
def holdsUser (state : State ι υ κ) (id : ι) : Bool :=
  (state.thread id).returnsUser || ((state.thread id).isUndecided
    && ((state.transfer id).queue = 0 || state.queueThread.hasAddedUser id))

/-- A transfer of a type holds a slot of the total. -/
def holdsOfType (state : State ι υ κ) (type : TransferType) (id : ι) : Bool :=
  (state.transfer id).type = type && state.holdsTotal id

/-- A transfer of a type and a key holds a slot of the key. -/
def holdsOfKey (state : State ι υ κ) (type : TransferType) (key : κ) (id : ι) : Bool :=
  (state.transfer id).type = type && (state.transfer id).key = key && state.holdsUser id

/-- The total of each type counts the transfers that hold a slot of it. -/
def CountsTotals (state : State ι υ κ) : Prop :=
  ∀ type, state.counters.active type = state.started.countP (state.holdsOfType type)

/-- The number of each key counts its transfers that hold a slot. -/
def CountsUsers (state : State ι υ κ) : Prop :=
  ∀ type key, state.counters.user type key = state.started.countP (state.holdsOfKey type key)

/-- The counters count the slots, none is below 0, and all are 0 when no transfer is left. -/
structure AccountsForSlots (state : State ι υ κ) : Prop where
  totals : state.CountsTotals
  users : state.CountsUsers
  totals_nonneg : ∀ type, 0 ≤ state.counters.active type
  users_nonneg : ∀ type key, 0 ≤ state.counters.user type key
  idle : (∀ id, state.thread id = .absent ∨ state.thread id = .ended) →
    ∀ type, state.counters.active type = 0 ∧ ∀ key, state.counters.user type key = 0

/-- The two threads do not cross: no slot is taken for a transfer whose thread has already looked
whether it has one, and no thread looks while its slot is taken but not yet published.
-/
def doesNotCross (action : Action ι υ κ) (state : State ι υ κ) : Bool :=
  match action, state.queueThread with
  | .queue .add, .addingTotal id _ _ => (state.thread id).isUndecided
  | .thread id _, point => state.thread id ≠ .deciding || !point.hasAddedTotal id
  | _, _ => true

/-- A slot that was taken and not yet published belongs to a thread that will look for it. -/
def AddsInTime (state : State ι υ κ) : Prop :=
  ∀ id, state.queueThread.hasAddedTotal id = true → (state.thread id).isUndecided = true

section Count

variable {state next : State ι υ κ} {id : ι}

/-- A step that changes no total and no slot of one keeps the count. -/
theorem CountsTotals.of_same (counts : state.CountsTotals)
    (started : next.started = state.started)
    (counters : ∀ type, next.counters.active type = state.counters.active type)
    (type : ∀ id ∈ state.started, (next.transfer id).type = (state.transfer id).type)
    (holds : ∀ id ∈ state.started, next.holdsTotal id = state.holdsTotal id)
    : next.CountsTotals := by
  intro kind
  rw [counters, counts, started]
  refine congrArg Nat.cast (Counting.countP_eq fun id member => ?_).symm
  rw [holdsOfType, holdsOfType, type id member, holds id member]

/-- A step that changes no number of a key and no slot of one keeps the count. -/
theorem CountsUsers.of_same (counts : state.CountsUsers)
    (started : next.started = state.started)
    (counters : ∀ type key, next.counters.user type key = state.counters.user type key)
    (type : ∀ id ∈ state.started, (next.transfer id).type = (state.transfer id).type)
    (key : ∀ id ∈ state.started, (next.transfer id).key = (state.transfer id).key)
    (holds : ∀ id ∈ state.started, next.holdsUser id = state.holdsUser id)
    : next.CountsUsers := by
  intro kind value
  rw [counters, counts, started]
  refine congrArg Nat.cast (Counting.countP_eq fun id member => ?_).symm
  rw [holdsOfKey, holdsOfKey, type id member, key id member, holds id member]

/-- One more transfer holds a slot of the total of its type. -/
theorem countP_holdsOfType {ids : List ι} (nodup : ids.Nodup) (member : id ∈ ids)
    (same : ∀ other, (next.transfer other).type = (state.transfer other).type)
    (others : ∀ other, other ≠ id → next.holdsTotal other = state.holdsTotal other)
    (before : state.holdsTotal id = false) (after : next.holdsTotal id = true)
    (type : TransferType)
    : ids.countP (next.holdsOfType type) = ids.countP (state.holdsOfType type)
        + if (state.transfer id).type = type then 1 else 0 := by
  have rest : ∀ other ∈ ids, other ≠ id →
      next.holdsOfType type other = state.holdsOfType type other := by
    intro other _ ne
    rw [holdsOfType, holdsOfType, same, others other ne]
  by_cases mine : (state.transfer id).type = type
  · rw [if_pos mine]
    refine Counting.countP_add_one nodup member rest ?_ ?_
    · simp [holdsOfType, before]
    · simp [holdsOfType, same, mine, after]
  · rw [if_neg mine, add_zero]
    refine Counting.countP_eq fun other member => ?_
    by_cases own : other = id
    · simp [holdsOfType, own, same, mine]
    · exact rest other member own

/-- One more transfer holds a slot of its key. -/
theorem countP_holdsOfKey {ids : List ι} (nodup : ids.Nodup) (member : id ∈ ids)
    (sameType : ∀ other, (next.transfer other).type = (state.transfer other).type)
    (sameKey : ∀ other, (next.transfer other).key = (state.transfer other).key)
    (others : ∀ other, other ≠ id → next.holdsUser other = state.holdsUser other)
    (before : state.holdsUser id = false) (after : next.holdsUser id = true)
    (type : TransferType) (key : κ)
    : ids.countP (next.holdsOfKey type key) = ids.countP (state.holdsOfKey type key)
        + if (state.transfer id).type = type ∧ (state.transfer id).key = key then 1 else 0 := by
  have rest : ∀ other ∈ ids, other ≠ id →
      next.holdsOfKey type key other = state.holdsOfKey type key other := by
    intro other _ ne
    rw [holdsOfKey, holdsOfKey, sameType, sameKey, others other ne]
  by_cases mine : (state.transfer id).type = type ∧ (state.transfer id).key = key
  · rw [if_pos mine]
    refine Counting.countP_add_one nodup member rest ?_ ?_
    · simp [holdsOfKey, before]
    · simp [holdsOfKey, sameType, sameKey, mine, after]
  · rw [if_neg mine, add_zero]
    refine Counting.countP_eq fun other member => ?_
    by_cases own : other = id
    · have off : ∀ holds : Bool, (decide ((state.transfer id).type = type)
          && decide ((state.transfer id).key = key) && holds) = false := by
        intro holds
        rw [← Bool.decide_and, decide_eq_false mine, Bool.false_and]
      rw [own, holdsOfKey, holdsOfKey, sameType, sameKey, off, off]
    · exact rest other member own

end Count

section Steps

variable {state next : State ι υ κ}

/-- A transfer for which a slot was taken has had its turn and was started. -/
theorem Sound.of_hasAddedTotal (sound : state.Sound) {id : ι}
    (added : state.queueThread.hasAddedTotal id = true)
    : id ∈ state.started ∧ (state.transfer id).queue ≠ 0 := by
  have pass := sound.queueThread
  cases point : state.queueThread with
  | idle | locked | gathering | serving | addingTotal =>
      rw [point] at added
      cases added
  | addingUser other rest position =>
      rw [point] at added pass
      rw [← of_decide_eq_true added]
      exact pass.2 other List.mem_cons_self
  | publishing other newPosition rest position =>
      rw [point] at added pass
      rw [← of_decide_eq_true (Bool.and_eq_true_iff.mp added).1]
      exact pass.2 other List.mem_cons_self

/-- Who has taken a slot of a key has taken one of the total. -/
theorem hasAddedTotal_of_hasAddedUser {point : QueuePoint ι κ} {id : ι}
    (added : point.hasAddedUser id = true)
    : point.hasAddedTotal id = true := by
  cases point <;> first | exact added | cases added

/-- A transfer for which a slot of its key was taken has no position 0 yet. -/
theorem Sound.of_hasAddedUser (sound : state.Sound) {id : ι}
    (added : state.queueThread.hasAddedUser id = true)
    : id ∈ state.started ∧ (state.transfer id).queue ≠ 0 :=
  sound.of_hasAddedTotal (hasAddedTotal_of_hasAddedUser added)

/-- What the counting of slots rests on. -/
structure Accounted (state : State ι υ κ) : Prop where
  sound : state.Sound
  inTime : state.AddsInTime
  totals : state.CountsTotals
  users : state.CountsUsers

/-- Sessions, removals and settings change no slot. -/
theorem Accounted.leave {victim : Option ι} (accounted : state.Accounted)
    (leaves : state.LeavesTransfers next victim)
    : next.Accounted where
  sound := accounted.sound.leave leaves
  inTime := by
    intro id
    rw [leaves.queueThread, leaves.thread]
    exact accounted.inTime id
  totals := by
    refine accounted.totals.of_same leaves.started (fun type => by rw [leaves.counters])
      (fun id _ => by rw [leaves.transfer]) fun id _ => ?_
    rw [holdsTotal, holdsTotal, leaves.thread, leaves.transfer, leaves.queueThread]
  users := by
    refine accounted.users.of_same leaves.started (fun type key => by rw [leaves.counters])
      (fun id _ => by rw [leaves.transfer]) (fun id _ => by rw [leaves.transfer]) fun id _ => ?_
    rw [holdsUser, holdsUser, leaves.thread, leaves.transfer, leaves.queueThread]

/-- A transfer that starts holds no slot. -/
theorem Accounted.start {id : ι} {transfer : Transfer υ κ} (accounted : state.Accounted)
    (starts : state.Starts next id transfer)
    : next.Accounted := by
  have fresh := (accounted.sound.absent_iff id).mp starts.absent
  have ne : ∀ other ∈ state.started, other ≠ id := fun other member same =>
    fresh (same ▸ member)
  have notAdded : state.queueThread.hasAddedTotal id = false :=
    Bool.eq_false_iff.mpr fun added => fresh (accounted.sound.of_hasAddedTotal added).1
  have notAddedUser : state.queueThread.hasAddedUser id = false :=
    Bool.eq_false_iff.mpr fun added => fresh (accounted.sound.of_hasAddedUser added).1
  constructor
  case sound => exact accounted.sound.start starts
  case inTime =>
    intro other added
    rw [starts.queueThread] at added
    have old := accounted.sound.of_hasAddedTotal added
    rw [starts.thread, Function.update_of_ne (ne other old.1)]
    exact accounted.inTime other added
  case totals =>
    intro type
    have own : next.holdsOfType type id = false := by
      simp [holdsOfType, holdsTotal, starts.thread, starts.transfer, starts.queueThread, notAdded,
        starts.waits, ThreadPoint.returnsTotal]
    have others : state.started.countP (next.holdsOfType type)
        = state.started.countP (state.holdsOfType type) := by
      refine Counting.countP_eq fun other member => ?_
      rw [holdsOfType, holdsOfType, holdsTotal, holdsTotal, starts.thread, starts.transfer,
        starts.queueThread, Function.update_of_ne (ne other member),
        Function.update_of_ne (ne other member)]
    rw [starts.counters, starts.started, List.countP_append, others, accounted.totals type]
    simp [own]
  case users =>
    intro type key
    have own : next.holdsOfKey type key id = false := by
      simp [holdsOfKey, holdsUser, starts.thread, starts.transfer, starts.queueThread,
        notAddedUser, starts.waits, ThreadPoint.returnsUser]
    have others : state.started.countP (next.holdsOfKey type key)
        = state.started.countP (state.holdsOfKey type key) := by
      refine Counting.countP_eq fun other member => ?_
      rw [holdsOfKey, holdsOfKey, holdsUser, holdsUser, starts.thread, starts.transfer,
        starts.queueThread, Function.update_of_ne (ne other member),
        Function.update_of_ne (ne other member)]
    rw [starts.counters, starts.started, List.countP_append, others, accounted.users type key]
    simp [own]

section Thread

variable {id : ι} {point : ThreadPoint}

/-- A step of a transfer's thread changes the slots of no other transfer. -/
theorem MovesThread.holds_of_ne (moves : state.MovesThread next id point) {other : ι}
    (ne : other ≠ id)
    : next.holdsTotal other = state.holdsTotal other
      ∧ next.holdsUser other = state.holdsUser other := by
  rw [holdsTotal, holdsTotal, holdsUser, holdsUser, moves.thread, moves.queue, moves.queueThread,
    Function.update_of_ne ne]
  exact ⟨rfl, rfl⟩

/-- The slot of the total that a transfer holds after a step of its thread. -/
theorem MovesThread.holdsTotal_self (moves : state.MovesThread next id point)
    : next.holdsTotal id = (point.returnsTotal || (point.isUndecided
        && ((state.transfer id).queue = 0 || state.queueThread.hasAddedTotal id))) := by
  rw [holdsTotal, moves.thread, moves.queue, moves.queueThread, Function.update_self]

/-- The slot of its key that a transfer holds after a step of its thread. -/
theorem MovesThread.holdsUser_self (moves : state.MovesThread next id point)
    : next.holdsUser id = (point.returnsUser || (point.isUndecided
        && ((state.transfer id).queue = 0 || state.queueThread.hasAddedUser id))) := by
  rw [holdsUser, moves.thread, moves.queue, moves.queueThread, Function.update_self]

/-- A thread whose slot was taken and not yet published must stay undecided. -/
theorem Accounted.inTime_of_move (accounted : state.Accounted)
    (moves : state.MovesThread next id point)
    (undecided : state.queueThread.hasAddedTotal id = true → point.isUndecided = true)
    : next.AddsInTime := by
  intro other added
  rw [moves.queueThread] at added
  rw [moves.thread]
  by_cases same : other = id
  · subst same
    rw [Function.update_self]
    exact undecided added
  · rw [Function.update_of_ne same]
    exact accounted.inTime other added

/-- A step of a thread that keeps its slots and the counters keeps the count. -/
theorem Accounted.move_of_same (accounted : state.Accounted)
    (moves : state.MovesThread next id point)
    (step : ThreadStep state next id (state.thread id) point)
    (counters : next.counters = state.counters)
    (inTime : state.queueThread.hasAddedTotal id = true → point.isUndecided = true)
    (total : next.holdsTotal id = state.holdsTotal id)
    (user : next.holdsUser id = state.holdsUser id)
    : next.Accounted where
  sound := accounted.sound.move moves step
  inTime := accounted.inTime_of_move moves inTime
  totals := by
    refine accounted.totals.of_same moves.started (fun type => by rw [counters])
      (fun other _ => moves.type other) fun other _ => ?_
    by_cases same : other = id
    · rw [same, total]
    · exact (moves.holds_of_ne same).1
  users := by
    refine accounted.users.of_same moves.started (fun type key => by rw [counters])
      (fun other _ => moves.type other) (fun other _ => moves.key other) fun other _ => ?_
    by_cases same : other = id
    · rw [same, user]
    · exact (moves.holds_of_ne same).2

/-- A thread that gives a slot of the total back takes it from the count. -/
theorem Accounted.returnTotal (accounted : state.Accounted)
    (moves : state.MovesThread next id .removingUser)
    (step : ThreadStep state next id (state.thread id) .removingUser)
    (here : state.thread id = .removingTotal)
    (counters : next.counters = state.counters.countActive (state.transfer id).type false)
    : next.Accounted where
  sound := accounted.sound.move moves step
  inTime := accounted.inTime_of_move moves fun added => by
    have undecided := accounted.inTime id added
    rw [here] at undecided
    cases undecided
  totals := by
    intro type
    have member := accounted.sound.started_of_present moves.present
    have before : next.holdsTotal id = false := moves.holdsTotal_self
    have after : state.holdsTotal id = true := by
      rw [holdsTotal, here]
      rfl
    have counted := countP_holdsOfType accounted.sound.started_nodup member
      (fun other => (moves.type other).symm) (fun other ne => (moves.holds_of_ne ne).1.symm)
      before after type
    rw [counters, Counters.active_countActive, accounted.totals type, counted, moves.started,
      moves.type]
    split <;> simp
  users := by
    refine accounted.users.of_same moves.started
      (fun type key => by rw [counters, Counters.user_countActive])
      (fun other _ => moves.type other) (fun other _ => moves.key other) fun other _ => ?_
    by_cases same : other = id
    · rw [same, moves.holdsUser_self, holdsUser, here]
      rfl
    · exact (moves.holds_of_ne same).2

/-- A thread that gives a slot of its key back takes it from the count. -/
theorem Accounted.returnUser (accounted : state.Accounted)
    (moves : state.MovesThread next id .removing)
    (step : ThreadStep state next id (state.thread id) .removing)
    (here : state.thread id = .removingUser)
    (counters : next.counters
      = state.counters.countUser (state.transfer id).type (state.transfer id).key false)
    : next.Accounted where
  sound := accounted.sound.move moves step
  inTime := accounted.inTime_of_move moves fun added => by
    have undecided := accounted.inTime id added
    rw [here] at undecided
    cases undecided
  totals := by
    refine accounted.totals.of_same moves.started
      (fun type => by rw [counters, Counters.active_countUser])
      (fun other _ => moves.type other) fun other _ => ?_
    by_cases same : other = id
    · rw [same, moves.holdsTotal_self, holdsTotal, here]
      rfl
    · exact (moves.holds_of_ne same).1
  users := by
    intro type key
    have member := accounted.sound.started_of_present moves.present
    have before : next.holdsUser id = false := moves.holdsUser_self
    have after : state.holdsUser id = true := by
      rw [holdsUser, here]
      rfl
    have counted := countP_holdsOfKey accounted.sound.started_nodup member
      (fun other => (moves.type other).symm) (fun other => (moves.key other).symm)
      (fun other ne => (moves.holds_of_ne ne).2.symm) before after type key
    rw [counters, Counters.user_countUser, accounted.users type key, counted, moves.started,
      moves.type, moves.key]
    split
    · rw [changeEntry]
      push_cast
      split <;> omega
    · simp

/-- A step of a transfer's thread keeps the count, unless it decides too early. -/
theorem Accounted.move (accounted : state.Accounted) (moves : state.MovesThread next id point)
    (step : ThreadStep state next id (state.thread id) point)
    (published : state.thread id = .deciding → state.queueThread.hasAddedTotal id = false)
    : next.Accounted := by
  have stepped := step
  have undecided := accounted.inTime id
  have holds : state.holdsTotal id = ((state.thread id).returnsTotal
      || ((state.thread id).isUndecided
        && ((state.transfer id).queue = 0 || state.queueThread.hasAddedTotal id))) := rfl
  have holdsKey : state.holdsUser id = ((state.thread id).returnsUser
      || ((state.thread id).isUndecided
        && ((state.transfer id).queue = 0 || state.queueThread.hasAddedUser id))) := rfl
  generalize here : state.thread id = before at step published undecided holds holdsKey
  cases step with
  | add counters transfers =>
      exact accounted.move_of_same moves stepped counters (fun _ => rfl)
        (by rw [moves.holdsTotal_self, holds]; rfl) (by rw [moves.holdsUser_self, holdsKey]; rfl)
  | work counters transfers working worked =>
      have old := ThreadPoint.of_isWorking working
      have new : point.isUndecided = true ∧ point.returnsTotal = false
          ∧ point.returnsUser = false := by
        rcases worked with worked | rfl
        · exact ThreadPoint.of_isWorking worked
        · exact ⟨rfl, rfl, rfl⟩
      refine accounted.move_of_same moves stepped counters (fun _ => new.1) ?_ ?_
      · rw [moves.holdsTotal_self, holds, old.1, old.2.1, new.1, new.2.1]
      · rw [moves.holdsUser_self, holdsKey, old.1, old.2.2, new.1, new.2.2]
  | decide counters transfers =>
      have notAdded := published rfl
      have notAddedUser : state.queueThread.hasAddedUser id = false :=
        Bool.eq_false_iff.mpr fun added => by
          rw [hasAddedTotal_of_hasAddedUser added] at notAdded
          cases notAdded
      refine accounted.move_of_same moves stepped counters ?_ ?_ ?_
      · rw [notAdded]
        exact fun added => by cases added
      · rw [moves.holdsTotal_self, holds, notAdded]
        by_cases slot : (state.transfer id).queue = 0 <;> simp [slot, ThreadPoint.returnsTotal,
          ThreadPoint.isUndecided, ThreadPoint.isWorking]
      · rw [moves.holdsUser_self, holdsKey, notAddedUser]
        by_cases slot : (state.transfer id).queue = 0 <;> simp [slot, ThreadPoint.returnsUser,
          ThreadPoint.isUndecided, ThreadPoint.isWorking]
  | removeTotal counters transfers => exact accounted.returnTotal moves stepped here counters
  | removeUser counters transfers => exact accounted.returnUser moves stepped here counters
  | remove counters transfers =>
      exact accounted.move_of_same moves stepped counters (fun added => by cases undecided added)
        (by rw [moves.holdsTotal_self, holds]; rfl) (by rw [moves.holdsUser_self, holdsKey]; rfl)
  | reschedule counters transfers =>
      exact accounted.move_of_same moves stepped counters (fun added => by cases undecided added)
        (by rw [moves.holdsTotal_self, holds]; rfl) (by rw [moves.holdsUser_self, holdsKey]; rfl)

end Thread

section Queue

variable {point : QueuePoint ι κ}

/-- The slots that transfers hold after a step of the queue thread that changes no transfer. -/
theorem MovesQueue.holds_of_transfer (moves : state.MovesQueue next point)
    (transfer : next.transfer = state.transfer) (id : ι)
    : next.holdsTotal id = ((state.thread id).returnsTotal || ((state.thread id).isUndecided
          && ((state.transfer id).queue = 0 || point.hasAddedTotal id)))
      ∧ next.holdsUser id = ((state.thread id).returnsUser || ((state.thread id).isUndecided
          && ((state.transfer id).queue = 0 || point.hasAddedUser id))) := by
  rw [holdsTotal, holdsUser, moves.thread, moves.queueThread, transfer]
  exact ⟨rfl, rfl⟩

/-- A step of the queue thread that takes no slot and changes nothing else keeps the count. -/
theorem Accounted.advance_of_same (accounted : state.Accounted)
    (moves : state.MovesQueue next point)
    (step : QueueStep state next state.queueThread point)
    (counters : next.counters = state.counters) (transfer : next.transfer = state.transfer)
    (before : ∀ id, state.queueThread.hasAddedTotal id = false)
    (after : ∀ id, point.hasAddedTotal id = false)
    : next.Accounted := by
  have beforeUser : ∀ id, state.queueThread.hasAddedUser id = false := fun id =>
    Bool.eq_false_iff.mpr fun added => by
      have total := hasAddedTotal_of_hasAddedUser added
      rw [before] at total
      cases total
  have afterUser : ∀ id, point.hasAddedUser id = false := fun id =>
    Bool.eq_false_iff.mpr fun added => by
      have total := hasAddedTotal_of_hasAddedUser added
      rw [after] at total
      cases total
  constructor
  case sound => exact accounted.sound.advance moves step
  case inTime =>
    intro id added
    rw [moves.queueThread, after] at added
    cases added
  case totals =>
    refine accounted.totals.of_same moves.started (fun type => by rw [counters])
      (fun id _ => by rw [transfer]) fun id _ => ?_
    rw [(moves.holds_of_transfer transfer id).1, holdsTotal, before, after]
  case users =>
    refine accounted.users.of_same moves.started (fun type key => by rw [counters])
      (fun id _ => by rw [transfer]) (fun id _ => by rw [transfer]) fun id _ => ?_
    rw [(moves.holds_of_transfer transfer id).2, holdsUser, beforeUser, afterUser]

/-- The queue thread takes a slot of the total for a transfer that has not decided. -/
theorem Accounted.addTotal {id : ι} {rest : List ι} {position : ℤ}
    (accounted : state.Accounted) (moves : state.MovesQueue next (.addingUser id rest position))
    (step : QueueStep state next state.queueThread (.addingUser id rest position))
    (here : state.queueThread = .addingTotal id rest position)
    (undecided : (state.thread id).isUndecided = true)
    (counters : next.counters = state.counters.countActive (state.transfer id).type true)
    (transfer : next.transfer = state.transfer)
    : next.Accounted := by
  have pass := accounted.sound.queueThread
  rw [here] at pass
  obtain ⟨started, waits⟩ := pass.2 id List.mem_cons_self
  have idle := ThreadPoint.returns_of_isUndecided undecided
  constructor
  case sound => exact accounted.sound.advance moves step
  case inTime =>
    intro other added
    rw [moves.queueThread] at added
    rw [moves.thread, ← of_decide_eq_true added]
    exact undecided
  case totals =>
    intro type
    have before : state.holdsTotal id = false := by
      simp [holdsTotal, here, idle.1, waits, QueuePoint.hasAddedTotal]
    have after : next.holdsTotal id = true := by
      rw [(moves.holds_of_transfer transfer id).1]
      simp [undecided, QueuePoint.hasAddedTotal]
    have others : ∀ other, other ≠ id → next.holdsTotal other = state.holdsTotal other := by
      intro other ne
      rw [(moves.holds_of_transfer transfer other).1, holdsTotal, here]
      simp [QueuePoint.hasAddedTotal, Ne.symm ne]
    have counted := countP_holdsOfType accounted.sound.started_nodup started
      (fun other => by rw [transfer]) others before after type
    rw [counters, Counters.active_countActive, accounted.totals type, moves.started, counted]
    split <;> simp
  case users =>
    refine accounted.users.of_same moves.started
      (fun type key => by rw [counters, Counters.user_countActive])
      (fun other _ => by rw [transfer]) (fun other _ => by rw [transfer]) fun other _ => ?_
    rw [(moves.holds_of_transfer transfer other).2, holdsUser, here]
    rfl

/-- The queue thread takes a slot of the key for the same transfer. -/
theorem Accounted.addUser {id : ι} {rest : List ι} {position : ℤ}
    (accounted : state.Accounted) (moves : state.MovesQueue next (.publishing id 0 rest position))
    (step : QueueStep state next state.queueThread (.publishing id 0 rest position))
    (here : state.queueThread = .addingUser id rest position)
    (counters : next.counters
      = state.counters.countUser (state.transfer id).type (state.transfer id).key true)
    (transfer : next.transfer = state.transfer)
    : next.Accounted := by
  have pass := accounted.sound.queueThread
  rw [here] at pass
  obtain ⟨started, waits⟩ := pass.2 id List.mem_cons_self
  have undecided : (state.thread id).isUndecided = true := by
    refine accounted.inTime id ?_
    rw [here]
    simp [QueuePoint.hasAddedTotal]
  have idle := ThreadPoint.returns_of_isUndecided undecided
  constructor
  case sound => exact accounted.sound.advance moves step
  case inTime =>
    intro other added
    rw [moves.queueThread] at added
    rw [moves.thread, ← of_decide_eq_true (Bool.and_eq_true_iff.mp added).1]
    exact undecided
  case totals =>
    refine accounted.totals.of_same moves.started
      (fun type => by rw [counters, Counters.active_countUser])
      (fun other _ => by rw [transfer]) fun other _ => ?_
    rw [(moves.holds_of_transfer transfer other).1, holdsTotal, here]
    simp [QueuePoint.hasAddedTotal]
  case users =>
    intro type key
    have before : state.holdsUser id = false := by
      simp [holdsUser, here, idle.2, waits, QueuePoint.hasAddedUser]
    have after : next.holdsUser id = true := by
      rw [(moves.holds_of_transfer transfer id).2]
      simp [undecided, QueuePoint.hasAddedUser]
    have others : ∀ other, other ≠ id → next.holdsUser other = state.holdsUser other := by
      intro other ne
      rw [(moves.holds_of_transfer transfer other).2, holdsUser, here]
      simp [QueuePoint.hasAddedUser, Ne.symm ne]
    have counted := countP_holdsOfKey accounted.sound.started_nodup started
      (fun other => by rw [transfer]) (fun other => by rw [transfer]) others before after type key
    rw [counters, Counters.user_countUser, accounted.users type key, moves.started, counted]
    split <;> simp [changeEntry]

/-- The queue thread publishes a position, and with position 0 the slot that it has taken. -/
theorem Accounted.publish {id : ι} {rest : List ι} {position position' newPosition : ℤ}
    (accounted : state.Accounted) (moves : state.MovesQueue next (.serving rest position'))
    (step : QueueStep state next state.queueThread (.serving rest position'))
    (here : state.queueThread = .publishing id newPosition rest position)
    (counters : next.counters = state.counters)
    (transfer : next.transfer = Function.update state.transfer id
      { state.transfer id with queue := newPosition, ready := true })
    : next.Accounted := by
  have pass := accounted.sound.queueThread
  rw [here] at pass
  have waits := (pass.2 id List.mem_cons_self).2
  have fields : ∀ other, (next.transfer other).type = (state.transfer other).type
      ∧ (next.transfer other).key = (state.transfer other).key := by
    intro other
    rw [transfer]
    by_cases same : other = id
    · rw [same, Function.update_self]
      exact ⟨rfl, rfl⟩
    · rw [Function.update_of_ne same]
      exact ⟨rfl, rfl⟩
  constructor
  case sound => exact accounted.sound.advance moves step
  case inTime =>
    intro other added
    rw [moves.queueThread] at added
    cases added
  case totals =>
    refine accounted.totals.of_same moves.started (fun type => by rw [counters])
      (fun other _ => (fields other).1) fun other _ => ?_
    rw [holdsTotal, holdsTotal, moves.thread, moves.queueThread, transfer, here]
    by_cases same : other = id
    · simp [same, QueuePoint.hasAddedTotal, waits]
    · simp [same, Ne.symm same, QueuePoint.hasAddedTotal]
  case users =>
    refine accounted.users.of_same moves.started (fun type key => by rw [counters])
      (fun other _ => (fields other).1) (fun other _ => (fields other).2) fun other _ => ?_
    rw [holdsUser, holdsUser, moves.thread, moves.queueThread, transfer, here]
    by_cases same : other = id
    · simp [same, QueuePoint.hasAddedUser, waits]
    · simp [same, Ne.symm same, QueuePoint.hasAddedUser]

/-- A step of the queue thread keeps the count, unless it takes a slot too late. -/
theorem Accounted.advance (accounted : state.Accounted) (moves : state.MovesQueue next point)
    (step : QueueStep state next state.queueThread point)
    (inTime : ∀ id rest position, state.queueThread = .addingTotal id rest position →
      (state.thread id).isUndecided = true)
    : next.Accounted := by
  have stepped := step
  have same := fun counters transfer before after =>
    accounted.advance_of_same moves step counters transfer before after
  generalize here : state.queueThread = before at step same
  cases step with
  | lockQueue counters transfer | lockTransfers counters transfer | gather counters transfer
  | sort perm counters transfer | pass counters transfer | grant counters transfer
  | unlock counters transfer =>
      exact same counters transfer (fun _ => rfl) fun _ => rfl
  | place nonzero counters transfer =>
      exact same counters transfer (fun _ => rfl) fun id => by
        simp [QueuePoint.hasAddedTotal, nonzero]
  | addTotal counters transfer =>
      exact accounted.addTotal moves stepped here (inTime _ _ _ here) counters transfer
  | addUser counters transfer =>
      exact accounted.addUser moves stepped here counters transfer
  | publish counters transfer =>
      exact accounted.publish moves stepped here counters transfer

end Queue

/-- An action by which the threads do not cross keeps the count. -/
theorem Accounted.step {action : Action ι υ κ} (accounted : state.Accounted)
    (apart : doesNotCross action state = true) (stepped : step action state = some next)
    : next.Accounted := by
  rcases step_cases stepped with ⟨-, leaves⟩ | ⟨id, transfer, starts⟩
    | ⟨id, writes, point, rfl, moves, threadStep⟩
    | ⟨queueAction, point, rfl, moves, queueStep⟩
  · exact accounted.leave leaves
  · exact accounted.start starts
  · refine accounted.move moves threadStep fun here => ?_
    simpa [doesNotCross, here] using apart
  · refine accounted.advance moves queueStep fun id rest position here => ?_
    have adds : queueAction = .add := by
      change state.stepQueue queueAction = some next at stepped
      unfold stepQueue at stepped
      rw [here] at stepped
      cases queueAction with
      | add => rfl
      | lockQueue | lockTransfers | gather | sort | decide | publish | unlock => cases stepped
    simpa [doesNotCross, here, adds] using apart

end Steps

/-- No transfer was started, and nothing is counted. -/
theorem accounted_initial (transfer : ι → Transfer υ κ)
    : (initial transfer : State ι υ κ).Accounted where
  sound := sound_initial transfer
  inTime := fun id added => by cases added
  totals := fun type => by cases type <;> rfl
  users := fun type key => by cases type <;> rfl

/-- Counters that count slots account for them. -/
theorem Accounted.accountsForSlots {state : State ι υ κ} (accounted : state.Accounted)
    : state.AccountsForSlots where
  totals := accounted.totals
  users := accounted.users
  totals_nonneg := fun type => accounted.totals type ▸ Int.natCast_nonneg _
  users_nonneg := fun type key => accounted.users type key ▸ Int.natCast_nonneg _
  idle := by
    intro ended type
    have none : ∀ id, state.holdsTotal id = false ∧ state.holdsUser id = false := by
      intro id
      rw [holdsTotal, holdsUser]
      rcases ended id with here | here <;> rw [here] <;> exact ⟨rfl, rfl⟩
    refine ⟨?_, fun key => ?_⟩
    · rw [accounted.totals type]
      simp [holdsOfType, none]
    · rw [accounted.users type key]
      simp [holdsOfKey, none]

/-- In every run in which the threads do not cross, the counters account for the slots. -/
theorem accountsForSlots_of_run {transfer : ι → Transfer υ κ} {actions : List (Action ι υ κ)}
    {state : State ι υ κ} (ran : Machine.run step actions (initial transfer) = some state)
    (apart : Machine.Meets step (doesNotCross · ·) actions (initial transfer))
    : state.AccountsForSlots := by
  have accounted := Machine.holds_of_run
    (fun _ _ _ apart accounted stepped => Accounted.step accounted apart stepped) ran apart
    (accounted_initial transfer)
  exact accounted.accountsForSlots

section Failed

/-- A download waits for the only slot. When the slot is free and the queue thread has gathered the
download, the message about its position cannot be sent: its thread sees that it has no slot and
gives up, and then the queue thread gives it the slot.
-/
def failedRun : List (Action ℕ ℕ ℕ) :=
  [.session 0 .connect, .session 0 (.setKey 7), .session 0 .logIn,
    .session 1 .connect, .session 1 (.setKey 8), .session 1 .logIn,
    .session 0 (.start 0 .download 0), .thread 0 true, .thread 0 true,
    .session 1 (.start 1 .download 1), .thread 1 true, .thread 1 true,
    .queue .lockQueue, .queue .lockTransfers, .queue .gather, .queue .gather,
    .queue (.sort [7, 8]), .queue (.decide ⟨1, 0⟩ ⟨0, 0⟩), .queue .add, .queue .add,
    .queue .publish, .queue (.decide ⟨1, 0⟩ ⟨0, 0⟩), .queue .publish, .queue .unlock,
    .thread 0 true, .thread 0 true, .thread 0 true, .thread 0 true, .thread 0 true,
    .thread 0 true, .thread 0 true, .thread 0 true, .thread 0 true, .thread 0 true,
    .queue .lockQueue, .queue .lockTransfers, .queue .gather, .queue (.sort [8]),
    .thread 1 true, .thread 1 false, .thread 1 true,
    .queue (.decide ⟨1, 0⟩ ⟨0, 0⟩), .queue .add, .queue .add, .queue .publish, .queue .unlock,
    .thread 1 true, .thread 1 true]

/-- Up to the end of the first download, the counters are right. -/
theorem accountsForSlots_of_run_firstDownload
    : ∃ state, Machine.run step (failedRun.take 34) (initial blank) = some state
        ∧ state.AccountsForSlots := by
  have reached : (Machine.run step (failedRun.take 34) (initial blank)).isSome = true := by
    decide
  obtain ⟨state, ran⟩ := Option.isSome_iff_exists.mp reached
  exact ⟨state, ran, accountsForSlots_of_run ran (by decide)⟩

/-- After the failure one active download is counted, and no transfer is left. -/
theorem not_accountsForSlots_failed
    : ¬∀ (actions : List (Action ℕ ℕ ℕ)) (state : State ℕ ℕ ℕ),
        Machine.run step actions (initial blank) = some state → state.AccountsForSlots := by
  intro always
  have reached : (Machine.run step failedRun (initial blank)).map (fun state =>
      (state.counters.active .download, state.started, state.thread 0, state.thread 1))
        = some (1, [0, 1], .ended, .ended) := by
    decide
  obtain ⟨state, ran, here⟩ := Option.map_eq_some_iff.mp reached
  simp only [Prod.mk.injEq] at here
  obtain ⟨counted, started, first, second⟩ := here
  have none : ∀ id ∈ [0, 1], state.holdsOfType .download id = false := by
    intro id member
    have ended : state.thread id = .ended := by
      fin_cases member
      · exact first
      · exact second
    simp [holdsOfType, holdsTotal, ended, ThreadPoint.returnsTotal, ThreadPoint.isUndecided,
      ThreadPoint.isWorking]
  have totals := (always failedRun state ran).totals .download
  rw [counted, started, List.countP_eq_zero.mpr fun id member => by simp [none id member]] at totals
  cases totals

end Failed

end State

end WiredServer.Transfers
