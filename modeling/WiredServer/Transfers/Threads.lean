import WiredServer.Lib.Machine
import WiredServer.Transfers.KeyQueues

/-! The threads around the transfer queue: the queue thread, a thread for each transfer, sessions
that come and go, and the shutdown. An action is what one of them does under one lock, and the
actions of all threads interleave in any way that the locks allow.
-/

namespace WiredServer.Transfers

/-- Where a thread is in `wd_transfers_run_transfer` and `wd_transfers_wait_until_ready`. A
position that has been read stays with it.
-/
inductive ThreadPoint where
  | absent
  | adding
  | scheduling
  | waiting
  | writing (queue : ℤ)
  | checking (queue : ℤ)
  | starting
  | running
  | finishing
  | deciding
  | removingTotal
  | removingUser
  | removing
  | rescheduling
  | ended
  deriving DecidableEq, Repr

/-- Where the queue thread is in a pass. The transfers whose turn has not come are in `rest`. -/
inductive QueuePoint (ι κ : Type) where
  | idle
  | locked
  | gathering (rest : List ι) (keyQueues : KeyQueues ι κ)
  | serving (rest : List ι) (position : ℤ)
  | addingTotal (id : ι) (rest : List ι) (position : ℤ)
  | addingUser (id : ι) (rest : List ι) (position : ℤ)
  | publishing (id : ι) (newPosition : ℤ) (rest : List ι) (position : ℤ)

/-- Whether the queue thread holds `wd_transfers_queue_lock`. -/
def QueuePoint.holdsQueueLock {ι κ : Type} : QueuePoint ι κ → Bool
  | .idle => false
  | _ => true

/-- Whether the queue thread holds `wd_transfers` for reading. -/
def QueuePoint.holdsTransfers {ι κ : Type} : QueuePoint ι κ → Bool
  | .idle | .locked => false
  | _ => true

/-- Where a call of `wd_transfers_remove_user` is: looking for sessions with the same key, before
the lock of `wd_transfers`, at an index of the list, or before its signal.
-/
inductive RemovalPoint (υ κ : Type) where
  | asking (key : κ) (rest : List υ)
  | locking (key : κ)
  | scanning (key : κ) (index : ℕ) (update : Bool)
  | signalling
  deriving DecidableEq, Repr

/-- What the thread of a session does. -/
inductive SessionPoint (ι υ κ : Type) where
  | absent
  | serving
  | transferring (id : ι)
  | leaving
  | removing (point : RemovalPoint υ κ)
  | closing
  | gone
  deriving DecidableEq, Repr

/-- A session: its transfer key, which it has after a login was sent, whether its state is
`WD_USER_LOGGED_IN`, and its thread.
-/
structure Session (ι υ κ : Type) where
  key : Option κ
  loggedIn : Bool
  point : SessionPoint ι υ κ

/-- What the threads share, and where they are. `scheduled` is the condition of
`wd_transfers_queue_lock`, `writing` is whether a removal holds `wd_transfers` for writing, and
`sweep` is what `wd_users_remove_all_users` has still to do.
-/
structure State (ι υ κ : Type) where
  transfers : List ι
  transfer : ι → Transfer υ κ
  counters : Counters κ
  scheduled : Bool
  writing : Bool
  started : List ι
  thread : ι → ThreadPoint
  finished : ι → Bool
  queueThread : QueuePoint ι κ
  users : List υ
  session : υ → Session ι υ κ
  sweep : Option (List υ × Option (RemovalPoint υ κ))

/-- The actions of the queue thread. Sorting may order keys with equal times in any way, and the
limits are those that the settings and the account have at the moment.
-/
inductive QueueAction (κ : Type) where
  | lockQueue
  | lockTransfers
  | gather
  | sort (keys : List κ)
  | decide (total account : Limits)
  | add
  | publish
  | unlock
  deriving DecidableEq, Repr

/-- The actions of a session that serves its client: a login stores the name before it checks the
password, and a transfer is made and run.
-/
inductive SessionAction (ι κ : Type) where
  | connect
  | setKey (key : κ)
  | logIn
  | start (id : ι) (type : TransferType) (queueTime : ℚ)
  | leave
  deriving DecidableEq, Repr

/-- The actions of all threads. `writes` is whether a message to the client is sent, and `timeout`
whether waiting for the end of a transfer takes too long.
-/
inductive Action (ι υ κ : Type) where
  | session (user : υ) (action : SessionAction ι κ)
  | disconnect (user : υ)
  | thread (id : ι) (writes : Bool)
  | queue (action : QueueAction κ)
  | applySettings
  | remove (user : υ) (timeout : Bool)
  | removeAllUsers
  | sweep (timeout : Bool)
  deriving DecidableEq, Repr

namespace State

variable {ι υ κ : Type} [DecidableEq ι] [DecidableEq υ] [DecidableEq κ]

/-- The state before any session, with what the memory of transfers still to come contains. -/
def initial (transfer : ι → Transfer υ κ) : State ι υ κ where
  transfers := []
  transfer := transfer
  counters := {
    activeDownloads := 0
    activeUploads := 0
    userDownloads := fun _ => 0
    userUploads := fun _ => 0 }
  scheduled := false
  writing := false
  started := []
  thread := fun _ => .absent
  finished := fun _ => false
  queueThread := .idle
  users := []
  session := fun _ => { key := none, loggedIn := false, point := .absent }
  sweep := none

/-- Nobody holds `wd_transfers`. -/
def transfersFree (state : State ι υ κ) : Bool :=
  !state.writing && !state.queueThread.holdsTransfers

/-- The thread of a transfer goes on to a point. -/
def goTo (state : State ι υ κ) (id : ι) (point : ThreadPoint) : State ι υ κ :=
  { state with thread := Function.update state.thread id point }

/-- A change of a transfer. -/
def setTransfer (state : State ι υ κ) (id : ι) (transfer : Transfer υ κ) : State ι υ κ :=
  { state with transfer := Function.update state.transfer id transfer }

/-- A change of a session. -/
def setSession (state : State ι υ κ) (user : υ) (session : Session ι υ κ) : State ι υ κ :=
  { state with session := Function.update state.session user session }

/-- The thread of a session goes on to a point. -/
def setPoint (state : State ι υ κ) (user : υ) (point : SessionPoint ι υ κ) : State ι υ κ :=
  state.setSession user { state.session user with point := point }

/-- The next step of a transfer's thread. -/
def stepThread (state : State ι υ κ) (id : ι) (writes : Bool) : Option (State ι υ κ) :=
  let transfer := state.transfer id
  match state.thread id with
  | .absent => none
  | .adding =>
      if state.transfersFree then
        some ({ state with transfers := state.transfers ++ [id] }.goTo id .scheduling)
      else none
  | .scheduling =>
      if state.queueThread.holdsQueueLock then none
      else some ({ state with scheduled := true }.goTo id .waiting)
  | .waiting =>
      -- the wait with its timeout of one second is repeated until the condition holds
      if transfer.ready then
        some ((state.setTransfer id { transfer with ready := false }).goTo id
          (if transfer.queue ≠ 0 then .writing transfer.queue else .checking transfer.queue))
      else none
  | .writing queue => some (state.goTo id (if writes then .checking queue else .deciding))
  | .checking queue =>
      some (state.goTo id (if queue = 0 || !(state.session transfer.user).loggedIn then .starting
        else .waiting))
  | .starting =>
      some ((state.setTransfer id { transfer with state := .running }).goTo id .running)
  | .running => some (state.goTo id .finishing)
  | .finishing =>
      some ({ state with finished := Function.update state.finished id true }.goTo id .deciding)
  | .deciding =>
      -- the position is read without its lock
      some (state.goTo id (if transfer.queue = 0 then .removingTotal else .removing))
  | .removingTotal =>
      some ({ state with
        counters := state.counters.countActive transfer.type false }.goTo id .removingUser)
  | .removingUser =>
      some ({ state with
        counters := state.counters.countUser transfer.type transfer.key false }.goTo id .removing)
  | .removing =>
      if state.transfersFree then
        some ({ state with transfers := state.transfers.erase id }.goTo id .rescheduling)
      else none
  | .rescheduling =>
      if state.queueThread.holdsQueueLock then none
      else some (({ state with scheduled := true }.setPoint transfer.user .serving).goTo id .ended)
  | .ended => none

/-- The order in which sorting may put the keys of gathered transfers. -/
def mayOrder (state : State ι υ κ) (keyQueues : KeyQueues ι κ) (keys : List κ) : Prop :=
  let firstTime := fun key => (keyQueues.queues key).head?.elim 0 fun id =>
    (state.transfer id).queueTime
  keys.Perm keyQueues.keys
    ∧ keys.Pairwise fun key1 key2 => queueCompare (firstTime key1) (firstTime key2) ≤ 0

instance (state : State ι υ κ) (keyQueues : KeyQueues ι κ) (keys : List κ)
    : Decidable (state.mayOrder keyQueues keys) :=
  inferInstanceAs (Decidable (_ ∧ _))

/-- The next step of the queue thread. -/
def stepQueue (state : State ι υ κ) (action : QueueAction κ) : Option (State ι υ κ) :=
  match action, state.queueThread with
  | .lockQueue, .idle =>
      if state.scheduled then some { state with queueThread := .locked } else none
  | .lockTransfers, .locked =>
      if state.writing then none
      else some { state with queueThread := .gathering state.transfers .empty }
  | .gather, .gathering (id :: rest) keyQueues =>
      let keyQueues :=
        if (state.transfer id).isWaiting then keyQueues.add (state.transfer id).key id
        else keyQueues
      some { state with queueThread := .gathering rest keyQueues }
  | .sort keys, .gathering [] keyQueues =>
      if state.mayOrder keyQueues keys then
        some { state with
          queueThread := .serving
            (RoundRobin.order keys keyQueues.queues keyQueues.longestQueue) 1 }
      else none
  | .decide total account, .serving (id :: rest) position =>
      let transfer := state.transfer id
      let queue := state.counters.isFull total account transfer.type transfer.key
      let newPosition := if queue then position else 0
      let position := if queue then position + 1 else position
      if newPosition ≠ transfer.queue then
        if newPosition = 0 then
          some { state with queueThread := .addingTotal id rest position }
        else some { state with queueThread := .publishing id newPosition rest position }
      else some { state with queueThread := .serving rest position }
  | .add, .addingTotal id rest position =>
      some { state with
        counters := state.counters.countActive (state.transfer id).type true
        queueThread := .addingUser id rest position }
  | .add, .addingUser id rest position =>
      some { state with
        counters := state.counters.countUser (state.transfer id).type (state.transfer id).key true
        queueThread := .publishing id 0 rest position }
  | .publish, .publishing id newPosition rest position =>
      some { state.setTransfer id { state.transfer id with queue := newPosition, ready := true }
        with queueThread := .serving rest position }
  | .unlock, .serving [] _ => some { state with scheduled := false, queueThread := .idle }
  | _, _ => none

/-- The next step of a call of `wd_transfers_remove_user`, which has returned when there is no
point to go on from.
-/
def stepRemoval (state : State ι υ κ) (timeout : Bool)
    : RemovalPoint υ κ → Option (State ι υ κ × Option (RemovalPoint υ κ))
  | .asking key [] => some (state, some (.locking key))
  | .asking key (user :: rest) =>
      if (state.session user).loggedIn && (state.session user).key = some key then
        some (state, none)
      else some (state, some (.asking key rest))
  | .locking key =>
      if state.transfersFree then some ({ state with writing := true }, some (.scanning key 0 false))
      else none
  | .scanning key index update =>
      match state.transfers[index]? with
      | none =>
          if update then some (state, some .signalling)
          else some ({ state with writing := false }, none)
      | some id =>
          if key = (state.transfer id).key then
            if (state.transfer id).state = .running then
              if state.finished id || timeout then
                some (state, some (.scanning key (index + 1) update))
              else none
            else some ({ state with transfers := state.transfers.eraseIdx index },
              some (.scanning key index true))
          else some (state, some (.scanning key (index + 1) update))
  | .signalling =>
      if state.queueThread.holdsQueueLock then none
      else some ({ state with scheduled := true, writing := false }, none)

/-- The next step of a session that ends. -/
def stepLeaving (state : State ι υ κ) (user : υ) (timeout : Bool) : Option (State ι υ κ) :=
  match (state.session user).point with
  | .leaving =>
      match (state.session user).key with
      | none => some (state.setPoint user .closing)
      | some key =>
          if state.sweep.isSome then none
          else some (state.setPoint user (.removing (.asking key state.users)))
  | .removing point =>
      (state.stepRemoval timeout point).map fun (next, point) =>
        next.setPoint user (point.elim .closing .removing)
  | .closing =>
      if state.sweep.isSome then none
      else some ({ state with users := state.users.erase user }.setPoint user .gone)
  | _ => none

/-- The next step of `wd_users_remove_all_users`, which holds `wd_users` for writing and removes
the transfers of each user without asking for other sessions.
-/
def stepSweep (state : State ι υ κ) (timeout : Bool) : Option (State ι υ κ) :=
  match state.sweep with
  | none => none
  | some ([], none) => some { state with users := [], sweep := none }
  | some (user :: rest, none) =>
      some { state with sweep := some (rest, (state.session user).key.map .locking) }
  | some (rest, some point) =>
      (state.stepRemoval timeout point).map fun (next, point) =>
        { next with sweep := some (rest, point) }

/-- The transfer that a session starts. -/
def newTransfer (user : υ) (key : κ) (type : TransferType) (queueTime : ℚ) : Transfer υ κ where
  user := user
  key := key
  type := type
  state := .queued
  queue := -1
  queueTime := queueTime
  ready := false

/-- The next step of a session that serves its client. -/
def stepSession (state : State ι υ κ) (user : υ) : SessionAction ι κ → Option (State ι υ κ)
  | .connect =>
      if (state.session user).point = .absent && !state.sweep.isSome then
        some ({ state with users := state.users ++ [user] }.setPoint user .serving)
      else none
  | .setKey key =>
      if (state.session user).point = .serving then
        some (state.setSession user { state.session user with key := some key })
      else none
  | .logIn =>
      if (state.session user).point = .serving then
        some (state.setSession user { state.session user with loggedIn := true })
      else none
  | .start id type queueTime =>
      match (state.session user).point, (state.session user).key, state.thread id with
      | .serving, some key, .absent =>
          some (({ state with
            started := state.started ++ [id]
            finished := Function.update state.finished id false }.setTransfer id
              (newTransfer user key type queueTime)).setPoint user (.transferring id)
                |>.goTo id .adding)
      | _, _, _ => none
  | .leave =>
      if (state.session user).point = .serving then
        some (state.setSession user
          { state.session user with loggedIn := false, point := .leaving })
      else none

/-- The next step of any thread. -/
def step (action : Action ι υ κ) (state : State ι υ κ) : Option (State ι υ κ) :=
  match action with
  | .session user action => state.stepSession user action
  | .thread id writes => state.stepThread id writes
  | .queue action => state.stepQueue action
  | .disconnect user =>
      some (state.setSession user { state.session user with loggedIn := false })
  | .applySettings =>
      if state.queueThread.holdsQueueLock then none else some { state with scheduled := true }
  | .remove user timeout => state.stepLeaving user timeout
  | .removeAllUsers =>
      if state.sweep.isSome then none else some { state with sweep := some (state.users, none) }
  | .sweep timeout => state.stepSweep timeout

/-- Memory that no transfer has used. -/
def blank : ℕ → Transfer ℕ ℕ := fun _ =>
  { user := 0, key := 0, type := .download, state := .queued, queue := 0, queueTime := 0
    ready := false }

end State

end WiredServer.Transfers
