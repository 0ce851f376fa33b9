import WiredServer.Lib.RoundRobin

/-! The transfer queue. A pass of the queue thread gathers the waiting transfers by the key of
their user and takes the keys in turn: each transfer either gets a slot or the next position.
-/

namespace WiredServer.Transfers

/-- `wd_transfer_type_t` -/
inductive TransferType where
  | download
  | upload
  deriving DecidableEq, Repr

/-- `wd_transfer_state_t` -/
inductive TransferState where
  | queued
  | running
  deriving DecidableEq, Repr

/-- The fields of `wd_transfer_t` that the queue uses. A transfer that has just been made has
position −1, one with a slot position 0. `ready` is the condition of its `queue_lock`.
-/
structure Transfer (υ κ : Type) where
  user : υ
  key : κ
  type : TransferType
  state : TransferState
  queue : ℤ
  queueTime : ℚ
  ready : Bool
  deriving DecidableEq, Repr

/-- The transfer limits of the server's settings or of an account, 0 for no limit. -/
structure Limits where
  downloads : ℕ
  uploads : ℕ
  deriving DecidableEq, Repr

/-- The limit for a type of transfers. -/
def Limits.forType (limits : Limits) : TransferType → ℕ
  | .download => limits.downloads
  | .upload => limits.uploads

/-- The counters of active transfers, in total and for each key, which has no entry while it is
0. They are integers here, so that one below 0 would show.
-/
structure Counters (κ : Type) where
  activeDownloads : ℤ
  activeUploads : ℤ
  userDownloads : κ → ℤ
  userUploads : κ → ℤ

/-- The total of a type. -/
def Counters.active {κ : Type} (counters : Counters κ) : TransferType → ℤ
  | .download => counters.activeDownloads
  | .upload => counters.activeUploads

/-- The counters of a type for each key. -/
def Counters.user {κ : Type} (counters : Counters κ) : TransferType → κ → ℤ
  | .download => counters.userDownloads
  | .upload => counters.userUploads

/-- The first half of `wd_transfers_add_or_remove_transfer`: the total. -/
def Counters.countActive {κ : Type} (counters : Counters κ) (type : TransferType) (add : Bool)
    : Counters κ :=
  let change := if add then 1 else -1
  match type with
  | .download => { counters with activeDownloads := counters.activeDownloads + change }
  | .upload => { counters with activeUploads := counters.activeUploads + change }

/-- The number for a key after an addition or a removal, which drops an entry that is 0. -/
def changeEntry (number : ℤ) (add : Bool) : ℤ :=
  if add then number + 1
  else if number > 0 then number - 1
  else 0

/-- The second half of `wd_transfers_add_or_remove_transfer`: the entry of the key. -/
def Counters.countUser {κ : Type} [DecidableEq κ] (counters : Counters κ) (type : TransferType)
    (key : κ) (add : Bool)
    : Counters κ :=
  match type with
  | .download => { counters with
      userDownloads := Function.update counters.userDownloads key
        (changeEntry (counters.userDownloads key) add) }
  | .upload => { counters with
      userUploads := Function.update counters.userUploads key
        (changeEntry (counters.userUploads key) add) }

/-- `wd_transfers_add_or_remove_transfer` -/
def Counters.addOrRemoveTransfer {κ : Type} [DecidableEq κ] (counters : Counters κ)
    (type : TransferType) (key : κ) (add : Bool)
    : Counters κ :=
  (counters.countActive type add).countUser type key add

section CounterLemmas

variable {κ : Type} (counters : Counters κ) (type type' : TransferType) (key key' : κ) (add : Bool)

/-- The total of each type after a change of a total. -/
theorem Counters.active_countActive
    : (counters.countActive type add).active type'
      = counters.active type' + if type = type' then (if add then 1 else -1) else 0 := by
  cases type <;> cases type' <;> simp [countActive, active]

/-- A change of a total leaves the numbers of the keys. -/
theorem Counters.user_countActive
    : (counters.countActive type add).user type' = counters.user type' := by
  cases type <;> cases type' <;> rfl

variable [DecidableEq κ]

/-- A change of the number of a key leaves the totals. -/
theorem Counters.active_countUser
    : (counters.countUser type key add).active type' = counters.active type' := by
  cases type <;> cases type' <;> rfl

/-- The number of each key after a change of one. -/
theorem Counters.user_countUser
    : (counters.countUser type key add).user type' key'
      = if type = type' ∧ key = key' then changeEntry (counters.user type' key') add
        else counters.user type' key' := by
  by_cases same : key = key'
  · subst same
    cases type <;> cases type' <;> simp [countUser, user]
  · cases type <;> cases type' <;> simp [countUser, user, same, Ne.symm same]

end CounterLemmas

/-- What a pass works on: the list `wd_transfers`, in which each transfer stands once, the
transfers themselves and the counters.
-/
structure Queue (ι υ κ : Type) where
  transfers : List ι
  nodup : transfers.Nodup
  transfer : ι → Transfer υ κ
  counters : Counters κ

section Pass

variable {ι υ κ : Type} [DecidableEq ι] [DecidableEq κ]

/-- Whether a pass takes up a transfer. -/
def Transfer.isWaiting (transfer : Transfer υ κ) : Bool :=
  transfer.state = .queued && transfer.queue ≠ 0

/-- `key_queues` with its keys and the length of the longest queue. -/
structure KeyQueues (ι κ : Type) where
  queues : κ → List ι
  keys : List κ
  longestQueue : ℕ

/-- No key has a queue. -/
def KeyQueues.empty : KeyQueues ι κ where
  queues := fun _ => []
  keys := []
  longestQueue := 0

/-- A transfer goes to the end of the queue of its key, which is made when there is none. -/
def KeyQueues.add (keyQueues : KeyQueues ι κ) (key : κ) (id : ι) : KeyQueues ι κ :=
  let queue := keyQueues.queues key ++ [id]
  { queues := Function.update keyQueues.queues key queue
    keys := if keyQueues.queues key = [] then keyQueues.keys ++ [key] else keyQueues.keys
    longestQueue :=
      if queue.length > keyQueues.longestQueue then queue.length else keyQueues.longestQueue }

/-- The queues that the first loop of a pass makes. -/
def Queue.keyQueues (queue : Queue ι υ κ) : KeyQueues ι κ :=
  queue.transfers.foldl (fun keyQueues id =>
    if (queue.transfer id).isWaiting then keyQueues.add (queue.transfer id).key id
    else keyQueues) .empty

/-- `wd_transfers_queue_compare`, for the times of the first transfers of two queues. -/
def queueCompare (time1 time2 : ℚ) : ℤ :=
  if time1 > time2 then 1
  else if time2 > time1 then -1
  else 0

/-- The time of the first transfer of a queue. Queues in the dictionary are not empty. -/
def Queue.firstTime (queue : Queue ι υ κ) (ids : List ι) : ℚ :=
  ids.head?.elim 0 fun id => (queue.transfer id).queueTime

/-- The state of a pass while it takes the keys in turn. -/
structure Pass (ι υ κ : Type) where
  transfer : ι → Transfer υ κ
  counters : Counters κ
  position : ℤ

/-- A pass before the first turn. -/
def Queue.beginPass (queue : Queue ι υ κ) : Pass ι υ κ where
  transfer := queue.transfer
  counters := queue.counters
  position := 1

/-- Whether a transfer has to wait: the total or the number of its key has reached its limit. -/
def Counters.isFull (counters : Counters κ) (total account : Limits) (type : TransferType)
    (key : κ)
    : Bool :=
  (total.forType type > 0 && counters.active type ≥ total.forType type)
    || (account.forType type > 0 && counters.user type key ≥ account.forType type)

/-- The turn of a waiting transfer. A changed position is published under its lock. -/
def Pass.serve (total : Limits) (account : υ → Limits) (pass : Pass ι υ κ) (id : ι)
    : Pass ι υ κ :=
  let transfer := pass.transfer id
  let queue := pass.counters.isFull total (account transfer.user) transfer.type transfer.key
  let newPosition := if queue then pass.position else 0
  { transfer :=
      if newPosition ≠ transfer.queue then
        Function.update pass.transfer id { transfer with queue := newPosition, ready := true }
      else pass.transfer
    counters :=
      if newPosition ≠ transfer.queue ∧ newPosition = 0 then
        pass.counters.addOrRemoveTransfer transfer.type transfer.key true
      else pass.counters
    position := if queue then pass.position + 1 else pass.position }

/-- A pass of `wd_transfers_queue_thread`. How `wi_dictionary_keys_sorted_by_value` orders keys is
its first argument.
-/
def Queue.pass (keysSortedByValue : (κ → κ → ℤ) → List κ → List κ) (total : Limits)
    (account : υ → Limits) (queue : Queue ι υ κ)
    : Queue ι υ κ :=
  let keyQueues := queue.keyQueues
  let compare := fun key1 key2 => queueCompare (queue.firstTime (keyQueues.queues key1))
    (queue.firstTime (keyQueues.queues key2))
  let keys := keysSortedByValue compare keyQueues.keys
  let served := (RoundRobin.run (Pass.serve total account) keys keyQueues.longestQueue
    (keyQueues.queues, queue.beginPass)).2
  { queue with transfer := served.transfer, counters := served.counters }

end Pass

end WiredServer.Transfers
