import WiredServer.Transfers.KeyQueues

/-! A pass of the queue is fair: positions are given without a gap, round robin over the keys and
in arrival order for each key, and slots are given exactly while both limits leave one.
-/

namespace WiredServer.Transfers

variable {ι υ κ : Type}

/-- The transfers that wait for a slot, in arrival order. -/
def Queue.waiting (queue : Queue ι υ κ) : List ι :=
  queue.transfers.filter fun id => (queue.transfer id).isWaiting

/-- The waiting transfers of a key, in arrival order. -/
def Queue.waitingOf [DecidableEq κ] (queue : Queue ι υ κ) (key : κ) : List ι :=
  queue.waiting.filter fun id => (queue.transfer id).key = key

/-- The waiting transfers in the order in which they have their turns when the keys have theirs in
the given order, round after round.
-/
def Queue.turns [DecidableEq κ] (queue : Queue ι υ κ) (keys : List κ) : List ι :=
  RoundRobin.order keys queue.waitingOf queue.waiting.length

/-- The number of slots of a type that are taken, when the given transfers have got one. -/
def Queue.taken (queue : Queue ι υ κ) (admitted : List ι) (type : TransferType) : ℤ :=
  queue.counters.active type + admitted.countP fun id => (queue.transfer id).type = type

/-- The number of slots of a type that a key has taken, when the given transfers have got one. -/
def Queue.takenBy [DecidableEq κ] (queue : Queue ι υ κ) (admitted : List ι) (type : TransferType)
    (key : κ)
    : ℤ :=
  queue.counters.user type key
    + admitted.countP fun id => (queue.transfer id).type = type ∧ (queue.transfer id).key = key

/-- A number of slots has reached a limit, where 0 is no limit. -/
def Limits.Reached (limits : Limits) (type : TransferType) (number : ℤ) : Prop :=
  0 < limits.forType type ∧ limits.forType type ≤ number

/-- Both limits leave a slot for a transfer, when the given transfers have got one. -/
def Queue.HasSlot [DecidableEq κ] (queue : Queue ι υ κ) (total : Limits) (account : υ → Limits)
    (admitted : List ι) (id : ι)
    : Prop :=
  let transfer := queue.transfer id
  ¬total.Reached transfer.type (queue.taken admitted transfer.type)
    ∧ ¬(account transfer.user).Reached transfer.type
      (queue.takenBy admitted transfer.type transfer.key)

/-- What a pass that takes the keys in the given order makes of the queue. -/
structure ServesFairly [DecidableEq ι] [DecidableEq κ] (total : Limits) (account : υ → Limits)
    (keys : List κ) (before after : Queue ι υ κ) : Prop where
  /-- The keys are those of the waiting transfers, each once. -/
  keys_nodup : keys.Nodup
  mem_keys : ∀ key, key ∈ keys ↔ before.waitingOf key ≠ []
  /-- They are ordered by the times of their first waiting transfers. -/
  keys_sorted : keys.Pairwise fun key1 key2 =>
    before.firstTime (before.waitingOf key1) ≤ before.firstTime (before.waitingOf key2)
  /-- Every waiting transfer has one turn. -/
  turns : (before.turns keys).Perm before.waiting
  /-- The positions of the transfers that stay in the queue are those from 1 on. -/
  positions : (after.waiting.map fun id => (after.transfer id).queue).Perm
    ((List.range after.waiting.length).map fun index : ℕ => (index : ℤ) + 1)
  /-- They follow the turns. -/
  roundRobin : ((before.turns keys).filter (· ∈ after.waiting)).Pairwise fun id1 id2 =>
    (after.transfer id1).queue < (after.transfer id2).queue
  /-- Transfers of one key stay in arrival order. -/
  arrival : after.waiting.Pairwise fun id1 id2 =>
    (after.transfer id1).key = (after.transfer id2).key
      → (after.transfer id1).queue < (after.transfer id2).queue
  /-- A transfer gets a slot iff those before it have left one. -/
  admitted : ∀ earlier id later, before.turns keys = earlier ++ id :: later →
    (id ∉ after.waiting
      ↔ before.HasSlot total account (earlier.filter (· ∉ after.waiting)) id)
  /-- The counters count the new slots. -/
  active : ∀ type, after.counters.active type
    = before.taken (before.waiting.filter (· ∉ after.waiting)) type
  user : ∀ type key, after.counters.user type key
    = before.takenBy (before.waiting.filter (· ∉ after.waiting)) type key
  /-- A transfer that got a slot is woken up with position 0. -/
  woken : ∀ id ∈ before.waiting, id ∉ after.waiting →
    after.transfer id = { before.transfer id with queue := 0, ready := true }
  /-- Nothing else changes. -/
  transfers : after.transfers = before.transfers
  others : ∀ id ∉ before.waiting, after.transfer id = before.transfer id
  fields : ∀ id, after.transfer id = { before.transfer id with
    queue := (after.transfer id).queue, ready := (after.transfer id).ready }

section Counters

/-- One more transfer with a slot adds one to the total of its type. -/
theorem Queue.taken_append (queue : Queue ι υ κ) (admitted : List ι) (id : ι) (type : TransferType)
    : queue.taken (admitted ++ [id]) type
      = queue.taken admitted type + if (queue.transfer id).type = type then 1 else 0 := by
  rw [taken, taken, List.countP_append, List.countP_singleton]
  split <;> simp_all [add_assoc]

/-- The test of the code says that one of the limits is reached. -/
theorem Counters.isFull_iff (counters : Counters κ) (total account : Limits) (type : TransferType)
    (key : κ)
    : counters.isFull total account type key = true
      ↔ total.Reached type (counters.active type)
        ∨ account.Reached type (counters.user type key) := by
  simp [isFull, Limits.Reached]

variable [DecidableEq κ]

/-- The total of each type after an addition. -/
theorem Counters.active_add (counters : Counters κ) (type type' : TransferType) (key : κ)
    : (counters.addOrRemoveTransfer type key true).active type'
      = counters.active type' + if type = type' then 1 else 0 := by
  rw [addOrRemoveTransfer, active_countUser, active_countActive]
  rfl

/-- The number of each key after an addition. -/
theorem Counters.user_add (counters : Counters κ) (type type' : TransferType) (key key' : κ)
    : (counters.addOrRemoveTransfer type key true).user type' key'
      = counters.user type' key' + if type = type' ∧ key = key' then 1 else 0 := by
  rw [addOrRemoveTransfer, user_countUser, user_countActive]
  split <;> simp [changeEntry]

/-- One more transfer with a slot adds one to the number of its key. -/
theorem Queue.takenBy_append (queue : Queue ι υ κ) (admitted : List ι) (id : ι)
    (type : TransferType) (key : κ)
    : queue.takenBy (admitted ++ [id]) type key
      = queue.takenBy admitted type key
        + if (queue.transfer id).type = type ∧ (queue.transfer id).key = key then 1 else 0 := by
  rw [takenBy, takenBy, List.countP_append, List.countP_singleton]
  split <;> simp_all [add_assoc]

end Counters

section Gathering

variable [DecidableEq κ]

/-- The first loop of a pass gathers the waiting transfers by key. -/
theorem Queue.gathers_keyQueues (queue : Queue ι υ κ)
    : queue.keyQueues.Gathers (fun id => (queue.transfer id).key) queue.waiting := by
  rw [keyQueues, waiting]
  generalize queue.transfers = ids
  induction ids using List.reverseRecOn with
  | nil => exact KeyQueues.gathers_empty _
  | append_singleton ids id ih =>
      rw [List.foldl_append, List.foldl_cons, List.foldl_nil, List.filter_append]
      split
      · rename_i waiting
        have kept : [id].filter (fun id => (queue.transfer id).isWaiting) = [id] := by
          simp [waiting]
        rw [kept]
        exact ih.add id
      · rename_i idle
        have dropped : [id].filter (fun id => (queue.transfer id).isWaiting) = [] := by
          simp [idle]
        rw [dropped, List.append_nil]
        exact ih

/-- The queue of a key holds its waiting transfers. -/
theorem Queue.queues_keyQueues (queue : Queue ι υ κ) (key : κ)
    : queue.keyQueues.queues key = queue.waitingOf key :=
  queue.gathers_keyQueues.queues key

/-- A pass makes enough rounds for every queue. -/
theorem Queue.order_keyQueues (queue : Queue ι υ κ) (keys : List κ)
    : RoundRobin.order keys queue.keyQueues.queues queue.keyQueues.longestQueue
      = queue.turns keys := by
  have gathers := queue.gathers_keyQueues
  have same : queue.keyQueues.queues = queue.waitingOf := funext queue.queues_keyQueues
  have enough := RoundRobin.order_of_le keys queue.keyQueues.queues
    (le_max_left queue.keyQueues.longestQueue queue.waiting.length)
    fun key _ => gathers.longestQueue key
  have enoughToo := RoundRobin.order_of_le keys queue.waitingOf
    (le_max_right queue.keyQueues.longestQueue queue.waiting.length)
    fun key _ => List.length_filter_le _ _
  rw [turns, ← enoughToo, ← enough, same]

end Gathering

section Turns

/-- A list that ends in an element is split before that element or at it. -/
theorem split_append_singleton {ids earlier later : List ι} {last id : ι}
    (split : ids ++ [last] = earlier ++ id :: later)
    : ids = earlier ∧ last = id ∨ ∃ later', ids = earlier ++ id :: later' := by
  rcases List.eq_nil_or_concat' later with rfl | ⟨later', last', rfl⟩
  · have parts := List.append_inj' split rfl
    exact .inl ⟨parts.1, List.singleton_inj.mp parts.2⟩
  · rw [← List.cons_append, ← List.append_assoc] at split
    exact .inr ⟨later', (List.append_inj' split rfl).1⟩

variable [DecidableEq ι] [DecidableEq κ] {total : Limits} {account : υ → Limits}

/-- Whether a transfer has a place in the queue. -/
def Pass.Stays (pass : Pass ι υ κ) (id : ι) : Prop :=
  (pass.transfer id).queue ≠ 0

instance (pass : Pass ι υ κ) (id : ι) : Decidable (pass.Stays id) :=
  inferInstanceAs (Decidable ((pass.transfer id).queue ≠ 0))

/-- The turn of a transfer that has to wait. -/
theorem Pass.serve_of_isFull {pass : Pass ι υ κ} {id : ι} (positive : pass.position ≠ 0)
    (full : pass.counters.isFull total (account (pass.transfer id).user) (pass.transfer id).type
      (pass.transfer id).key = true)
    : ∃ ready, pass.serve total account id = { pass with
        transfer := Function.update pass.transfer id { pass.transfer id with
          queue := pass.position, ready := ready }
        position := pass.position + 1 } := by
  by_cases same : pass.position = (pass.transfer id).queue
  · refine ⟨(pass.transfer id).ready, ?_⟩
    rw [same] at positive
    simp [serve, full, same]
  · exact ⟨true, by simp [serve, full, same, positive]⟩

/-- The turn of a transfer that gets a slot. -/
theorem Pass.serve_of_not_isFull {pass : Pass ι υ κ} {id : ι} (waits : pass.Stays id)
    (slot : ¬pass.counters.isFull total (account (pass.transfer id).user) (pass.transfer id).type
      (pass.transfer id).key = true)
    : pass.serve total account id = { pass with
        transfer := Function.update pass.transfer id { pass.transfer id with
          queue := 0, ready := true }
        counters := pass.counters.addOrRemoveTransfer (pass.transfer id).type
          (pass.transfer id).key true } := by
  have changes : 0 ≠ (pass.transfer id).queue := Ne.symm waits
  simp [serve, slot, changes]

/-- What a pass has done when the given transfers have had their turns. -/
structure Pass.Served (total : Limits) (account : υ → Limits) (queue : Queue ι υ κ)
    (ids : List ι) (pass : Pass ι υ κ) : Prop where
  position : pass.position = (ids.filter (pass.Stays ·)).length + 1
  positions : (ids.filter (pass.Stays ·)).map (fun id => (pass.transfer id).queue)
    = (List.range (ids.filter (pass.Stays ·)).length).map fun index : ℕ => (index : ℤ) + 1
  active : ∀ type, pass.counters.active type = queue.taken (ids.filter (¬pass.Stays ·)) type
  user : ∀ type key,
    pass.counters.user type key = queue.takenBy (ids.filter (¬pass.Stays ·)) type key
  admitted : ∀ earlier id later, ids = earlier ++ id :: later →
    (¬pass.Stays id ↔ queue.HasSlot total account (earlier.filter (¬pass.Stays ·)) id)
  woken : ∀ id ∈ ids, ¬pass.Stays id →
    pass.transfer id = { queue.transfer id with queue := 0, ready := true }
  others : ∀ id ∉ ids, pass.transfer id = queue.transfer id
  fields : ∀ id, pass.transfer id = { queue.transfer id with
    queue := (pass.transfer id).queue, ready := (pass.transfer id).ready }

section Step

variable {queue : Queue ι υ κ} {ids : List ι} {pass next : Pass ι υ κ} {id : ι}
  {changed : Transfer υ κ}

omit [DecidableEq ι] in
/-- The test of the code for a transfer says whether the transfers before it have left a slot. -/
theorem Pass.Served.isFull_iff (served : pass.Served total account queue ids)
    : ¬pass.counters.isFull total (account (pass.transfer id).user) (pass.transfer id).type
        (pass.transfer id).key = true
      ↔ queue.HasSlot total account (ids.filter (¬pass.Stays ·)) id := by
  rw [Counters.isFull_iff, served.active, served.user, not_or, served.fields id]
  rfl

omit [DecidableEq κ] in
/-- A change of one transfer does not change whether others stay. -/
theorem Pass.stays_of_update {other : ι} (ne : other ≠ id)
    (transfer : next.transfer = Function.update pass.transfer id changed)
    : next.Stays other ↔ pass.Stays other := by
  rw [Stays, Stays, transfer, Function.update_of_ne ne]

omit [DecidableEq κ] in
/-- A change of a transfer outside a list does not change which ones of the list stay. -/
theorem Pass.filter_stays_of_update (absent : id ∉ ids)
    (transfer : next.transfer = Function.update pass.transfer id changed)
    : ids.filter (next.Stays ·) = ids.filter (pass.Stays ·)
      ∧ ids.filter (¬next.Stays ·) = ids.filter (¬pass.Stays ·) := by
  have same : ∀ other ∈ ids, (next.Stays other ↔ pass.Stays other) := by
    intro other member
    have ne : other ≠ id := fun equal => absent (equal ▸ member)
    exact stays_of_update ne transfer
  exact ⟨List.filter_congr fun other member => decide_eq_decide.mpr (same other member),
    List.filter_congr fun other member => decide_eq_decide.mpr (not_congr (same other member))⟩

/-- A turn decides about its own transfer and about no other one. -/
theorem Pass.Served.admitted_append (served : pass.Served total account queue ids)
    (absent : id ∉ ids) (transfer : next.transfer = Function.update pass.transfer id changed)
    (decides : ¬next.Stays id ↔ queue.HasSlot total account (ids.filter (¬pass.Stays ·)) id)
    : ∀ earlier other later, ids ++ [id] = earlier ++ other :: later →
      (¬next.Stays other
        ↔ queue.HasSlot total account (earlier.filter (¬next.Stays ·)) other) := by
  intro earlier other later split
  rcases split_append_singleton split with ⟨rfl, rfl⟩ | ⟨later', split⟩
  · rw [(filter_stays_of_update absent transfer).2]
    exact decides
  · have absentEarlier : id ∉ earlier := fun member =>
      absent (split ▸ List.mem_append_left _ member)
    have member : other ∈ ids := split ▸ List.mem_append_right _ List.mem_cons_self
    have ne : other ≠ id := fun equal => absent (equal ▸ member)
    rw [(filter_stays_of_update absentEarlier transfer).2,
      not_congr (stays_of_update ne transfer)]
    exact served.admitted earlier other later' split

omit [DecidableEq κ] in
/-- A turn leaves the positions of the transfers before it. -/
theorem Pass.map_queue_of_update {kept : List ι} (absent : id ∉ kept)
    (transfer : next.transfer = Function.update pass.transfer id changed)
    : kept.map (fun id => (next.transfer id).queue)
      = kept.map fun id => (pass.transfer id).queue := by
  refine List.map_congr_left fun other member => ?_
  have ne : other ≠ id := fun equal => absent (equal ▸ member)
  rw [transfer, Function.update_of_ne ne]

/-- A turn leaves the transfers that have not had theirs. -/
theorem Pass.Served.others_append (served : pass.Served total account queue ids)
    (transfer : next.transfer = Function.update pass.transfer id changed)
    : ∀ other ∉ ids ++ [id], next.transfer other = queue.transfer other := by
  intro other absent
  rw [List.mem_append, List.mem_singleton, not_or] at absent
  rw [transfer, Function.update_of_ne absent.2, served.others other absent.1]

/-- A turn leaves the transfers that got a slot before it. -/
theorem Pass.Served.woken_of_ne (served : pass.Served total account queue ids) {other : ι}
    (member : other ∈ ids ++ [id]) (ne : other ≠ id)
    (transfer : next.transfer = Function.update pass.transfer id changed)
    (leaves : ¬next.Stays other)
    : next.transfer other = { queue.transfer other with queue := 0, ready := true } := by
  rw [stays_of_update ne transfer] at leaves
  rw [transfer, Function.update_of_ne ne]
  refine served.woken other ?_ leaves
  simpa [ne] using member

/-- A turn changes nothing but the position and the condition of its transfer. -/
theorem Pass.Served.fields_of_update (served : pass.Served total account queue ids)
    {position : ℤ} {ready : Bool}
    (transfer : next.transfer = Function.update pass.transfer id
      { pass.transfer id with queue := position, ready := ready })
    : ∀ other, next.transfer other = { queue.transfer other with
        queue := (next.transfer other).queue, ready := (next.transfer other).ready } := by
  intro other
  rw [transfer]
  by_cases same : other = id
  · subst same
    rw [Function.update_self, served.fields other]
  · rw [Function.update_of_ne same]
    exact served.fields other

/-- The turn of a transfer that has to wait gives it the next position. -/
theorem Pass.Served.wait (served : pass.Served total account queue ids) (absent : id ∉ ids)
    (full : pass.counters.isFull total (account (pass.transfer id).user) (pass.transfer id).type
      (pass.transfer id).key = true)
    : (pass.serve total account id).Served total account queue (ids ++ [id]) := by
  have positive : pass.position ≠ 0 := by
    rw [served.position]
    omega
  obtain ⟨ready, serves⟩ := serve_of_isFull positive full
  generalize after : pass.serve total account id = next at serves ⊢
  have transfer := congrArg Pass.transfer serves
  have counters := congrArg Pass.counters serves
  simp only at transfer counters
  have stays : next.Stays id := by
    rw [Stays, transfer, Function.update_self]
    exact positive
  obtain ⟨staying, leaving⟩ := filter_stays_of_update absent transfer
  have stayingToo : (ids ++ [id]).filter (next.Stays ·) = ids.filter (pass.Stays ·) ++ [id] := by
    rw [List.filter_append, staying]
    simp [stays]
  have leavingToo : (ids ++ [id]).filter (¬next.Stays ·) = ids.filter (¬pass.Stays ·) := by
    rw [List.filter_append, leaving]
    simp [stays]
  constructor
  case position =>
    rw [stayingToo, List.length_append, serves]
    show pass.position + 1 = _
    rw [served.position]
    push_cast
    rfl
  case positions =>
    have absentToo : id ∉ ids.filter (pass.Stays ·) := fun member =>
      absent (List.mem_of_mem_filter member)
    rw [stayingToo, List.map_append, map_queue_of_update absentToo transfer, served.positions,
      List.length_append, List.length_singleton, List.range_succ, List.map_append, transfer]
    simp [served.position]
  case active =>
    intro type
    rw [counters, leavingToo, served.active]
  case user =>
    intro type key
    rw [counters, leavingToo, served.user]
  case admitted =>
    refine served.admitted_append absent transfer ?_
    rw [← served.isFull_iff]
    simp only [stays, not_true_eq_false, full]
  case woken =>
    intro other member leaves
    exact served.woken_of_ne member (fun equal => leaves (equal ▸ stays)) transfer leaves
  case others =>
    exact served.others_append transfer
  case fields =>
    exact served.fields_of_update transfer

/-- The turn of a transfer that both limits leave a slot for gives it one. -/
theorem Pass.Served.giveSlot (served : pass.Served total account queue ids) (absent : id ∉ ids)
    (waits : pass.Stays id)
    (slot : ¬pass.counters.isFull total (account (pass.transfer id).user) (pass.transfer id).type
      (pass.transfer id).key = true)
    : (pass.serve total account id).Served total account queue (ids ++ [id]) := by
  have serves := serve_of_not_isFull waits slot
  generalize after : pass.serve total account id = next at serves ⊢
  have transfer := congrArg Pass.transfer serves
  have counters := congrArg Pass.counters serves
  simp only at transfer counters
  have leaves : ¬next.Stays id := by
    rw [Stays, transfer, Function.update_self]
    exact not_not.mpr rfl
  obtain ⟨staying, leaving⟩ := filter_stays_of_update absent transfer
  have stayingToo : (ids ++ [id]).filter (next.Stays ·) = ids.filter (pass.Stays ·) := by
    rw [List.filter_append, staying]
    simp [leaves]
  have leavingToo : (ids ++ [id]).filter (¬next.Stays ·)
      = ids.filter (¬pass.Stays ·) ++ [id] := by
    rw [List.filter_append, leaving]
    simp [leaves]
  constructor
  case position =>
    rw [stayingToo, serves]
    exact served.position
  case positions =>
    have absentToo : id ∉ ids.filter (pass.Stays ·) := fun member =>
      absent (List.mem_of_mem_filter member)
    rw [stayingToo, map_queue_of_update absentToo transfer]
    exact served.positions
  case active =>
    intro type
    rw [counters, leavingToo, Counters.active_add, queue.taken_append, served.active,
      served.others id absent]
  case user =>
    intro type key
    rw [counters, leavingToo, Counters.user_add, queue.takenBy_append, served.user,
      served.others id absent]
  case admitted =>
    refine served.admitted_append absent transfer ?_
    rw [← served.isFull_iff]
    exact iff_of_true leaves slot
  case woken =>
    intro other member leaves
    by_cases same : other = id
    · subst same
      rw [transfer, Function.update_self, served.others other absent]
    · exact served.woken_of_ne member same transfer leaves
  case others =>
    exact served.others_append transfer
  case fields =>
    exact served.fields_of_update transfer

end Step

/-- The turns of waiting transfers, one after the other. -/
theorem Queue.served (queue : Queue ι υ κ) (total : Limits) (account : υ → Limits)
    {ids : List ι} (nodup : ids.Nodup) (waits : ∀ id ∈ ids, (queue.transfer id).queue ≠ 0)
    : (ids.foldl (Pass.serve total account) queue.beginPass).Served total account queue ids := by
  induction ids using List.reverseRecOn with
  | nil =>
      constructor <;> simp [beginPass, taken, takenBy]
  | append_singleton ids id ih =>
      rw [List.foldl_append, List.foldl_cons, List.foldl_nil]
      have absent : id ∉ ids := fun member =>
        (List.nodup_append.mp nodup).2.2 id member id (List.mem_singleton_self id) rfl
      have served := ih (List.nodup_append.mp nodup).1
        fun id member => waits id (List.mem_append_left _ member)
      generalize ids.foldl (Pass.serve total account) queue.beginPass = pass at served ⊢
      by_cases full : pass.counters.isFull total (account (pass.transfer id).user)
          (pass.transfer id).type (pass.transfer id).key = true
      · exact served.wait absent full
      · refine served.giveSlot absent ?_ full
        rw [Pass.Stays, served.others id absent]
        exact waits id (List.mem_append_right _ (List.mem_singleton_self id))

end Turns

/-- What is documented of a sort: it permutes the keys and puts none behind a greater one. Equal
ones may come in any order.
-/
def Sorts (sort : (κ → κ → ℤ) → List κ → List κ) : Prop :=
  ∀ compare : κ → κ → ℤ, (∀ key1 key2, compare key1 key2 ≤ 0 ∨ compare key2 key1 ≤ 0)
    → (∀ key1 key2 key3, compare key1 key2 ≤ 0 → compare key2 key3 ≤ 0 → compare key1 key3 ≤ 0)
    → ∀ keys, (sort compare keys).Perm keys
      ∧ (sort compare keys).Pairwise fun key1 key2 => compare key1 key2 ≤ 0

/-- The comparison of two queues says which one's first transfer is older. -/
theorem queueCompare_nonpos_iff (time1 time2 : ℚ)
    : queueCompare time1 time2 ≤ 0 ↔ time1 ≤ time2 := by
  rw [queueCompare]
  split
  · rename_i later
    simp [later]
  · rename_i notLater
    split <;> simp [not_lt.mp notLater]

section Fairness

/-- A list in which the elements of each key are in a relation is in it for equal keys. -/
theorem pairwise_of_filter [DecidableEq κ] {key : ι → κ} {R : ι → ι → Prop} {ids : List ι}
    (each : ∀ value, (ids.filter fun id => key id = value).Pairwise R)
    : ids.Pairwise fun id1 id2 => key id1 = key id2 → R id1 id2 := by
  induction ids with
  | nil => exact List.Pairwise.nil
  | cons first ids ih =>
      have rest : ∀ value, (ids.filter fun id => key id = value).Pairwise R := fun value =>
        (each value).sublist ((List.sublist_cons_self first ids).filter _)
      refine List.Pairwise.cons ?_ (ih rest)
      intro other member same
      have mine := each (key first)
      rw [List.filter_cons_of_pos (by simp)] at mine
      exact List.rel_of_pairwise_cons mine (List.mem_filter.mpr ⟨member, by simp [same]⟩)

/-- A waiting transfer has a place in the queue. -/
theorem Queue.queue_of_waiting {queue : Queue ι υ κ} {id : ι} (member : id ∈ queue.waiting)
    : (queue.transfer id).state = .queued ∧ (queue.transfer id).queue ≠ 0 := by
  have waits := (List.mem_filter.mp member).2
  simpa [Transfer.isWaiting] using waits

/-- The number of taken slots does not depend on the order of the transfers. -/
theorem Queue.taken_perm {queue : Queue ι υ κ} {ids ids' : List ι} (perm : ids.Perm ids')
    (type : TransferType)
    : queue.taken ids type = queue.taken ids' type := by
  rw [taken, taken, perm.countP_eq]

variable [DecidableEq κ]

/-- The keys of the queues are those of the waiting transfers. -/
theorem Queue.mem_keys (queue : Queue ι υ κ) (key : κ)
    : key ∈ queue.keyQueues.keys ↔ queue.waitingOf key ≠ [] := by
  rw [queue.gathers_keyQueues.mem_keys, queue.queues_keyQueues]

/-- No key has more waiting transfers than there are. -/
theorem Queue.take_waitingOf (queue : Queue ι υ κ) (key : κ)
    : (queue.waitingOf key).take queue.waiting.length = queue.waitingOf key :=
  List.take_of_length_le (List.length_filter_le _ _)

/-- Every waiting transfer has one turn, whatever the order of the keys. -/
theorem Queue.turns_perm {queue : Queue ι υ κ} {keys : List κ}
    (perm : keys.Perm queue.keyQueues.keys)
    : (queue.turns keys).Perm queue.waiting := by
  rw [← queue.order_keyQueues]
  exact queue.gathers_keyQueues.order_perm (queue.nodup.filter _) perm

/-- The number of slots that a key has taken does not depend on the order of the transfers. -/
theorem Queue.takenBy_perm {queue : Queue ι υ κ} {ids ids' : List ι} (perm : ids.Perm ids')
    (type : TransferType) (key : κ)
    : queue.takenBy ids type key = queue.takenBy ids' type key := by
  rw [takenBy, takenBy, perm.countP_eq]

/-- The positions ascend along the turns. -/
theorem Pass.Served.pairwise_positions {total : Limits} {account : υ → Limits}
    {queue : Queue ι υ κ} {ids : List ι} {pass : Pass ι υ κ}
    (served : pass.Served total account queue ids)
    : (ids.filter (pass.Stays ·)).Pairwise fun id1 id2 =>
        (pass.transfer id1).queue < (pass.transfer id2).queue := by
  rw [← @List.pairwise_map _ _ (fun id => (pass.transfer id).queue) (· < ·),
    served.positions, List.pairwise_map]
  exact List.pairwise_lt_range.imp fun less => by omega

variable [DecidableEq ι]

/-- The queue that a pass leaves. -/
def Queue.afterPass (queue : Queue ι υ κ) (pass : Pass ι υ κ) : Queue ι υ κ :=
  { queue with transfer := pass.transfer, counters := pass.counters }

section AfterPass

variable {total : Limits} {account : υ → Limits} {queue : Queue ι υ κ} {keys : List κ}
  {pass : Pass ι υ κ}

/-- The transfers that wait after a pass are those that waited before and have a position. -/
theorem Pass.Served.waiting_afterPass (served : pass.Served total account queue (queue.turns keys))
    (perm : (queue.turns keys).Perm queue.waiting)
    : (queue.afterPass pass).waiting = queue.waiting.filter (pass.Stays ·) := by
  rw [Queue.waiting, Queue.waiting, List.filter_filter]
  refine List.filter_congr fun id _ => ?_
  show (pass.transfer id).isWaiting = _
  rw [served.fields id, Bool.eq_iff_iff, Bool.and_eq_true, decide_eq_true_iff]
  by_cases member : id ∈ queue.turns keys
  · have waits := Queue.queue_of_waiting (perm.mem_iff.mp member)
    simp [Transfer.isWaiting, waits, Pass.Stays]
  · have same := served.others id member
    simp [Transfer.isWaiting, Pass.Stays, same]

/-- A transfer that has its turn waits after the pass iff it has a position. -/
theorem Pass.Served.mem_waiting_iff (served : pass.Served total account queue (queue.turns keys))
    (perm : (queue.turns keys).Perm queue.waiting) {id : ι} (member : id ∈ queue.turns keys)
    : id ∈ (queue.afterPass pass).waiting ↔ pass.Stays id := by
  rw [served.waiting_afterPass perm, List.mem_filter, decide_eq_true_iff]
  exact and_iff_right (perm.mem_iff.mp member)

/-- Those of a part of the turns that wait after the pass are those that have a position. -/
theorem Pass.Served.filter_mem_waiting
    (served : pass.Served total account queue (queue.turns keys))
    (perm : (queue.turns keys).Perm queue.waiting) {ids : List ι} (turns : ids ⊆ queue.turns keys)
    : ids.filter (· ∈ (queue.afterPass pass).waiting) = ids.filter (pass.Stays ·)
      ∧ ids.filter (· ∉ (queue.afterPass pass).waiting) = ids.filter (¬pass.Stays ·) := by
  have same : ∀ id ∈ ids, (id ∈ (queue.afterPass pass).waiting ↔ pass.Stays id) :=
    fun id member => served.mem_waiting_iff perm (turns member)
  exact ⟨List.filter_congr fun id member => decide_eq_decide.mpr (same id member),
    List.filter_congr fun id member => decide_eq_decide.mpr (not_congr (same id member))⟩

/-- When all turns of a pass have been taken, it has been fair. -/
theorem Pass.Served.servesFairly (served : pass.Served total account queue (queue.turns keys))
    (keysPerm : keys.Perm queue.keyQueues.keys)
    (sorted : keys.Pairwise fun key1 key2 =>
      queue.firstTime (queue.waitingOf key1) ≤ queue.firstTime (queue.waitingOf key2))
    : ServesFairly total account keys queue (queue.afterPass pass) := by
  have perm := Queue.turns_perm keysPerm
  have mem_keys : ∀ key, key ∈ keys ↔ queue.waitingOf key ≠ [] := fun key =>
    keysPerm.mem_iff.trans (queue.mem_keys key)
  have waiting := served.waiting_afterPass perm
  have filtered := served.filter_mem_waiting perm (List.Subset.refl _)
  have leaving := (perm.filter fun id => decide (id ∉ (queue.afterPass pass).waiting))
  constructor
  case keys_nodup => exact keysPerm.nodup_iff.mpr queue.gathers_keyQueues.nodup
  case mem_keys => exact mem_keys
  case keys_sorted => exact sorted
  case turns => exact perm
  case positions =>
    have stay := perm.filter (pass.Stays ·)
    rw [← waiting] at stay
    rw [← stay.length_eq, ← served.positions]
    exact (stay.map _).symm
  case roundRobin =>
    rw [filtered.1]
    exact served.pairwise_positions
  case arrival =>
    rw [waiting]
    refine pairwise_of_filter fun key => ?_
    have sameKey : (queue.waiting.filter (pass.Stays ·)).filter
        (fun id => (pass.transfer id).key = key)
        = (queue.waitingOf key).filter (pass.Stays ·) := by
      rw [Queue.waitingOf, List.filter_filter, List.filter_filter]
      refine List.filter_congr fun id _ => ?_
      rw [served.fields id, Bool.and_comm]
    rw [Queue.afterPass, sameKey]
    by_cases member : key ∈ keys
    · have sub := RoundRobin.sublist_order queue.waitingOf queue.waiting.length member
      rw [queue.take_waitingOf] at sub
      exact served.pairwise_positions.sublist (sub.filter _)
    · have none : queue.waitingOf key = [] := by
        by_contra some
        exact member ((mem_keys key).mpr some)
      rw [none]
      exact List.Pairwise.nil
  case admitted =>
    intro earlier id later split
    have member : id ∈ queue.turns keys :=
      split ▸ List.mem_append_right _ List.mem_cons_self
    have before : earlier ⊆ queue.turns keys := fun id member =>
      split ▸ List.mem_append_left _ member
    rw [(served.filter_mem_waiting perm before).2, served.mem_waiting_iff perm member]
    exact served.admitted earlier id later split
  case active =>
    intro type
    rw [← Queue.taken_perm leaving, filtered.2]
    exact served.active type
  case user =>
    intro type key
    rw [← Queue.takenBy_perm leaving, filtered.2]
    exact served.user type key
  case woken =>
    intro id member leaves
    have turn := perm.mem_iff.mpr member
    exact served.woken id turn fun stays =>
      leaves ((served.mem_waiting_iff perm turn).mpr stays)
  case transfers => rfl
  case others =>
    intro id absent
    exact served.others id fun member => absent (perm.mem_iff.mp member)
  case fields => exact served.fields

end AfterPass

/-- Every pass is fair, whatever sort it orders the keys with. -/
theorem servesFairly_pass {keysSortedByValue : (κ → κ → ℤ) → List κ → List κ}
    (sorts : Sorts keysSortedByValue) (total : Limits) (account : υ → Limits)
    (queue : Queue ι υ κ)
    : ∃ keys, ServesFairly total account keys queue
        (queue.pass keysSortedByValue total account) := by
  have sorted := sorts
    (fun key1 key2 => queueCompare (queue.firstTime (queue.keyQueues.queues key1))
      (queue.firstTime (queue.keyQueues.queues key2)))
    (fun key1 key2 => by simpa only [queueCompare_nonpos_iff] using le_total _ _)
    (fun key1 key2 key3 => by simpa only [queueCompare_nonpos_iff] using le_trans)
    queue.keyQueues.keys
  simp only [queueCompare_nonpos_iff, queue.queues_keyQueues] at sorted
  rw [Queue.pass]
  simp only [queue.queues_keyQueues]
  generalize keysSortedByValue _ _ = keys at sorted ⊢
  obtain ⟨perm, sorted⟩ := sorted
  have nodup := perm.nodup_iff.mpr queue.gathers_keyQueues.nodup
  have turns := Queue.turns_perm perm
  have served := queue.served total account
    (turns.nodup_iff.mpr (queue.nodup.filter _))
    fun id member => (Queue.queue_of_waiting (turns.mem_iff.mp member)).2
  refine ⟨keys, ?_⟩
  rw [RoundRobin.run_state nodup, queue.order_keyQueues]
  exact served.servesFairly perm sorted

omit [DecidableEq κ] in
/-- Insertion sort is a sort. -/
theorem sorts_insertionSort
    : Sorts fun (compare : κ → κ → ℤ) keys =>
        keys.insertionSort fun key1 key2 => compare key1 key2 ≤ 0 := by
  intro compare total trans keys
  have : Std.Total fun key1 key2 => compare key1 key2 ≤ 0 := ⟨total⟩
  have : IsTrans κ fun key1 key2 => compare key1 key2 ≤ 0 := ⟨trans⟩
  exact ⟨List.perm_insertionSort _ keys, List.pairwise_insertionSort _ keys⟩

/-- Two downloads of one user and an upload of another one that came between them. -/
def Queue.twoUsers : Queue ℕ ℕ ℕ where
  transfers := [0, 1, 2]
  nodup := by decide
  transfer := fun id => {
    user := id % 2
    key := id % 2
    type := if id = 1 then .upload else .download
    state := .queued
    queue := -1
    queueTime := id
    ready := false }
  counters := {
    activeDownloads := 0
    activeUploads := 0
    userDownloads := fun _ => 0
    userUploads := fun _ => 0 }

/-- The pass over them is fair when there is one slot for downloads. -/
theorem servesFairly_pass_twoUsers
    : ∃ keys, ServesFairly ⟨1, 0⟩ (fun _ => ⟨2, 1⟩) keys Queue.twoUsers
        (Queue.twoUsers.pass
          (fun compare keys => keys.insertionSort fun key1 key2 => compare key1 key2 ≤ 0)
          ⟨1, 0⟩ fun _ => ⟨2, 1⟩) :=
  servesFairly_pass sorts_insertionSort ⟨1, 0⟩ (fun _ => ⟨2, 1⟩) Queue.twoUsers

end Fairness

end WiredServer.Transfers
