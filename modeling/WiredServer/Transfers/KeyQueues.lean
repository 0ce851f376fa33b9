import WiredServer.Transfers.Queue

/-! What the first loop of a pass gathers: each key has the queue of its transfers in the order in
which they were met, and taking the keys in turn serves each transfer once.
-/

namespace WiredServer.Transfers

variable {ι υ κ : Type} [DecidableEq κ]

/-- The queues hold some transfers by key, and the keys are those that have any. -/
structure KeyQueues.Gathers (keyQueues : KeyQueues ι κ) (key : ι → κ) (ids : List ι)
    : Prop where
  queues : ∀ value, keyQueues.queues value = ids.filter fun id => key id = value
  nodup : keyQueues.keys.Nodup
  mem_keys : ∀ value, value ∈ keyQueues.keys ↔ keyQueues.queues value ≠ []
  longestQueue : ∀ value, (keyQueues.queues value).length ≤ keyQueues.longestQueue

/-- Nothing has been gathered yet. -/
theorem KeyQueues.gathers_empty (key : ι → κ)
    : (KeyQueues.empty : KeyQueues ι κ).Gathers key [] where
  queues := fun _ => rfl
  nodup := List.nodup_nil
  mem_keys := fun value => by simp [empty]
  longestQueue := fun _ => le_rfl

/-- A transfer joins the queue of its key only. -/
theorem KeyQueues.queues_add (keyQueues : KeyQueues ι κ) (key key' : κ) (id : ι)
    : (keyQueues.add key id).queues key'
      = keyQueues.queues key' ++ if key = key' then [id] else [] := by
  by_cases same : key = key'
  · subst same
    simp [add]
  · simp [add, same, Ne.symm same]

/-- One more transfer is gathered. -/
theorem KeyQueues.Gathers.add {keyQueues : KeyQueues ι κ} {key : ι → κ} {ids : List ι}
    (gathers : keyQueues.Gathers key ids) (id : ι)
    : (keyQueues.add (key id) id).Gathers key (ids ++ [id]) where
  queues := by
    intro value
    rw [keyQueues.queues_add, gathers.queues, List.filter_append]
    simp [List.filter_cons]
  nodup := by
    show List.Nodup (if _ then _ else _)
    split
    · rename_i empty
      have absent : key id ∉ keyQueues.keys := fun member =>
        (gathers.mem_keys _).mp member empty
      refine List.nodup_append.mpr ⟨gathers.nodup, List.nodup_singleton _, ?_⟩
      rintro value member _ single rfl
      exact absent (List.mem_singleton.mp single ▸ member)
    · exact gathers.nodup
  mem_keys := by
    intro value
    rw [keyQueues.queues_add]
    show value ∈ (if _ then _ else _) ↔ _
    by_cases same : key id = value
    · subst same
      split
      · simp
      · rename_i some
        simp [(gathers.mem_keys _).mpr some]
    · split
      · simp [gathers.mem_keys, Ne.symm same]
      · simp [gathers.mem_keys]
  longestQueue := by
    intro value
    rw [keyQueues.queues_add]
    show _ ≤ if _ then _ else _
    have old := gathers.longestQueue value
    by_cases same : key id = value
    · subst same
      simp only [if_true]
      split <;> omega
    · simp only [same, if_false, List.append_nil]
      split <;> omega

/-- Only the keys of the gathered transfers matter. -/
theorem KeyQueues.Gathers.congr {keyQueues : KeyQueues ι κ} {key key' : ι → κ} {ids : List ι}
    (gathers : keyQueues.Gathers key ids) (same : ∀ id ∈ ids, key' id = key id)
    : keyQueues.Gathers key' ids where
  queues := by
    intro value
    rw [gathers.queues]
    exact List.filter_congr fun id member => by rw [same id member]
  nodup := gathers.nodup
  mem_keys := gathers.mem_keys
  longestQueue := gathers.longestQueue

/-- The queue of a key is served whole. -/
theorem KeyQueues.Gathers.take_queues {keyQueues : KeyQueues ι κ} {key : ι → κ} {ids : List ι}
    (gathers : keyQueues.Gathers key ids) (value : κ)
    : (keyQueues.queues value).take keyQueues.longestQueue = keyQueues.queues value :=
  List.take_of_length_le (gathers.longestQueue value)

/-- When the keys have their turns in any order, each transfer that was gathered has one turn. -/
theorem KeyQueues.Gathers.order_perm {keyQueues : KeyQueues ι κ} {key : ι → κ} {ids : List ι}
    (gathers : keyQueues.Gathers key ids) (nodup : ids.Nodup) {keys : List κ}
    (perm : keys.Perm keyQueues.keys)
    : (RoundRobin.order keys keyQueues.queues keyQueues.longestQueue).Perm ids := by
  classical
  have order := RoundRobin.order_perm keys keyQueues.queues keyQueues.longestQueue
  simp only [gathers.take_queues] at order
  refine order.trans ((List.perm_ext_iff_of_nodup ?_ nodup).mpr ?_)
  · simp only [gathers.queues]
    refine List.nodup_flatMap.mpr ⟨fun value _ => nodup.filter _, ?_⟩
    refine (perm.nodup_iff.mpr gathers.nodup).imp ?_
    intro value1 value2 ne id member memberToo
    have same1 := of_decide_eq_true (List.mem_filter.mp member).2
    have same2 := of_decide_eq_true (List.mem_filter.mp memberToo).2
    exact ne (same1.symm.trans same2)
  · intro id
    rw [List.mem_flatMap]
    constructor
    · rintro ⟨value, _, member⟩
      rw [gathers.queues] at member
      exact List.mem_of_mem_filter member
    · intro member
      have own : id ∈ keyQueues.queues (key id) := by
        rw [gathers.queues]
        exact List.mem_filter.mpr ⟨member, decide_eq_true rfl⟩
      have mine := (gathers.mem_keys (key id)).mpr (List.ne_nil_of_mem own)
      exact ⟨key id, perm.mem_iff.mpr mine, own⟩

end WiredServer.Transfers
