import Mathlib

/-! Round robin over queues that are named by keys. In a round each key has its turn, and its turn
serves the head of its queue. Any number of rounds serves the elements in one order, which the
queues and the order of the keys determine.
-/

namespace RoundRobin

variable {κ α σ : Type}

/-- The elements that one round serves: the heads of the queues, in the order of the keys. -/
def heads (keys : List κ) (queues : κ → List α) : List α :=
  keys.filterMap fun key => (queues key).head?

/-- The elements in the order in which a number of rounds serves them. -/
def order (keys : List κ) (queues : κ → List α) : ℕ → List α
  | 0 => []
  | rounds + 1 => heads keys queues ++ order keys (fun key => (queues key).tail) rounds

/-- The turn of a key: the head of its queue is served and taken from it, if there is one. -/
def turn [DecidableEq κ] (serve : σ → α → σ) (progress : (κ → List α) × σ) (key : κ)
    : (κ → List α) × σ :=
  match progress.1 key with
  | [] => progress
  | head :: rest => (Function.update progress.1 key rest, serve progress.2 head)

/-- A number of rounds, in each of which every key has its turn. -/
def run [DecidableEq κ] (serve : σ → α → σ) (keys : List κ)
    : ℕ → (κ → List α) × σ → (κ → List α) × σ
  | 0, progress => progress
  | rounds + 1, progress => run serve keys rounds (keys.foldl (turn serve) progress)

section Order

/-- Only the queues of the given keys matter for a round. -/
theorem heads_congr {keys : List κ} {queues queues' : κ → List α}
    (same : ∀ key ∈ keys, queues key = queues' key)
    : heads keys queues = heads keys queues' :=
  List.filterMap_congr fun key member => by rw [same key member]

/-- Only the queues of the given keys matter for the order. -/
theorem order_congr {keys : List κ} {queues queues' : κ → List α} (rounds : ℕ)
    (same : ∀ key ∈ keys, queues key = queues' key)
    : order keys queues rounds = order keys queues' rounds := by
  induction rounds generalizing queues queues' with
  | zero => rfl
  | succ rounds ih =>
      rw [order, order, heads_congr same, ih]
      intro key member
      rw [same key member]

/-- The first element of the queue of a key is among the heads. -/
theorem head_sublist_heads {keys : List κ} (queues : κ → List α) {key : κ} (member : key ∈ keys)
    : (queues key).head?.toList.Sublist (heads keys queues) := by
  cases found : (queues key).head? with
  | none => exact List.nil_sublist _
  | some head =>
      exact List.singleton_sublist.mpr (List.mem_filterMap.mpr ⟨key, member, found⟩)

/-- The elements of one queue are served in the order of the queue. -/
theorem sublist_order {keys : List κ} (queues : κ → List α) {key : κ} (rounds : ℕ)
    (member : key ∈ keys)
    : ((queues key).take rounds).Sublist (order keys queues rounds) := by
  induction rounds generalizing queues with
  | zero => exact List.nil_sublist _
  | succ rounds ih =>
      have first := head_sublist_heads queues member
      have rest := ih fun key => (queues key).tail
      have split : (queues key).take (rounds + 1)
          = (queues key).head?.toList ++ (queues key).tail.take rounds := by
        cases queues key <;> simp
      rw [split, order]
      exact first.append rest

/-- What the rounds serve are the first elements of the queues, each as often as it stands
there.
-/
theorem order_perm (keys : List κ) (queues : κ → List α) (rounds : ℕ)
    : (order keys queues rounds).Perm (keys.flatMap fun key => (queues key).take rounds) := by
  induction rounds generalizing queues with
  | zero => simp [order]
  | succ rounds ih =>
      have split : (keys.flatMap fun key => (queues key).take (rounds + 1)).Perm
          (heads keys queues ++ keys.flatMap fun key => (queues key).tail.take rounds) := by
        clear ih
        induction keys with
        | nil => simp [heads]
        | cons key keys ih =>
            cases queue : queues key with
            | nil =>
                rw [heads] at ih ⊢
                simpa [queue] using ih
            | cons head rest =>
                rw [heads] at ih ⊢
                simp only [List.flatMap_cons, queue, List.take_succ_cons, List.filterMap_cons,
                  List.head?_cons, List.tail_cons, List.cons_append]
                refine List.Perm.cons head ?_
                exact (ih.append_left _).trans (List.perm_append_comm_assoc ..)
      rw [order]
      exact ((ih _).append_left _).trans split.symm

/-- When every queue is empty, nothing is served. -/
theorem order_eq_nil {keys : List κ} {queues : κ → List α} (rounds : ℕ)
    (empty : ∀ key ∈ keys, queues key = [])
    : order keys queues rounds = [] := by
  have none : keys.flatMap (fun key => (queues key).take rounds) = [] :=
    List.flatMap_eq_nil_iff.mpr fun key member => by rw [empty key member, List.take_nil]
  exact List.Perm.eq_nil (none ▸ order_perm keys queues rounds)

/-- Rounds that find every queue empty serve nothing more. -/
theorem order_of_le (keys : List κ) (queues : κ → List α) {rounds more : ℕ} (le : rounds ≤ more)
    (short : ∀ key ∈ keys, (queues key).length ≤ rounds)
    : order keys queues more = order keys queues rounds := by
  induction rounds generalizing queues more with
  | zero =>
      rw [order_eq_nil more fun key member =>
        List.length_eq_zero_iff.mp (Nat.le_zero.mp (short key member))]
      rfl
  | succ rounds ih =>
      obtain ⟨more, rfl⟩ := Nat.exists_eq_succ_of_ne_zero (Nat.ne_of_gt (Nat.lt_of_lt_of_le
        (Nat.succ_pos rounds) le))
      rw [order, order, ih _ (Nat.le_of_succ_le_succ le)]
      intro key member
      rw [List.length_tail]
      exact Nat.sub_le_of_le_add (short key member)

end Order

section Run

variable [DecidableEq κ] {serve : σ → α → σ}

/-- A turn of a key changes no other queue. -/
theorem turn_queues_of_ne {progress : (κ → List α) × σ} {key other : κ} (ne : other ≠ key)
    : (turn serve progress key).1 other = progress.1 other := by
  rw [turn]
  split
  · rfl
  · exact Function.update_of_ne ne _ _

/-- A turn takes the head from the queue of its key. -/
theorem turn_queues_self {progress : (κ → List α) × σ} {key : κ}
    : (turn serve progress key).1 key = (progress.1 key).tail := by
  rw [turn]
  cases queue : progress.1 key <;> simp [queue]

/-- A turn serves the head of the queue of its key. -/
theorem turn_state {progress : (κ → List α) × σ} {key : κ}
    : (turn serve progress key).2 = (progress.1 key).head?.toList.foldl serve progress.2 := by
  rw [turn]
  cases progress.1 key <;> rfl

/-- A round takes the head from each queue. -/
theorem round_queues {keys : List κ} (nodup : keys.Nodup) {progress : (κ → List α) × σ} {key : κ}
    (member : key ∈ keys)
    : (keys.foldl (turn serve) progress).1 key = (progress.1 key).tail := by
  have others : ∀ (keys : List κ) (progress : (κ → List α) × σ), key ∉ keys
      → (keys.foldl (turn serve) progress).1 key = progress.1 key := by
    intro keys
    induction keys with
    | nil => exact fun _ _ => rfl
    | cons first keys ih =>
        intro progress absent
        obtain ⟨ne, absent⟩ := not_or.mp (List.mem_cons.not.mp absent)
        rw [List.foldl_cons, ih _ absent, turn_queues_of_ne ne]
  induction keys generalizing progress with
  | nil => exact absurd member List.not_mem_nil
  | cons first keys ih =>
      obtain ⟨absent, nodup⟩ := List.nodup_cons.mp nodup
      rw [List.foldl_cons]
      rcases List.mem_cons.mp member with rfl | member
      · rw [others keys _ absent, turn_queues_self]
      · have ne : key ≠ first := fun same => absent (same ▸ member)
        rw [ih nodup member, turn_queues_of_ne ne]

/-- A round serves the heads of the queues. -/
theorem round_state {keys : List κ} (nodup : keys.Nodup) {progress : (κ → List α) × σ}
    : (keys.foldl (turn serve) progress).2 = (heads keys progress.1).foldl serve progress.2 := by
  induction keys generalizing progress with
  | nil => rfl
  | cons key keys ih =>
      obtain ⟨absent, nodup⟩ := List.nodup_cons.mp nodup
      have same : heads keys (turn serve progress key).1 = heads keys progress.1 :=
        heads_congr fun other member =>
          turn_queues_of_ne fun equal => absent (equal ▸ member)
      rw [List.foldl_cons, ih nodup, same, turn_state, ← List.foldl_append]
      congr 1
      rw [heads, heads, List.filterMap_cons]
      cases (progress.1 key).head? <;> rfl

/-- A number of rounds serves the elements in their order. -/
theorem run_state {keys : List κ} (nodup : keys.Nodup) (rounds : ℕ)
    {progress : (κ → List α) × σ}
    : (run serve keys rounds progress).2
      = (order keys progress.1 rounds).foldl serve progress.2 := by
  induction rounds generalizing progress with
  | zero => rfl
  | succ rounds ih =>
      have same : order keys (keys.foldl (turn serve) progress).1 rounds
          = order keys (fun key => (progress.1 key).tail) rounds :=
        order_congr rounds fun key member => round_queues nodup member
      rw [run, ih, same, round_state nodup, order, List.foldl_append]

end Run

end RoundRobin
