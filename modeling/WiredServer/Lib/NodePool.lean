import Mathlib
import WiredServer.Lib.Slots

/-! Pools of nodes. Nodes are cut from chunks, are numbered in the order in which they are cut, and go
through a free list when they are released. A structure owns the nodes that it uses: they are
distinct, and none of them is free.
-/

/-- The nodes that have been cut, by number, and the ones that are free. -/
structure Pool (ν : Type) where
  cells : List ν
  free : List ℕ

namespace Pool

variable {ν : Type}

/-- A pool before the first node is cut. -/
def empty : Pool ν where
  cells := []
  free := []

/-- What a node holds. -/
def read (pool : Pool ν) (node : ℕ) : Option ν :=
  pool.cells[node]?

/-- Changes what a node holds. -/
def write (pool : Pool ν) (node : ℕ) (value : ν) : Option (Pool ν) :=
  (Slots.store pool.cells node value).map fun cells => { pool with cells }

/-- Takes a node: the last one that was freed, or a new one. -/
def create (pool : Pool ν) (blank : ν) : ℕ × Pool ν :=
  match pool.free with
  | node :: free => (node, { pool with free })
  | [] => (pool.cells.length, { pool with cells := pool.cells ++ [blank] })

/-- Frees a node. -/
def release (pool : Pool ν) (node : ℕ) : Pool ν :=
  { pool with free := node :: pool.free }

/-- These nodes are in use: they have been cut, are distinct, and are not free. -/
structure Owns (pool : Pool ν) (nodes : List ℕ) : Prop where
  distinct : (nodes ++ pool.free).Nodup
  inside : ∀ node ∈ nodes ++ pool.free, node < pool.cells.length

variable {pool : Pool ν} {nodes : List ℕ}

/-- Nothing is in use in a new pool. -/
theorem owns_empty : (empty : Pool ν).Owns [] where
  distinct := List.nodup_nil
  inside := nofun

/-- The order of the nodes does not matter. -/
theorem Owns.perm (owns : pool.Owns nodes) {others : List ℕ} (same : nodes.Perm others)
    : pool.Owns others where
  distinct := (same.append_right pool.free).nodup_iff.mp owns.distinct
  inside node member := owns.inside node ((same.append_right pool.free).mem_iff.mpr member)

/-- The nodes in use are distinct. -/
theorem Owns.nodup (owns : pool.Owns nodes) : nodes.Nodup :=
  owns.distinct.of_append_left

/-- No more nodes are in use than have been cut. -/
theorem Owns.length_le (owns : pool.Owns nodes) : nodes.length ≤ pool.cells.length := by
  have inside : nodes.toFinset ⊆ Finset.range pool.cells.length := by
    intro node member
    rw [List.mem_toFinset] at member
    exact Finset.mem_range.mpr (owns.inside node (List.mem_append_left _ member))
  have few := Finset.card_le_card inside
  rwa [List.toFinset_card_of_nodup owns.nodup, Finset.card_range] at few

/-- A node that is taken was not in use, and taking it changes no node. -/
theorem Owns.create (owns : pool.Owns nodes) (blank : ν)
    : (pool.create blank).2.Owns ((pool.create blank).1 :: nodes)
      ∧ ∀ node ∈ nodes, (pool.create blank).2.read node = pool.read node := by
  unfold Pool.create
  cases freed : pool.free with
  | nil =>
      have distinct := owns.distinct
      have inside := owns.inside
      rw [freed, List.append_nil] at distinct inside
      refine ⟨⟨?_, ?_⟩, fun node member => ?_⟩
      · simp only [List.append_nil, List.nodup_cons]
        exact ⟨fun member => absurd (inside _ member) (lt_irrefl _), distinct⟩
      · intro node member
        simp only [List.append_nil, List.mem_cons] at member
        simp only [List.length_append, List.length_singleton]
        rcases member with rfl | member
        · omega
        · exact Nat.lt_succ_of_lt (inside node member)
      · exact List.getElem?_append_left (inside node member)
  | cons first free =>
      have same : (nodes ++ first :: free).Perm (first :: nodes ++ free) := List.perm_middle
      refine ⟨⟨?_, ?_⟩, fun node member => rfl⟩
      · exact same.nodup_iff.mp (freed ▸ owns.distinct)
      · intro node member
        exact owns.inside node (freed ▸ same.mem_iff.mpr member)

/-- A node that is freed is no longer in use. -/
theorem Owns.release {node : ℕ} (owns : pool.Owns (node :: nodes))
    : (pool.release node).Owns nodes where
  distinct := (@List.perm_middle _ node nodes pool.free).symm.nodup_iff.mp
    owns.distinct
  inside other member := owns.inside other (List.perm_middle.mem_iff.mp member)

@[simp] theorem read_release (node other : ℕ) : (pool.release node).read other = pool.read other :=
  rfl

/-- A node in use can be written, and no other node changes. -/
theorem Owns.write (owns : pool.Owns nodes) {node : ℕ} (member : node ∈ nodes) (value : ν)
    : ∃ next, pool.write node value = some next ∧ next.Owns nodes ∧ next.free = pool.free
      ∧ next.read node = some value
      ∧ ∀ other, other ≠ node → next.read other = pool.read other := by
  have inside := owns.inside node (List.mem_append_left _ member)
  refine ⟨{ pool with cells := pool.cells.set node value }, ?_, ⟨owns.distinct, ?_⟩, rfl, ?_, ?_⟩
  · simp [Pool.write, Slots.store, inside]
  · intro other used
    simpa using owns.inside other used
  · simp [read, inside]
  · intro other different
    exact List.getElem?_set_ne (Ne.symm different)

/-- Writing what a node holds changes nothing. -/
theorem write_read {node : ℕ} {value : ν} (read : pool.read node = some value)
    : pool.write node value = some pool := by
  obtain ⟨within, same⟩ := List.getElem?_eq_some_iff.mp read
  have unchanged : pool.cells.set node value = pool.cells := by
    rw [← same]
    exact List.set_getElem_self within
  simp only [Pool.write, Slots.store, within, if_true, Option.map_some, unchanged]

end Pool
