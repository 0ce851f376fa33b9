import Mathlib

/-! Partial functions whose values are given by a list of pairs, with one pair for every key that has a
value.
-/

namespace PartialMap

variable {Q D : Type}

/-- The pairs of the list are the values of the partial function, one for each key. -/
structure Lists (pairs : List (Q × D)) (map : Q → Option D) : Prop where
  nodup : (pairs.map Prod.fst).Nodup
  mem : ∀ key data, map key = some data ↔ (key, data) ∈ pairs

/-- No pair gives no value. -/
theorem lists_nil : Lists ([] : List (Q × D)) fun _ => none where
  nodup := List.nodup_nil
  mem := by simp

section Lists

variable {pairs others : List (Q × D)} {map : Q → Option D}

/-- The order of the pairs does not matter. -/
theorem Lists.perm (lists : Lists pairs map) (same : pairs.Perm others) : Lists others map where
  nodup := (same.map Prod.fst).nodup_iff.mp lists.nodup
  mem key data := (lists.mem key data).trans same.mem_iff

/-- The keys that have a value. -/
theorem Lists.isSome_iff (lists : Lists pairs map) (key : Q)
    : (map key).isSome = true ↔ key ∈ pairs.map Prod.fst := by
  rw [Option.isSome_iff_exists, List.mem_map]
  constructor
  · rintro ⟨data, here⟩
    exact ⟨(key, data), (lists.mem key data).mp here, rfl⟩
  · rintro ⟨⟨other, data⟩, member, rfl⟩
    exact ⟨data, (lists.mem other data).mpr member⟩

/-- A key without a value is in no pair. -/
theorem Lists.not_mem_of_none (lists : Lists pairs map) {key : Q} (absent : map key = none)
    : key ∉ pairs.map Prod.fst := by
  rw [← lists.isSome_iff, absent]
  simp

/-- There are as many keys with a value as pairs. -/
theorem Lists.ncard_eq (lists : Lists pairs map)
    : {key | (map key).isSome = true}.ncard = pairs.length := by
  classical
  have same : {key | (map key).isSome = true} = ↑(pairs.map Prod.fst).toFinset := by
    ext key
    simpa using lists.isSome_iff key
  rw [same, Set.ncard_coe_finset, List.toFinset_card_of_nodup lists.nodup, List.length_map]

variable [DecidableEq Q]

/-- The value of one key, moved to another one if there is one. -/
def moved (map : Q → Option D) (source destination : Q) : Q → Option D :=
  match map source with
  | none => map
  | some data => Function.update (Function.update map source none) destination (some data)

/-- A key without a value has none to move. -/
theorem moved_of_none {source : Q} (absent : map source = none) (destination : Q)
    : moved map source destination = map := by
  rw [moved, absent]

/-- A value is moved. -/
theorem moved_of_some {source : Q} {data : D} (here : map source = some data) (destination : Q)
    : moved map source destination
      = Function.update (Function.update map source none) destination (some data) := by
  rw [moved, here]

/-- A value that is moved to where it is stays. -/
theorem moved_self (map : Q → Option D) (key : Q) : moved map key key = map := by
  cases here : map key with
  | none => exact moved_of_none here key
  | some data => rw [moved_of_some here, Function.update_idem, ← here, Function.update_eq_self]

/-- A pair for a key that had no value gives it one. -/
theorem Lists.cons (lists : Lists pairs map) {key : Q} (absent : map key = none) (data : D)
    : Lists ((key, data) :: pairs) (Function.update map key (some data)) where
  nodup := List.nodup_cons.mpr ⟨lists.not_mem_of_none absent, lists.nodup⟩
  mem other value := by
    rw [List.mem_cons, Prod.mk.injEq]
    by_cases same : other = key
    · subst same
      have nowhere : (other, value) ∉ pairs := fun member =>
        lists.not_mem_of_none absent (List.mem_map.mpr ⟨_, member, rfl⟩)
      simp [nowhere, eq_comm]
    · simp [same, lists.mem]

/-- Without its pair a key has no value. -/
theorem Lists.remove {before after : List (Q × D)} {key : Q} {data : D}
    (lists : Lists (before ++ (key, data) :: after) map)
    : Lists (before ++ after) (Function.update map key none) := by
  have moved := lists.perm List.perm_middle
  obtain ⟨fresh, nodup⟩ := List.nodup_cons.mp moved.nodup
  refine ⟨nodup, fun other value => ?_⟩
  by_cases same : other = key
  · subst same
    have nowhere : (other, value) ∉ before ++ after := fun member =>
      fresh (List.mem_map.mpr ⟨_, member, rfl⟩)
    simp [nowhere]
  · rw [Function.update_of_ne same, moved.mem, List.mem_cons, Prod.mk.injEq]
    simp [same]

/-- A pair can be exchanged for one with another value. -/
theorem Lists.replace {before after : List (Q × D)} {key : Q} {old : D}
    (lists : Lists (before ++ (key, old) :: after) map) (data : D)
    : Lists (before ++ (key, data) :: after) (Function.update map key (some data)) := by
  have absent : Function.update map key none key = none := Function.update_self ..
  have changed := lists.remove.cons absent data
  rw [Function.update_idem] at changed
  exact changed.perm List.perm_middle.symm

/-- Giving keys their values one after the other, by induction on the pairs: those that are left
override what was given before.
-/
theorem Lists.foldl_update (lists : Lists pairs map) (start : Q → Option D)
    : pairs.foldl (fun (current : Q → Option D) pair => Function.update current pair.1 (some pair.2)) start
      = fun key => (map key).or (start key) := by
  induction pairs generalizing map start with
  | nil =>
      funext key
      have absent : map key = none := by
        rw [Option.eq_none_iff_forall_not_mem]
        intro data here
        cases (lists.mem key data).mp here
      rw [List.foldl_nil, absent, Option.none_or]
  | cons pair pairs ih =>
      obtain ⟨key, data⟩ := pair
      have rest : Lists pairs (Function.update map key none) :=
        @Lists.remove _ _ map _ [] pairs key data lists
      rw [List.foldl_cons, ih rest]
      funext other
      by_cases same : other = key
      · subst same
        have here : map other = some data := (lists.mem other data).mpr List.mem_cons_self
        simp [here]
      · simp [Function.update_of_ne same]

end Lists

end PartialMap
