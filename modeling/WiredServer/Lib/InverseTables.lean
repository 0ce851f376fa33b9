import Mathlib

/-! Pairs of finite maps that are inverse to each other, and what filling them pair by pair does when
only one of the two sides is checked for duplicates.
-/

namespace InverseTables

variable {α β : Type} [DecidableEq α] [DecidableEq β]

/-- Each of two maps leads back where the other one comes from. -/
def AreInverse (forward : AList fun _ : α => β) (backward : AList fun _ : β => α) : Prop :=
  ∀ key value, forward.lookup key = some value ↔ backward.lookup value = some key

/-- Entering pairs into a map, one after the other. -/
def insertAll (pairs : List (α × β)) (table : AList fun _ : α => β) : AList fun _ : α => β :=
  pairs.foldl (fun table pair => table.insert pair.1 pair.2) table

/-- Empty maps are inverse. -/
theorem areInverse_empty : AreInverse (∅ : AList fun _ : α => β) ∅ :=
  fun key value => iff_of_false (by simp) (by simp)

/-- Maps stay inverse when a pair with a new key and a new value enters both. -/
theorem AreInverse.insert {forward : AList fun _ : α => β} {backward : AList fun _ : β => α}
    (inverse : AreInverse forward backward) {key : α} {value : β}
    (newKey : forward.lookup key = none) (newValue : backward.lookup value = none)
    : AreInverse (forward.insert key value) (backward.insert value key) := by
  intro other found
  by_cases sameKey : other = key
  · subst sameKey
    rw [AList.lookup_insert]
    by_cases sameValue : found = value
    · subst sameValue
      exact iff_of_true rfl (AList.lookup_insert _)
    · rw [AList.lookup_insert_ne sameValue, ← inverse, newKey]
      exact iff_of_false (fun same => sameValue (Option.some.inj same).symm) nofun
  · rw [AList.lookup_insert_ne sameKey]
    by_cases sameValue : found = value
    · subst sameValue
      rw [AList.lookup_insert, inverse, newValue]
      exact iff_of_false nofun fun same => sameKey (Option.some.inj same).symm
    · rw [AList.lookup_insert_ne sameValue]
      exact inverse other found

omit [DecidableEq β] in
/-- A key that is not entered keeps its value. -/
theorem lookup_insertAll_of_notMem {pairs : List (α × β)} {key : α}
    (absent : key ∉ pairs.map Prod.fst) (table : AList fun _ : α => β)
    : (insertAll pairs table).lookup key = table.lookup key := by
  induction pairs generalizing table with
  | nil => rfl
  | cons pair pairs ih =>
      simp only [List.map_cons, List.mem_cons, not_or] at absent
      exact (ih absent.2 _).trans (AList.lookup_insert_ne absent.1)

omit [DecidableEq β] in
/-- A key that is entered once has its value. -/
theorem lookup_insertAll_of_mem {pairs : List (α × β)} (once : (pairs.map Prod.fst).Nodup)
    {pair : α × β} (mem : pair ∈ pairs) (table : AList fun _ : α => β)
    : (insertAll pairs table).lookup pair.1 = some pair.2 := by
  induction pairs generalizing table with
  | nil => cases mem
  | cons first pairs ih =>
      obtain ⟨absent, once⟩ := List.nodup_cons.mp once
      rcases List.mem_cons.mp mem with rfl | mem
      · exact (lookup_insertAll_of_notMem absent _).trans (AList.lookup_insert _)
      · exact ih once mem _

/-- Inverse maps stay inverse when pairs with distinct new keys and distinct new values are entered. -/
theorem AreInverse.insertAll {forward : AList fun _ : α => β} {backward : AList fun _ : β => α}
    (inverse : AreInverse forward backward) {pairs : List (α × β)}
    (keys : (pairs.map Prod.fst).Nodup) (values : (pairs.map Prod.snd).Nodup)
    (newKeys : ∀ pair ∈ pairs, forward.lookup pair.1 = none)
    (newValues : ∀ pair ∈ pairs, backward.lookup pair.2 = none)
    : AreInverse (InverseTables.insertAll pairs forward)
        (InverseTables.insertAll (pairs.map Prod.swap) backward) := by
  induction pairs generalizing forward backward with
  | nil => exact inverse
  | cons pair pairs ih =>
      obtain ⟨keyOnce, keys⟩ := List.nodup_cons.mp keys
      obtain ⟨valueOnce, values⟩ := List.nodup_cons.mp values
      have entered := inverse.insert (newKeys pair List.mem_cons_self) (newValues pair List.mem_cons_self)
      refine ih entered keys values ?_ ?_
      · intro other mem
        have differs : other.1 ≠ pair.1 := fun same =>
          keyOnce (same ▸ List.mem_map_of_mem mem)
        exact (AList.lookup_insert_ne differs).trans (newKeys other (List.mem_cons_of_mem _ mem))
      · intro other mem
        have differs : other.2 ≠ pair.2 := fun same =>
          valueOnce (same ▸ List.mem_map_of_mem mem)
        exact (AList.lookup_insert_ne differs).trans (newValues other (List.mem_cons_of_mem _ mem))

/-- If the maps are inverse after pairs with distinct values were entered, the keys were distinct, too:
otherwise two values would lead to one key.
-/
theorem nodup_of_areInverse {forward : AList fun _ : α => β} {backward : AList fun _ : β => α}
    {pairs : List (α × β)} (values : (pairs.map Prod.snd).Nodup)
    (inverse : AreInverse (insertAll pairs forward) (insertAll (pairs.map Prod.swap) backward))
    : (pairs.map Prod.fst).Nodup := by
  have swapped : ((pairs.map Prod.swap).map Prod.fst).Nodup := by
    rw [List.map_map]
    exact values
  have back : ∀ pair ∈ pairs, (insertAll (pairs.map Prod.swap) backward).lookup pair.2 = some pair.1 :=
    fun pair mem => lookup_insertAll_of_mem swapped (List.mem_map_of_mem mem) backward
  rw [List.nodup_map_iff_inj_on values.of_map]
  intro pair mem other mem' same
  have forth := (inverse _ _).mpr (back pair mem)
  have forth' := (inverse _ _).mpr (back other mem')
  rw [same, forth'] at forth
  exact Prod.ext same (Option.some.inj forth).symm

end InverseTables
