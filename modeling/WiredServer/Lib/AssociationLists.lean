import Mathlib

/-! Finite maps as association lists: changing every value, and maps with the same entries. -/

namespace AssociationLists

variable {κ ν μ : Type} [DecidableEq κ]

omit [DecidableEq κ] in
/-- The map with every value changed. -/
def mapValues (change : ν → μ) (table : AList fun _ : κ => ν) : AList fun _ : κ => μ where
  entries := table.entries.map fun entry => ⟨entry.1, change entry.2⟩
  nodupKeys := by
    rw [List.nodupKeys_iff_pairwise, List.pairwise_map]
    exact List.nodupKeys_iff_pairwise.mp table.nodupKeys

omit [DecidableEq κ] in
/-- Changing the values keeps the keys. -/
@[simp]
theorem keys_mapValues (change : ν → μ) (table : AList fun _ : κ => ν)
    : (mapValues change table).keys = table.keys := by
  simp [AList.keys, List.keys, mapValues, Function.comp_def]

/-- A list with changed values leads to the changed value. -/
theorem dlookup_map (change : ν → μ) (entries : List (Sigma fun _ : κ => ν)) (key : κ)
    : (entries.map fun entry => (⟨entry.1, change entry.2⟩ : Sigma fun _ : κ => μ)).dlookup key
      = (entries.dlookup key).map change := by
  induction entries with
  | nil => rfl
  | cons entry entries ih =>
      obtain ⟨other, value⟩ := entry
      by_cases same : key = other
      · subst same
        rw [List.map_cons, List.dlookup_cons_eq, List.dlookup_cons_eq, Option.map_some]
      · rw [List.map_cons, List.dlookup_cons_ne _ _ same, List.dlookup_cons_ne _ _ same, ih]

/-- A changed map leads to the changed value. -/
@[simp]
theorem lookup_mapValues (change : ν → μ) (table : AList fun _ : κ => ν) (key : κ)
    : (mapValues change table).lookup key = (table.lookup key).map change :=
  dlookup_map change table.entries key

omit [DecidableEq κ] in
/-- Changing the values twice. -/
theorem mapValues_mapValues {ξ : Type} (change : ν → μ) (further : μ → ξ)
    (table : AList fun _ : κ => ν)
    : mapValues further (mapValues change table) = mapValues (further ∘ change) table := by
  refine AList.ext ?_
  simp [mapValues, Function.comp_def]

/-- Changing no value of a map changes nothing. -/
theorem mapValues_eq_self {change : ν → ν} {table : AList fun _ : κ => ν}
    (same : ∀ key value, table.lookup key = some value → change value = value)
    : mapValues change table = table := by
  refine AList.ext (List.map_congr_left (fun entry mem => ?_) |>.trans (List.map_id _))
  rw [same entry.1 entry.2 (AList.mem_lookup_iff.mpr mem)]
  rfl

/-- Maps in which every key has the same value have as many entries. -/
theorem length_eq_of_lookup {first second : AList fun _ : κ => ν}
    (same : ∀ key, first.lookup key = second.lookup key)
    : first.entries.length = second.entries.length := by
  have permuted := List.lookup_ext first.nodupKeys second.nodupKeys fun key value => by
    have here : List.dlookup key first.entries = List.dlookup key second.entries := same key
    rw [here]
  exact permuted.length_eq

/-- A map all of whose entries are in one with as many entries is the same map. -/
theorem lookup_eq_of_subset {first second : AList fun _ : κ => ν}
    (length : first.entries.length = second.entries.length)
    (subset : ∀ key value, first.lookup key = some value → second.lookup key = some value)
    (key : κ)
    : first.lookup key = second.lookup key := by
  have keysSubset : first.keys ⊆ second.keys := by
    intro other mem
    obtain ⟨value, found⟩ := Option.isSome_iff_exists.mp (AList.lookup_isSome.mpr mem)
    exact AList.lookup_isSome.mp (Option.isSome_of_eq_some (subset other value found))
  have keysLength : second.keys.length ≤ first.keys.length := by
    simp [AList.keys, List.keys, length]
  have permuted := (first.keys_nodup.subperm keysSubset).perm_of_length_le keysLength
  cases found : first.lookup key with
  | some value => exact (subset key value found).symm
  | none =>
      have absent : key ∉ second.keys := fun mem =>
        AList.lookup_eq_none.mp found (permuted.mem_iff.mpr mem)
      exact (AList.lookup_eq_none.mpr absent).symm

end AssociationLists
