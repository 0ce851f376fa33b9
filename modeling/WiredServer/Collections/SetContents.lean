import Mathlib
import WiredServer.Collections.Sets
import WiredServer.Collections.DictionaryRefinement

/-! What each operation of a set does to the counts of its buckets, as a map from data to counts.
-/

namespace WiredServer.Collections

open Loop Link PartialMap

variable {κ : Type} {keys : Setoid (Option κ)} {callbacks : DictionaryCallbacks κ}

-----------------------------------------------------------------------------------------
-- Buckets
-----------------------------------------------------------------------------------------

namespace WiDictionary

section Buckets

variable {α : Type} {dictionary : WiDictionary κ α} {chains : Chains κ α} {key : Option κ}
variable {fronts backs : List (Option ℕ)} {head : Option ℕ} {front back : Chains κ α}
variable {before after : List (ℕ × Entry κ α)} {node : ℕ} {entry : Entry κ α}

/-- A bucket that is found for a key is found for the key that it has. -/
theorem Found.ofEqual
    (found : Found callbacks dictionary chains key fronts backs head front back before after node
      entry)
    (lawful : callbacks.Lawful keys)
    : Found callbacks dictionary chains entry.key fronts backs head front back before after node
      entry := by
  have same := (lawful.isEqual_iff _ _).mp found.equal
  refine ⟨?_, (lawful.isEqual_iff _ _).mpr (keys.refl _), fun link member => ?_⟩
  · rw [indexOf, lawful.hash_eq _ _ same]
    exact found.place
  · rw [Bool.eq_false_iff]
    intro equal
    have other := keys.trans ((lawful.isEqual_iff _ _).mp equal) same
    have found' := (lawful.isEqual_iff _ _).mpr other
    rw [found.missing link member] at found'
    cases found'

/-- A bucket that is found can be given other data. -/
theorem Holds.rewrite (holds : dictionary.Holds callbacks chains)
    (found : Found callbacks dictionary chains key fronts backs head front back before after node
      entry)
    (lawful : callbacks.Lawful keys) (settled : dictionary.Settled) (data : Option α)
    : ∃ next pool table, dictionary.pool.read node = some ⟨entry, next⟩
      ∧ dictionary.pool.write node ⟨⟨entry.key, data⟩, next⟩ = some pool
      ∧ { dictionary with pool }.checkResize callbacks = .ok table
      ∧ table.Contains callbacks
        (⟨entry.key, data⟩ :: ((front.flatten ++ before) ++ (after ++ back.flatten)).map Prod.snd) := by
  obtain ⟨next, pool, read, written, own⟩ := holds.replace (found.ofEqual lawful) data
  obtain ⟨table, checked, chains', own', settled', same'⟩ :=
    own.checked (settled.settling rfl rfl (Nat.le_succ _))
  refine ⟨next, pool, table, read, written, checked, chains', own', settled', same'.trans ?_⟩
  have flat : (front ++ (before ++ (node, (⟨entry.key, data⟩ : Entry κ α)) :: after) :: back).flatten
      = (front.flatten ++ before) ++ (node, ⟨entry.key, data⟩) :: (after ++ back.flatten) := by simp
  rw [flat]
  exact List.perm_middle.map Prod.snd

/-- A bucket that is found apart from the others. -/
theorem Found.perm
    (found : Found callbacks dictionary chains key fronts backs head front back before after node
      entry)
    {entries : List (Entry κ α)} (same : (chains.flatten.map Prod.snd).Perm entries)
    : entries.Perm
      (entry :: ((front.flatten ++ before) ++ (after ++ back.flatten)).map Prod.snd) := by
  refine same.symm.trans ?_
  rw [found.flatten_eq]
  exact List.perm_middle.map Prod.snd

end Buckets

end WiDictionary

namespace WiSet

-----------------------------------------------------------------------------------------
-- Entries
-----------------------------------------------------------------------------------------

section Entries

variable {set : WiSet κ} {entries : List (SetEntry κ)}

/-- Adding data counts up the entry of equal data, or adds one with the count 1. -/
theorem contains_addData (contains : set.table.Contains callbacks entries)
    (lawful : callbacks.Lawful keys) (data : Option κ)
    : ∃ table, set.addData callbacks data = .ok { set with table }
      ∧ ((∃ entry rest, entries.Perm (entry :: rest) ∧ keys.r entry.key data
          ∧ table.Contains callbacks (⟨entry.key, some (entry.count + 1)⟩ :: rest))
        ∨ (∀ entry ∈ entries, ¬keys.r entry.key data)
          ∧ table.Contains callbacks (⟨data, some 1⟩ :: entries)) := by
  obtain ⟨chains, holds, settled, same⟩ := contains
  rcases holds.search lawful data with
    ⟨fronts, backs, head, front, back, before, after, node, entry, found, ran⟩ | ⟨missing, ran⟩
  · obtain ⟨next, pool, table, read, written, checked, contains'⟩ :=
      holds.rewrite found lawful settled (some (entry.count + 1))
    refine ⟨table, ?_, .inl ⟨entry, _, found.perm same, (lawful.isEqual_iff _ _).mp found.equal,
      contains'⟩⟩
    simp only [WiSet.addData, addToTable, WiDictionary.bucketForKey, ran, bind, Except.bind,
      Option.map_some, read, written, inside_some, checked]
  · obtain ⟨fronts, backs, head, front, back, chain, place⟩ := holds.exists_at data
    obtain ⟨pool, written, own⟩ := holds.push place (some 1) ⟨⟨none, none⟩, none⟩
    obtain ⟨table, checked, chains', own', settled', same'⟩ :=
      own.checked (settled.settling rfl rfl le_rfl)
    refine ⟨table, ?_, .inr ⟨fun entry member equal => ?_, chains', own', settled', same'.trans ?_⟩⟩
    · simp only [WiSet.addData, addToTable, WiDictionary.bucketForKey, ran, bind, Except.bind,
        Option.map_none, place.head_eq, place.store_eq, written, inside_some, checked]
    · obtain ⟨link, inChains, rfl⟩ := List.mem_map.mp (same.mem_iff.mpr member)
      exact missing link inChains equal
    · refine List.Perm.trans ?_ (same.cons _)
      rw [place.flatten_eq]
      simp only [List.flatten_append, List.flatten_cons, List.map_append, List.map_cons,
        List.cons_append]
      exact List.perm_middle

/-- Removing data counts down the entry of equal data, or takes it out. -/
theorem contains_mutableRemoveData (contains : set.table.Contains callbacks entries)
    (lawful : callbacks.Lawful keys) {data : Option κ}
    (allowed : (callbacks.keyReleases && data.isNone) = false)
    : ∃ table, set.mutableRemoveData callbacks data = .ok (some { set with table })
      ∧ ((∃ entry rest, entries.Perm (entry :: rest) ∧ keys.r entry.key data
          ∧ table.Contains callbacks
            (if set.counted ∧ entry.count - 1 ≠ 0 then
              ⟨entry.key, some (entry.count - 1)⟩ :: rest
            else rest))
        ∨ (∀ entry ∈ entries, ¬keys.r entry.key data) ∧ table.Contains callbacks entries) := by
  obtain ⟨chains, holds, settled, same⟩ := contains
  simp only [mutableRemoveData, allowed, Bool.false_eq_true, if_false]
  rcases holds.search lawful data with
    ⟨fronts, backs, head, front, back, before, after, node, entry, found, ran⟩ | ⟨missing, ran⟩
  · have equal := (lawful.isEqual_iff _ _).mp found.equal
    obtain ⟨next, pool, table, read, written, checked, contains'⟩ :=
      holds.rewrite found lawful settled (some (entry.count - 1))
    by_cases left : set.counted ∧ entry.count - 1 ≠ 0
    · refine ⟨table, ?_, .inl ⟨entry, _, found.perm same, equal, ?_⟩⟩
      · simp only [ran, bind, Except.bind, removeFromTable, read, inside_some, if_pos left, written,
          checked]
      · rw [if_pos left]
        exact contains'
    · obtain ⟨taken, unlinked, own, bucketsCount, minCount⟩ := holds.unlink found
      have flat : (front ++ (before ++ after) :: back).flatten
          = (front.flatten ++ before) ++ (after ++ back.flatten) := by simp
      have fewer : taken.keyCount ≤ set.table.keyCount + 1 := by
        rw [own.counted, holds.counted, flat, found.flatten_eq]
        simp only [List.length_append, List.length_cons]
        omega
      obtain ⟨last, checked, contains'⟩ :=
        own.checked (settled.settling bucketsCount minCount fewer)
      refine ⟨last, ?_, .inl ⟨entry, _, found.perm same, equal, ?_⟩⟩
      · simp only [ran, bind, Except.bind, removeFromTable, read, inside_some, if_neg left, unlinked,
          checked]
      · rw [if_neg left, ← flat]
        exact contains'
  · obtain ⟨last, checked, chains', own', settled', same'⟩ :=
      holds.checked (settled.settling rfl rfl (Nat.le_succ _))
    refine ⟨last, ?_, .inr ⟨fun entry member equal => ?_, chains', own', settled',
      same'.trans same⟩⟩
    · simp only [ran, bind, Except.bind, checked]
    · obtain ⟨link, inChains, rfl⟩ := List.mem_map.mp (same.mem_iff.mpr member)
      exact missing link inChains equal

end Entries

-----------------------------------------------------------------------------------------
-- Counts of data
-----------------------------------------------------------------------------------------

/-- The counts of data, up to equality. -/
abbrev CountMap (keys : Setoid (Option κ)) := KeyMap keys ℕ

/-- The count of data, which is 0 if there is no bucket. -/
def countOf (map : CountMap keys) (data : Quotient keys) : ℕ :=
  (map data).join.getD 0

section Counts

variable {set : WiSet κ} {entries : List (SetEntry κ)} {map : CountMap keys}

/-- A set knows the counts of the map. -/
theorem countForData_eq (describes : set.table.Describes callbacks entries map)
    (lawful : callbacks.Lawful keys) (data : Option κ)
    : set.countForData callbacks data = .ok (countOf map ⟦data⟧) := by
  obtain ⟨⟨chains, holds, -, same⟩, listed⟩ := describes
  have lists : Lists (WiDictionary.pairs keys (chains.flatten.map Prod.snd)) map :=
    listed.perm (same.map _).symm
  rcases holds.bucketForKey lawful lists data with ⟨bucket, link, ran, read, here⟩ | ⟨ran, absent⟩
  · simp only [countForData, ran, bind, Except.bind, read, inside_some, countOf, here,
      Option.join_some]
    rfl
  · simp only [countForData, ran, bind, Except.bind, countOf, absent, Option.join_none,
      Option.getD_none]

/-- A set contains data that the map has a count for. -/
theorem containsData_eq (describes : set.table.Describes callbacks entries map)
    (lawful : callbacks.Lawful keys) (data : Option κ)
    : set.containsData callbacks data = .ok (map ⟦data⟧).isSome :=
  describes.containsKey lawful data

variable [DecidableEq (Quotient keys)]

/-- Adding data counts it up. -/
theorem describes_addData (describes : set.table.Describes callbacks entries map)
    (lawful : callbacks.Lawful keys) (data : Option κ)
    : ∃ table entries', set.addData callbacks data = .ok { set with table }
      ∧ table.Describes callbacks entries'
        (Function.update map ⟦data⟧ (some (some (countOf map ⟦data⟧ + 1)))) := by
  obtain ⟨table, ran, ⟨entry, rest, order, equal, contains⟩ | ⟨missing, contains⟩⟩ :=
    contains_addData describes.contains lawful data
  · have same : (⟦entry.key⟧ : Quotient keys) = ⟦data⟧ := Quotient.sound equal
    have here := WiDictionary.some_of_equal describes.lists (order.mem_iff.mpr List.mem_cons_self)
      equal
    have counted : countOf map ⟦data⟧ = entry.count := by rw [countOf, here]; rfl
    have changed := @Lists.replace _ _ map _ [] _ _ _ (describes.lists.perm (order.map _))
      (some (entry.count + 1))
    refine ⟨table, _, ran, contains, ?_⟩
    rw [counted, ← same]
    exact changed
  · have absent := WiDictionary.none_of_missing describes.lists missing
    have counted : countOf map ⟦data⟧ = 0 := by rw [countOf, absent]; rfl
    refine ⟨table, _, ran, contains, ?_⟩
    rw [counted]
    exact describes.lists.cons absent (some 1)

/-- Removing data counts it down or takes its count away. -/
theorem describes_mutableRemoveData (describes : set.table.Describes callbacks entries map)
    (lawful : callbacks.Lawful keys) {data : Option κ}
    (allowed : (callbacks.keyReleases && data.isNone) = false)
    : ∃ table entries', set.mutableRemoveData callbacks data = .ok (some { set with table })
      ∧ table.Describes callbacks entries' (Function.update map ⟦data⟧
        (if set.counted ∧ countOf map ⟦data⟧ - 1 ≠ 0 then some (some (countOf map ⟦data⟧ - 1))
        else none)) := by
  obtain ⟨table, ran, ⟨entry, rest, order, equal, contains⟩ | ⟨missing, contains⟩⟩ :=
    contains_mutableRemoveData describes.contains lawful allowed
  · have same : (⟦entry.key⟧ : Quotient keys) = ⟦data⟧ := Quotient.sound equal
    have here := WiDictionary.some_of_equal describes.lists (order.mem_iff.mpr List.mem_cons_self)
      equal
    have counted : countOf map ⟦data⟧ = entry.count := by rw [countOf, here]; rfl
    have lists := describes.lists.perm (order.map _)
    refine ⟨table, _, ran, contains, ?_⟩
    rw [counted, ← same]
    split
    · exact @Lists.replace _ _ map _ [] _ _ _ lists (some (entry.count - 1))
    · exact @Lists.remove _ _ map _ [] _ _ _ lists
  · have absent := WiDictionary.none_of_missing describes.lists missing
    have counted : countOf map ⟦data⟧ = 0 := by rw [countOf, absent]; rfl
    have nothing : ¬(set.counted ∧ countOf map ⟦data⟧ - 1 ≠ 0) := by simp [counted]
    have unchanged : Function.update map ⟦data⟧ none = map := by
      rw [← absent, Function.update_eq_self]
    refine ⟨table, entries, ran, contains, ?_⟩
    rw [if_neg nothing, unchanged]
    exact describes.lists

end Counts

end WiSet

end WiredServer.Collections
