import Mathlib
import WiredServer.Collections.DictionaryLoops
import WiredServer.Lib.Machine
import WiredServer.Lib.PartialMaps

/-! Dictionaries refine partial maps from keys to data, where keys that are equal are one key. Lookups
and the number of keys are right in every run; the arrays of keys and of values cannot be made once a
null key or null data is in a dictionary.
-/

namespace WiredServer.Collections

open Loop Link PartialMap

variable {κ α : Type} {keys : Setoid (Option κ)}

/-- The data of keys, where data may be null. -/
abbrev KeyMap (keys : Setoid (Option κ)) (α : Type) := Quotient keys → Option (Option α)

namespace WiDictionary

-----------------------------------------------------------------------------------------
-- Entries as pairs
-----------------------------------------------------------------------------------------

/-- Entries as keys, up to equality, and their data. -/
def pairs (keys : Setoid (Option κ)) (entries : List (Entry κ α)) : List (Quotient keys × Option α) :=
  entries.map fun entry => (⟦entry.key⟧, entry.data)

/-- The keys of entries, up to equality. -/
theorem map_fst_pairs (entries : List (Entry κ α))
    : (pairs keys entries).map Prod.fst = entries.map fun entry => ⟦entry.key⟧ := by
  simp [pairs]

/-- The dictionary contains entries that are the values of a map. -/
structure Describes (callbacks : DictionaryCallbacks κ) (dictionary : WiDictionary κ α)
    (entries : List (Entry κ α)) (map : KeyMap keys α) : Prop where
  contains : dictionary.Contains callbacks entries
  lists : Lists (pairs keys entries) map

section Describes

variable {callbacks : DictionaryCallbacks κ} {dictionary : WiDictionary κ α}
variable {entries : List (Entry κ α)} {map : KeyMap keys α}

/-- A new dictionary has no keys. -/
theorem describes_init (capacity : ℕ)
    : Describes callbacks (initWithCapacity capacity : WiDictionary κ α) []
        ((fun _ => none) : KeyMap keys α) where
  contains := by
    refine ⟨_, holds_init capacity, ⟨?_, .inl rfl⟩, by simp⟩
    have many : 0 < max (exp2m1 (log2 capacity + 1)) dictionaryMinCount :=
      lt_of_lt_of_le (by decide : 0 < dictionaryMinCount) (le_max_right _ _)
    simp only [NeedsResize, initWithCapacity]
    omega
  lists := lists_nil

/-- A key that no entry has is without data. -/
theorem none_of_missing (lists : Lists (pairs keys entries) map) {key : Option κ}
    (missing : ∀ entry ∈ entries, ¬keys.r entry.key key)
    : map ⟦key⟧ = none := by
  by_contra present
  obtain ⟨data, here⟩ := Option.ne_none_iff_exists'.mp present
  obtain ⟨entry, member, same⟩ := List.mem_map.mp ((lists.mem _ _).mp here)
  exact missing entry member (Quotient.exact (Prod.mk.inj same).1)

/-- The data of a key is that of an entry with an equal key. -/
theorem some_of_equal (lists : Lists (pairs keys entries) map) {key : Option κ}
    {entry : Entry κ α} (member : entry ∈ entries) (equal : keys.r entry.key key)
    : map ⟦key⟧ = some entry.data := by
  have same : (⟦entry.key⟧ : Quotient keys) = ⟦key⟧ := Quotient.sound equal
  rw [← same, lists.mem]
  exact List.mem_map.mpr ⟨entry, member, rfl⟩

/-- Removing all data leaves no key. -/
theorem Describes.removeAllData (describes : Describes callbacks dictionary entries map)
    : ∃ next, dictionary.removeAllData callbacks = .ok next
      ∧ Describes callbacks next [] ((fun _ => none) : KeyMap keys α) := by
  obtain ⟨next, ran, contains⟩ := describes.contains.removeAllData
  exact ⟨next, ran, contains, lists_nil⟩

/-- Setting the data of an entry for its own key changes nothing. -/
theorem setDataForKey_self {chains : Chains κ α} (holds : dictionary.Holds callbacks chains)
    (settled : dictionary.Settled) (lists : Lists (pairs keys (chains.flatten.map Prod.snd)) map)
    (lawful : callbacks.Lawful keys) {link : ℕ × Entry κ α} (member : link ∈ chains.flatten)
    : dictionary.setDataForKey callbacks link.2.data link.2.key = .ok dictionary := by
  rcases holds.search lawful link.2.key with
    ⟨fronts, backs, head, front, back, before, after, node, entry, found, ran⟩ | ⟨missing, -⟩
  · have other : (node, entry) ∈ chains.flatten := found.place.mem_flatten (by simp)
    have distinct := lists.nodup
    rw [map_fst_pairs, List.map_map] at distinct
    have equal : keys.r entry.key link.2.key := (lawful.isEqual_iff _ _).mp found.equal
    have same : (node, entry) = link :=
      List.inj_on_of_nodup_map distinct other member (Quotient.sound equal)
    obtain rfl : entry = link.2 := congrArg Prod.snd same
    obtain ⟨pointer, read⟩ := holds.threads.read_of_mem other
    have written := Pool.write_read read
    simp only [WiDictionary.setDataForKey, bucketForKey, ran, bind, Except.bind, Option.map_some,
      read, inside_some]
    rw [written]
    simp only [inside_some, WiDictionary.checkResize, settled.calm, if_false]
  · exact absurd (keys.refl link.2.key) (missing link member)

/-- Adding the entries of a dictionary to itself changes nothing. -/
theorem Describes.mutableAddEntries_self (describes : Describes callbacks dictionary entries map)
    (lawful : callbacks.Lawful keys)
    : dictionary.mutableAddEntriesFromDictionary callbacks id = .ok dictionary := by
  obtain ⟨⟨chains, holds, settled, same⟩, lists⟩ := describes
  have whole : Lists (pairs keys (chains.flatten.map Prod.snd)) map :=
    lists.perm (same.map _).symm
  have loop := @each_ok _ _ callbacks chains (WiDictionary κ α) id
    (fun dictionary entry => dictionary.setDataForKey callbacks entry.data entry.key)
    (fun _ current => current = dictionary) (fun _ _ same => same.symm ▸ holds) ?_ dictionary rfl
  · obtain ⟨next, ran, rfl⟩ := loop
    exact ran
  · rintro done link rest current split rfl
    refine ⟨current, setDataForKey_self holds settled whole lawful ?_, rfl⟩
    rw [split]
    simp

variable [DecidableEq (Quotient keys)]

/-- Setting data gives the key that data. -/
theorem Describes.setDataForKey (describes : Describes callbacks dictionary entries map)
    (lawful : callbacks.Lawful keys) (data : Option α) (key : Option κ)
    : ∃ next entries', dictionary.setDataForKey callbacks data key = .ok next
      ∧ Describes callbacks next entries' (Function.update map ⟦key⟧ (some data))
      ∧ ⟨key, data⟩ ∈ entries' ∧ ∀ entry ∈ entries', entry = ⟨key, data⟩ ∨ entry ∈ entries := by
  obtain ⟨next, ran, ⟨entry, rest, order, equal, contains⟩ | ⟨missing, contains⟩⟩ :=
    describes.contains.setDataForKey lawful data key
  · have same : (⟦entry.key⟧ : Quotient keys) = ⟦key⟧ := Quotient.sound equal
    have lists : Lists ((⟦key⟧, entry.data) :: pairs keys rest) map := by
      rw [← same]
      exact describes.lists.perm (order.map _)
    have changed : Lists ((⟦key⟧, data) :: pairs keys rest)
        (Function.update map ⟦key⟧ (some data)) :=
      @Lists.replace _ _ map _ [] _ _ _ lists data
    refine ⟨next, ⟨key, data⟩ :: rest, ran, ⟨contains, changed⟩, List.mem_cons_self,
      fun other member => ?_⟩
    rcases List.mem_cons.mp member with rfl | member
    · exact .inl rfl
    · exact .inr (order.mem_iff.mpr (List.mem_cons_of_mem _ member))
  · refine ⟨next, ⟨key, data⟩ :: entries, ran,
      ⟨contains, describes.lists.cons (none_of_missing describes.lists missing) data⟩,
      List.mem_cons_self, fun other member => ?_⟩
    exact List.mem_cons.mp member

/-- Removing a key leaves it without data. -/
theorem Describes.removeDataForKey (describes : Describes callbacks dictionary entries map)
    (lawful : callbacks.Lawful keys) (key : Option κ)
    : ∃ next entries', dictionary.removeDataForKey callbacks key = .ok next
      ∧ Describes callbacks next entries' (Function.update map ⟦key⟧ none)
      ∧ ∀ entry ∈ entries', entry ∈ entries := by
  obtain ⟨next, ran, ⟨entry, rest, order, equal, contains⟩ | ⟨missing, contains⟩⟩ :=
    describes.contains.removeDataForKey lawful key
  · have same : (⟦entry.key⟧ : Quotient keys) = ⟦key⟧ := Quotient.sound equal
    have lists : Lists ((⟦key⟧, entry.data) :: pairs keys rest) map := by
      rw [← same]
      exact describes.lists.perm (order.map _)
    have changed : Lists (pairs keys rest) (Function.update map ⟦key⟧ none) :=
      @Lists.remove _ _ map _ [] _ _ _ lists
    exact ⟨next, rest, ran, ⟨contains, changed⟩, fun other member =>
      order.mem_iff.mpr (List.mem_cons_of_mem _ member)⟩
  · have unchanged : Function.update map ⟦key⟧ none = map := by
      rw [← none_of_missing describes.lists missing, Function.update_eq_self]
    exact ⟨next, entries, ran, ⟨contains, unchanged.symm ▸ describes.lists⟩, fun _ member => member⟩

/-- The entries of another dictionary override those of this one. -/
theorem Describes.mutableAddEntries (describes : Describes callbacks dictionary entries map)
    (lawful : callbacks.Lawful keys) {callbacks' : DictionaryCallbacks κ}
    {source : WiDictionary κ α} {others : List (Entry κ α)} {map' : KeyMap keys α}
    (describes' : Describes callbacks' source others map')
    : ∃ next entries', dictionary.mutableAddEntriesFromDictionary callbacks (fun _ => source)
        = .ok next
      ∧ Describes callbacks next entries' (fun key => (map' key).or (map key))
      ∧ ∀ entry ∈ entries', entry ∈ others ∨ entry ∈ entries := by
  obtain ⟨⟨chains, holds, -, same⟩, lists⟩ := describes'
  have whole : Lists (pairs keys (chains.flatten.map Prod.snd)) map' :=
    lists.perm (same.map _).symm
  have loop := @each_ok _ _ callbacks' chains (WiDictionary κ α) (fun _ => source)
    (fun dictionary entry => dictionary.setDataForKey callbacks entry.data entry.key)
    (fun done current => ∃ entries', Describes callbacks current entries'
        ((pairs keys (done.map Prod.snd)).foldl
          (fun (current : KeyMap keys α) pair => Function.update current pair.1 (some pair.2)) map)
      ∧ ∀ entry ∈ entries', entry ∈ others ∨ entry ∈ entries)
    (fun _ _ _ => holds) ?_ dictionary ⟨entries, describes, fun _ member => .inr member⟩
  · obtain ⟨next, ran, entries', described, part⟩ := loop
    rw [whole.foldl_update] at described
    exact ⟨next, entries', ran, described, part⟩
  · rintro done link rest current split ⟨entries', described, part⟩
    obtain ⟨next, entries'', ran, described', -, part'⟩ :=
      described.setDataForKey lawful link.2.data link.2.key
    refine ⟨next, ran, entries'', ?_, fun entry member => ?_⟩
    · simpa [pairs, List.foldl_append] using described'
    · rcases part' entry member with rfl | member
      · refine .inl (same.mem_iff.mp (List.mem_map.mpr ⟨link, ?_, rfl⟩))
        rw [split]
        simp
      · exact part entry member

end Describes

-----------------------------------------------------------------------------------------
-- Lookups and enumerations
-----------------------------------------------------------------------------------------

/-- These keys are the ones that have data, each once. -/
structure EachOnce (map : KeyMap keys α) (present : List (Quotient keys)) : Prop where
  nodup : present.Nodup
  mem : ∀ key, key ∈ present ↔ (map key).isSome = true

/-- The lookups, the number of keys and the enumerations of a dictionary are those of a map. -/
structure Agrees (callbacks : DictionaryCallbacks κ) (dictionary : WiDictionary κ α)
    (map : KeyMap keys α) : Prop where
  data : ∀ key, dictionary.dataForKey callbacks key = .ok (map ⟦key⟧).join
  contains : ∀ key, dictionary.containsKey callbacks key = .ok (map ⟦key⟧).isSome
  count : dictionary.keyCount = {key | (map key).isSome = true}.ncard
  allKeys : ∃ array list, dictionary.allKeys = .ok (some array) ∧ array.getData = .ok list
    ∧ EachOnce map (list.map fun key => ⟦key⟧)
  allValues : ∃ array list present, dictionary.allValues = .ok (some array)
    ∧ array.getData = .ok list ∧ EachOnce map present ∧ list.map some = present.map map
  keyEnumerator : ∃ list last next, dictionary.enumeratedKeys dictionary.keyCount = .ok (list, last)
    ∧ EachOnce map (list.map fun key => ⟦key⟧)
    ∧ dictionary.enumerate Entry.key last = .ok (none, next)
  dataEnumerator : ∃ list present last next,
    dictionary.enumeratedData dictionary.keyCount = .ok (list, last)
    ∧ EachOnce map present ∧ list.map some = present.map map
    ∧ dictionary.enumerate Entry.data last = .ok (none, next)

/-- No key and no data of these entries is null. -/
def NoneNull (entries : List (Entry κ α)) : Prop :=
  ∀ entry ∈ entries, entry.key.isSome = true ∧ entry.data.isSome = true

section Agrees

variable {callbacks : DictionaryCallbacks κ} {dictionary : WiDictionary κ α}
variable {chains : Chains κ α} {map : KeyMap keys α}

/-- What a dictionary finds for a key. -/
theorem Holds.bucketForKey (holds : dictionary.Holds callbacks chains) (lawful : callbacks.Lawful keys)
    (lists : Lists (pairs keys (chains.flatten.map Prod.snd)) map) (key : Option κ)
    : (∃ bucket link, dictionary.bucketForKey callbacks key (dictionary.indexOf callbacks key)
          = .ok (some bucket)
        ∧ dictionary.pool.read bucket = some link ∧ map ⟦key⟧ = some link.value.data)
      ∨ dictionary.bucketForKey callbacks key (dictionary.indexOf callbacks key) = .ok none
        ∧ map ⟦key⟧ = none := by
  rcases holds.search lawful key with
    ⟨fronts, backs, head, front, back, before, after, node, entry, found, ran⟩ | ⟨missing, ran⟩
  · have member : (node, entry) ∈ chains.flatten := found.place.mem_flatten (by simp)
    obtain ⟨pointer, read⟩ := holds.threads.read_of_mem member
    refine .inl ⟨node, ⟨entry, pointer⟩, ?_, read, ?_⟩
    · simp only [WiDictionary.bucketForKey, ran, bind, Except.bind, Option.map_some]
    · exact some_of_equal lists (List.mem_map.mpr ⟨_, member, rfl⟩)
        ((lawful.isEqual_iff _ _).mp found.equal)
  · refine .inr ⟨?_, none_of_missing lists fun entry member equal => ?_⟩
    · simp only [WiDictionary.bucketForKey, ran, bind, Except.bind, Option.map_none]
    · obtain ⟨link, inChains, rfl⟩ := List.mem_map.mp member
      exact missing link inChains equal

/-- The data of a key is that of the map, or null. -/
theorem Describes.dataForKey {entries : List (Entry κ α)}
    (describes : Describes callbacks dictionary entries map) (lawful : callbacks.Lawful keys)
    (key : Option κ)
    : dictionary.dataForKey callbacks key = .ok (map ⟦key⟧).join := by
  obtain ⟨⟨chains, holds, -, same⟩, listed⟩ := describes
  have lists : Lists (pairs keys (chains.flatten.map Prod.snd)) map :=
    listed.perm (same.map _).symm
  rcases holds.bucketForKey lawful lists key with ⟨bucket, link, ran, read, here⟩ | ⟨ran, absent⟩
  · simp only [WiDictionary.dataForKey, ran, bind, Except.bind, read, inside_some, here,
      Option.join_some]
  · simp only [WiDictionary.dataForKey, ran, bind, Except.bind, absent, Option.join_none]

/-- A key is contained if the map has data for it. -/
theorem Describes.containsKey {entries : List (Entry κ α)}
    (describes : Describes callbacks dictionary entries map) (lawful : callbacks.Lawful keys)
    (key : Option κ)
    : dictionary.containsKey callbacks key = .ok (map ⟦key⟧).isSome := by
  obtain ⟨⟨chains, holds, -, same⟩, listed⟩ := describes
  have lists : Lists (pairs keys (chains.flatten.map Prod.snd)) map :=
    listed.perm (same.map _).symm
  rcases holds.bucketForKey lawful lists key with ⟨bucket, link, ran, -, here⟩ | ⟨ran, absent⟩
  · simp only [WiDictionary.containsKey, ran, bind, Except.bind, here, Option.isSome_some]
  · simp only [WiDictionary.containsKey, ran, bind, Except.bind, absent, Option.isSome_none]

/-- A dictionary counts the keys that have data. -/
theorem Describes.keyCount_eq {entries : List (Entry κ α)}
    (describes : Describes callbacks dictionary entries map)
    : dictionary.keyCount = {key | (map key).isSome = true}.ncard := by
  obtain ⟨⟨chains, holds, -, same⟩, listed⟩ := describes
  rw [holds.counted, listed.ncard_eq, pairs, List.length_map, ← same.length_eq, List.length_map]

/-- The keys of the entries are the keys that have data. -/
theorem eachOnce_of_lists (lists : Lists (pairs keys (chains.flatten.map Prod.snd)) map)
    : EachOnce map (chains.flatten.map fun link => ⟦link.2.key⟧) := by
  have same : (pairs keys (chains.flatten.map Prod.snd)).map Prod.fst
      = chains.flatten.map fun link => (⟦link.2.key⟧ : Quotient keys) := by
    rw [map_fst_pairs, List.map_map]
    rfl
  exact ⟨same ▸ lists.nodup, fun key => by rw [← same, ← lists.isSome_iff]⟩

/-- The data of the entries are those of their keys. -/
theorem map_data_of_lists (lists : Lists (pairs keys (chains.flatten.map Prod.snd)) map)
    : (chains.flatten.map fun link => link.2.data).map some
      = (chains.flatten.map fun link => ⟦link.2.key⟧).map map := by
  rw [List.map_map, List.map_map]
  refine List.map_congr_left fun link member => ?_
  exact (some_of_equal lists (List.mem_map.mpr ⟨link, member, rfl⟩) (keys.refl _)).symm

/-- A dictionary without nulls agrees with its map. -/
theorem Describes.agrees {entries : List (Entry κ α)}
    (describes : Describes callbacks dictionary entries map) (lawful : callbacks.Lawful keys)
    (full : NoneNull entries)
    : Agrees callbacks dictionary map := by
  have data := describes.dataForKey lawful
  have present := describes.containsKey lawful
  have count := describes.keyCount_eq
  obtain ⟨⟨chains, holds, -, same⟩, listed⟩ := describes
  have lists : Lists (pairs keys (chains.flatten.map Prod.snd)) map :=
    listed.perm (same.map _).symm
  have full' : ∀ link ∈ chains.flatten,
      link.2.key.isSome = true ∧ link.2.data.isSome = true :=
    fun link member => full link.2 (same.mem_iff.mp (List.mem_map.mpr ⟨link, member, rfl⟩))
  have once := eachOnce_of_lists lists
  have start : Left dictionary chains ⟨0, none⟩ chains.flatten :=
    @Left.front _ _ dictionary chains [] chains rfl
  refine ⟨data, present, count, ?_, ?_, ?_, ?_⟩
  · obtain ⟨array, ran, nodes, own⟩ :=
      (@Holds.collect _ _ _ _ κ _ Entry.key holds).1 fun link member => (full' link member).1
    refine ⟨array, _, ran, own.getData, ?_⟩
    rw [List.map_map]
    exact once
  · obtain ⟨array, ran, nodes, own⟩ :=
      (@Holds.collect _ _ _ _ α _ Entry.data holds).1 fun link member => (full' link member).2
    exact ⟨array, _, _, ran, own.getData, once, map_data_of_lists lists⟩
  · obtain ⟨last, ran, left⟩ := holds.enumerated Entry.key start fun _ member => member
    obtain ⟨next, ended, -⟩ := holds.enumerate_end Entry.key left
    rw [← holds.counted] at ran
    refine ⟨_, last, next, ran, ?_, ended⟩
    rw [List.map_map]
    exact once
  · obtain ⟨last, ran, left⟩ := holds.enumerated Entry.data start fun _ member => member
    obtain ⟨next, ended, -⟩ := holds.enumerate_end Entry.data left
    rw [← holds.counted] at ran
    exact ⟨_, _, last, next, ran, once, map_data_of_lists lists, ended⟩

/-- With a null key or null data a dictionary agrees with no map. -/
theorem Describes.not_agrees {entries : List (Entry κ α)} {map' : KeyMap keys α}
    (describes : Describes callbacks dictionary entries map) (null : ¬NoneNull entries)
    : ¬Agrees callbacks dictionary map' := by
  obtain ⟨⟨chains, holds, -, same⟩, -⟩ := describes
  intro agrees
  refine null fun entry member => ?_
  obtain ⟨link, inChains, rfl⟩ := List.mem_map.mp (same.mem_iff.mpr member)
  constructor
  · by_contra missing
    have ended := (@Holds.collect _ _ _ _ κ _ Entry.key holds).2
      ⟨link, inChains, Option.not_isSome_iff_eq_none.mp missing⟩
    obtain ⟨array, -, ran, -⟩ := agrees.allKeys
    cases ran.symm.trans ended
  · by_contra missing
    have ended := (@Holds.collect _ _ _ _ α _ Entry.data holds).2
      ⟨link, inChains, Option.not_isSome_iff_eq_none.mp missing⟩
    obtain ⟨array, -, -, ran, -⟩ := agrees.allValues
    cases ran.symm.trans ended

end Agrees

-----------------------------------------------------------------------------------------
-- Runs
-----------------------------------------------------------------------------------------

/-- An operation on a dictionary. Another dictionary whose entries are added is given by its number. -/
inductive DictionaryOperation (κ α : Type) where
  | init (capacity : ℕ)
  | set (data : Option α) (key : Option κ)
  | remove (key : Option κ)
  | removeAll
  | addEntries (source : ℕ)

namespace DictionaryOperation

/-- What an operation does to one of the dictionaries. -/
def onDictionary (callbacks : DictionaryCallbacks κ) (dictionaries : ℕ → WiDictionary κ α)
    (target : ℕ)
    : DictionaryOperation κ α → Access (Option (WiDictionary κ α))
  | .init capacity => .ok (some (initWithCapacity capacity))
  | .set data key => (dictionaries target).mutableSetDataForKey callbacks data key
  | .remove key => (dictionaries target).mutableRemoveDataForKey callbacks key
  | .removeAll => do
      let next ← (dictionaries target).removeAllData callbacks
      .ok (some next)
  | .addEntries source => do
      let next ← (dictionaries target).mutableAddEntriesFromDictionary callbacks fun current =>
        if source = target then current else dictionaries source
      .ok (some next)

/-- The same operation on a map, where an operation that the code asserts against is impossible. -/
def onMap [DecidableEq (Quotient keys)] (callbacks : DictionaryCallbacks κ)
    (maps : ℕ → KeyMap keys α) (target : ℕ)
    : DictionaryOperation κ α → Option (KeyMap keys α)
  | .init _ => some fun _ => none
  | .set data key =>
      if callbacks.valueRetains && data.isNone || callbacks.keyRetains && key.isNone then none
      else some (Function.update (maps target) ⟦key⟧ (some data))
  | .remove key =>
      if callbacks.keyReleases && key.isNone then none
      else some (Function.update (maps target) ⟦key⟧ none)
  | .removeAll => some fun _ => none
  | .addEntries source => some fun key => (maps source key).or (maps target key)

/-- The operation sets neither a null key nor null data. -/
def SetsNoNull : DictionaryOperation κ α → Prop
  | .set data key => data.isSome = true ∧ key.isSome = true
  | _ => True

instance : DecidablePred (SetsNoNull : DictionaryOperation κ α → Prop)
  | .set _ _ => inferInstanceAs (Decidable (_ ∧ _))
  | .init _ | .remove _ | .removeAll | .addEntries _ => inferInstanceAs (Decidable True)

/-- The entries that an operation sets on its own. -/
def sets : DictionaryOperation κ α → List (Entry κ α)
  | .set data key => [⟨key, data⟩]
  | _ => []

/-- An operation sets no null if its entries have none. -/
theorem setsNoNull_iff (operation : DictionaryOperation κ α)
    : operation.SetsNoNull ↔ NoneNull operation.sets := by
  cases operation with
  | set data key => simp [SetsNoNull, NoneNull, sets, and_comm]
  | init | remove | removeAll | addEntries => simp [SetsNoNull, NoneNull, sets]

/-- An operation on one of the dictionaries. It is impossible if it ends the process or leaves a
block.
-/
def stepDictionaries (callbacks : ℕ → DictionaryCallbacks κ)
    (operation : ℕ × DictionaryOperation κ α) (dictionaries : ℕ → WiDictionary κ α)
    : Option (ℕ → WiDictionary κ α) :=
  match operation.2.onDictionary (callbacks operation.1) dictionaries operation.1 with
  | .ok (some next) => some (Function.update dictionaries operation.1 next)
  | _ => none

/-- The operation on the map of the same number. -/
def stepMaps [DecidableEq (Quotient keys)] (callbacks : ℕ → DictionaryCallbacks κ)
    (operation : ℕ × DictionaryOperation κ α) (maps : ℕ → KeyMap keys α)
    : Option (ℕ → KeyMap keys α) :=
  (operation.2.onMap (callbacks operation.1) maps operation.1).map (Function.update maps operation.1)

section Steps

variable [DecidableEq (Quotient keys)] {callbacks : ℕ → DictionaryCallbacks κ}
variable {dictionaries : ℕ → WiDictionary κ α} {maps : ℕ → KeyMap keys α} {target : ℕ}

/-- The dictionary contains the entries of the map, and these are not null. -/
def Refines (callbacks : DictionaryCallbacks κ) (dictionary : WiDictionary κ α) (map : KeyMap keys α)
    : Prop :=
  ∃ entries, Describes callbacks dictionary entries map ∧ NoneNull entries

/-- An operation that is possible on the map does the same to the dictionary. An entry is the one that the
operation sets or comes from one of the dictionaries.
-/
theorem onDictionary_spec (lawful : ∀ i, (callbacks i).Lawful keys) {entries : ℕ → List (Entry κ α)}
    (describes : ∀ i, Describes (callbacks i) (dictionaries i) (entries i) (maps i))
    {operation : DictionaryOperation κ α} {map' : KeyMap keys α}
    (possible : operation.onMap (callbacks target) maps target = some map')
    : ∃ next entries', operation.onDictionary (callbacks target) dictionaries target
        = .ok (some next)
      ∧ Describes (callbacks target) next entries' map'
      ∧ (∀ entry ∈ operation.sets, entry ∈ entries')
      ∧ ∀ entry ∈ entries', entry ∈ operation.sets ∨ ∃ i, entry ∈ entries i := by
  cases operation with
  | init capacity =>
      cases possible
      exact ⟨_, [], rfl, describes_init capacity, nofun, nofun⟩
  | set data key =>
      obtain ⟨allowed, same⟩ := Option.ite_none_left_eq_some.mp possible
      cases same
      rw [Bool.or_eq_true, not_or] at allowed
      obtain ⟨next, entries', ran, described, member, part⟩ :=
        (describes target).setDataForKey (lawful target) data key
      refine ⟨next, entries', ?_, described, ?_, fun entry here => ?_⟩
      · simp only [onDictionary, mutableSetDataForKey, allowed.1, allowed.2, Bool.false_eq_true,
          if_false, ran, bind, Except.bind]
      · exact List.forall_mem_singleton.mpr member
      · exact (part entry here).imp List.mem_singleton.mpr fun here => ⟨target, here⟩
  | remove key =>
      obtain ⟨allowed, same⟩ := Option.ite_none_left_eq_some.mp possible
      cases same
      obtain ⟨next, entries', ran, described, part⟩ :=
        (describes target).removeDataForKey (lawful target) key
      refine ⟨next, entries', ?_, described, nofun, fun entry here => .inr ⟨target, part entry here⟩⟩
      simp only [onDictionary, mutableRemoveDataForKey, allowed, Bool.false_eq_true, if_false, ran,
        bind, Except.bind]
  | removeAll =>
      cases possible
      obtain ⟨next, ran, described⟩ := (describes target).removeAllData
      refine ⟨next, [], ?_, described, nofun, nofun⟩
      simp only [onDictionary, ran, bind, Except.bind]
  | addEntries source =>
      cases possible
      by_cases own : source = target
      · subst own
        have unchanged : (fun key => (maps source key).or (maps source key)) = maps source :=
          funext fun key => Option.or_self
        have ran := (describes source).mutableAddEntries_self (lawful source)
        refine ⟨dictionaries source, entries source, ?_, unchanged.symm ▸ describes source, nofun,
          fun entry here => .inr ⟨source, here⟩⟩
        simp only [onDictionary, if_true]
        change (do
          let next ← (dictionaries source).mutableAddEntriesFromDictionary (callbacks source) id
          Except.ok (some next)) = _
        rw [ran]
        rfl
      · obtain ⟨next, entries', ran, described, part⟩ :=
          (describes target).mutableAddEntries (lawful target) (describes source)
        refine ⟨next, entries', ?_, described, nofun, fun entry here => ?_⟩
        · simp only [onDictionary, own, if_false, ran, bind, Except.bind]
        · exact .inr ((part entry here).elim (fun here => ⟨source, here⟩) fun here => ⟨target, here⟩)

/-- Without nulls in the dictionaries there are none after an operation exactly if it sets none. -/
theorem onDictionary_noneNull (lawful : ∀ i, (callbacks i).Lawful keys)
    (refines : ∀ i, Refines (callbacks i) (dictionaries i) (maps i))
    {operation : DictionaryOperation κ α} {map' : KeyMap keys α}
    (possible : operation.onMap (callbacks target) maps target = some map')
    : ∃ next entries, operation.onDictionary (callbacks target) dictionaries target
        = .ok (some next)
      ∧ Describes (callbacks target) next entries map'
      ∧ (operation.SetsNoNull ↔ NoneNull entries) := by
  choose entries describes full using refines
  obtain ⟨next, entries', ran, described, kept, part⟩ := onDictionary_spec lawful describes possible
  refine ⟨next, entries', ran, described, operation.setsNoNull_iff.trans ⟨fun set entry here => ?_,
    fun full' entry here => full' entry (kept entry here)⟩⟩
  rcases part entry here with set' | ⟨i, old⟩
  · exact set entry set'
  · exact full i entry old

/-- In a run that is possible on maps, with hashes that are equal for equal keys, the lookups, counts and
enumerations of the dictionaries are those of the maps after every operation, and every operation
succeeds, exactly when no operation sets a null key or null data.
-/
theorem agrees_throughout_iff (callbacks : ℕ → DictionaryCallbacks κ)
    (lawful : ∀ i, (callbacks i).Lawful keys) (capacities : ℕ → ℕ)
    (operations : List (ℕ × DictionaryOperation κ α)) (final : ℕ → KeyMap keys α)
    (possible : Machine.run (stepMaps callbacks) operations (fun _ _ => none) = some final)
    : (∀ seen, seen <+: operations →
        ∃ (dictionaries : ℕ → WiDictionary κ α) (maps : ℕ → KeyMap keys α),
        Machine.run (stepDictionaries callbacks) seen (fun i => initWithCapacity (capacities i))
          = some dictionaries
        ∧ Machine.run (stepMaps callbacks) seen (fun _ _ => none) = some maps
        ∧ ∀ i, Agrees (callbacks i) (dictionaries i) (maps i))
      ↔ ∀ operation ∈ operations, operation.2.SetsNoNull := by
  have start : ∀ i, Refines (callbacks i) (initWithCapacity (capacities i))
      ((fun _ => none) : KeyMap keys α) := fun i => ⟨[], describes_init _, nofun⟩
  have kept : ∀ (operation : ℕ × DictionaryOperation κ α) (dictionaries : ℕ → WiDictionary κ α)
      (maps next' : ℕ → KeyMap keys α), (∀ i, Refines (callbacks i) (dictionaries i) (maps i)) →
      stepMaps callbacks operation maps = some next' → operation.2.SetsNoNull →
      ∃ next, stepDictionaries callbacks operation dictionaries = some next
        ∧ ∀ i, Refines (callbacks i) (next i) (next' i) := by
    intro operation dictionaries maps next' refines stepped sets
    obtain ⟨map', ran', rfl⟩ := Option.map_eq_some_iff.mp stepped
    obtain ⟨next, entries, ran, described, full⟩ := onDictionary_noneNull lawful refines ran'
    refine ⟨Function.update dictionaries operation.1 next, ?_, fun i => ?_⟩
    · simp only [stepDictionaries, ran]
    · by_cases same : i = operation.1
      · subst same
        simpa using ⟨entries, described, full.mp sets⟩
      · simpa [Function.update_of_ne same] using refines i
  rw [← Machine.meets_iff_forall kept start possible]
  refine @Machine.agree_along_iff _ _ (stepDictionaries callbacks) _ (stepMaps callbacks)
    (fun dictionaries maps => ∀ i, Refines (callbacks i) (dictionaries i) (maps i))
    (fun dictionaries maps => ∀ i, Agrees (callbacks i) (dictionaries i) (maps i))
    (fun operation _ => operation.2.SetsNoNull) ?_ kept ?_ operations _ _ final start possible
  · intro dictionaries maps refines i
    obtain ⟨entries, described, full⟩ := refines i
    exact described.agrees (lawful i) full
  · intro operation dictionaries maps next next' refines stepped null ran agree
    obtain ⟨map', ran', rfl⟩ := Option.map_eq_some_iff.mp stepped
    obtain ⟨after, entries, applied, described, full⟩ := onDictionary_noneNull lawful refines ran'
    simp only [stepDictionaries, applied, Option.some.injEq] at ran
    have own := agree operation.1
    rw [← ran, Function.update_self] at own
    exact described.not_agrees (fun none => null (full.mpr none)) own

end Steps

/-- Keys that are numbers and are equal to themselves. -/
def numberKeys : Setoid (Option ℕ) where
  r := Eq
  iseqv := ⟨fun _ => rfl, Eq.symm, Eq.trans⟩

instance : DecidableEq (Quotient numberKeys) :=
  @Quotient.decidableEq _ numberKeys fun key other => inferInstanceAs (Decidable (key = other))

/-- Callbacks that neither retain nor release, with a hash under which keys of the same parity
collide.
-/
def colliding : DictionaryCallbacks ℕ where
  keyRetains := false
  keyReleases := false
  valueRetains := false
  hash := fun key => key.getD 0 % 2
  isEqual := fun key other => decide (key = other)

theorem colliding_lawful : colliding.Lawful numberKeys where
  isEqual_iff _ _ := decide_eq_true_iff
  hash_eq _ _ := congrArg colliding.hash

/-- Operations on two dictionaries, one of which is added to the other and to itself. -/
def twoDictionaries : List (ℕ × DictionaryOperation ℕ ℕ) :=
  [(0, .set (some 1) (some 5)), (0, .set (some 2) (some 7)), (0, .set (some 3) (some 5)),
    (1, .addEntries 0), (1, .addEntries 1), (0, .remove (some 5)), (1, .init 100),
    (0, .removeAll)]

theorem agrees_throughout_iff_twoDictionaries
    : (∃ final : ℕ → KeyMap numberKeys ℕ,
        Machine.run (stepMaps fun _ => colliding) twoDictionaries (fun _ _ => none) = some final)
      ∧ (∀ seen, seen <+: twoDictionaries →
        ∃ (dictionaries : ℕ → WiDictionary ℕ ℕ) (maps : ℕ → KeyMap numberKeys ℕ),
        Machine.run (stepDictionaries fun _ => colliding) seen (fun _ => initWithCapacity 0)
          = some dictionaries
        ∧ Machine.run (stepMaps fun _ => colliding) seen (fun _ _ => none) = some maps
        ∧ ∀ i, Agrees colliding (dictionaries i) (maps i)) := by
  obtain ⟨final, possible⟩ : ∃ final : ℕ → KeyMap numberKeys ℕ,
      Machine.run (stepMaps fun _ => colliding) twoDictionaries (fun _ _ => none) = some final :=
    ⟨_, rfl⟩
  refine ⟨⟨final, possible⟩, ?_⟩
  exact (agrees_throughout_iff (fun _ => colliding) (fun _ => colliding_lawful) (fun _ => 0)
    twoDictionaries final possible).mpr (by decide)

/-- Null data is set for a key. -/
def nullData : List (ℕ × DictionaryOperation ℕ ℕ) := [(0, .set none (some 1))]

theorem not_agrees_throughout_nullData
    : (∃ final : ℕ → KeyMap numberKeys ℕ,
        Machine.run (stepMaps fun _ => colliding) nullData (fun _ _ => none) = some final)
      ∧ ¬(∀ seen, seen <+: nullData →
        ∃ (dictionaries : ℕ → WiDictionary ℕ ℕ) (maps : ℕ → KeyMap numberKeys ℕ),
        Machine.run (stepDictionaries fun _ => colliding) seen (fun _ => initWithCapacity 0)
          = some dictionaries
        ∧ Machine.run (stepMaps fun _ => colliding) seen (fun _ _ => none) = some maps
        ∧ ∀ i, Agrees colliding (dictionaries i) (maps i)) := by
  refine ⟨⟨_, rfl⟩, fun always => ?_⟩
  obtain ⟨dictionaries, maps, ran, -, agrees⟩ := always nullData List.prefix_rfl
  have ended : (Machine.run (stepDictionaries fun _ => colliding) nullData
      (fun _ => initWithCapacity 0)).map
        (fun last => (last 0).allValues.toOption.map Option.isSome) = some (some false) := by
    decide +kernel
  rw [ran] at ended
  obtain ⟨array, -, -, made, -⟩ := (agrees 0).allValues
  simp [made, Except.toOption] at ended

end DictionaryOperation

end WiDictionary

end WiredServer.Collections
