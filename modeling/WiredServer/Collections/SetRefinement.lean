import Mathlib
import WiredServer.Collections.ArrayDerivations
import WiredServer.Collections.SetContents
import WiredServer.Lib.Bags
import WiredServer.Lib.Machine

/-! Sets refine bags of the data that they contain, where data that are equal are one element. Counts
are lost when a counted set is set to another one, and the comparison of sets does not look at them.
-/

namespace WiredServer.Collections

open Loop Link PartialMap

variable {κ : Type} {keys : Setoid (Option κ)} {callbacks : DictionaryCallbacks κ}

namespace WiSet

-----------------------------------------------------------------------------------------
-- Counts and bags
-----------------------------------------------------------------------------------------

/-- The count of a bucket, or that there is none, goes with how often a bag contains an element. -/
def Tallies (counted : Bool) : Option (Option ℕ) → ℕ → Prop
  | none, times => times = 0
  | some count, times => 0 < count.getD 0 ∧ times = if counted then count.getD 0 else 1

/-- There is a bucket if the bag contains the element. -/
theorem Tallies.isSome_iff {counted : Bool} {value : Option (Option ℕ)} {times : ℕ}
    (tallies : Tallies counted value times)
    : value.isSome = true ↔ 0 < times := by
  cases value with
  | none => simp_all [Tallies]
  | some count =>
      obtain ⟨positive, rfl⟩ := tallies
      refine iff_of_true rfl ?_
      split
      · exact positive
      · exact Nat.one_pos

/-- The count of a counted set is how often the bag contains the element. -/
theorem Tallies.count_eq {value : Option (Option ℕ)} {times : ℕ} (tallies : Tallies true value times)
    : value.join.getD 0 = times := by
  cases value with
  | none => exact tallies.symm
  | some count => exact tallies.2.symm

/-- A count that goes up. -/
theorem Tallies.succ {counted : Bool} {value : Option (Option ℕ)} {times : ℕ}
    (tallies : Tallies counted value times)
    : Tallies counted (some (some (value.join.getD 0 + 1))) (if counted then times + 1 else 1) := by
  refine ⟨Nat.succ_pos _, ?_⟩
  split
  · rename_i isCounted
    subst isCounted
    rw [tallies.count_eq]
    rfl
  · rfl

/-- A count that goes down. -/
theorem Tallies.pred {counted : Bool} {value : Option (Option ℕ)} {times : ℕ}
    (tallies : Tallies counted value times)
    : Tallies counted (if counted ∧ value.join.getD 0 - 1 ≠ 0 then some (some (value.join.getD 0 - 1))
      else none) (times - 1) := by
  cases counted with
  | true =>
      rw [tallies.count_eq]
      split
      · rename_i left
        exact ⟨Nat.pos_of_ne_zero left.2, rfl⟩
      · rename_i last
        simpa [Tallies] using last
  | false =>
      rw [if_neg (by simp)]
      cases value with
      | none => simp_all [Tallies]
      | some count => simp_all [Tallies]

/-- The buckets of a set have the data of a bag, and count them if it is counted. -/
structure Refines [DecidableEq (Quotient keys)] (callbacks : DictionaryCallbacks κ) (set : WiSet κ)
    (bag : Bag (Quotient keys)) : Prop where
  counted : set.counted = bag.counted
  tallied : ∃ entries, ∃ map : CountMap keys, set.table.Describes callbacks entries map
    ∧ ∀ data, Tallies bag.counted (map data) (bag.all.count data)

section Refines

variable [DecidableEq (Quotient keys)] {set : WiSet κ} {bag : Bag (Quotient keys)}

/-- A new set has an empty bag. -/
theorem refines_init (capacity : ℕ) (counted : Bool)
    : Refines callbacks (initWithCapacity capacity counted)
      (Bag.empty counted : Bag (Quotient keys)) where
  counted := rfl
  tallied := ⟨[], _, WiDictionary.describes_init capacity, fun _ => Multiset.count_zero _⟩

/-- A set contains the data of its bag. -/
theorem Refines.containsData (refines : Refines callbacks set bag) (lawful : callbacks.Lawful keys)
    (data : Option κ)
    : set.containsData callbacks data = .ok (decide (⟦data⟧ ∈ bag.all)) := by
  obtain ⟨entries, map, describes, tallies⟩ := refines.tallied
  rw [containsData_eq describes lawful]
  refine congrArg _ (Bool.eq_iff_iff.mpr ?_)
  rw [decide_eq_true_iff, (tallies ⟦data⟧).isSome_iff, Multiset.count_pos]

/-- A counted set counts the data as its bag does. -/
theorem Refines.countForData (refines : Refines callbacks set bag) (lawful : callbacks.Lawful keys)
    (counted : bag.counted = true) (data : Option κ)
    : set.countForData callbacks data = .ok (bag.all.count ⟦data⟧) := by
  obtain ⟨entries, map, describes, tallies⟩ := refines.tallied
  rw [counted] at tallies
  rw [countForData_eq describes lawful, countOf, (tallies ⟦data⟧).count_eq]

/-- A set has as many buckets as its bag has different elements. -/
theorem Refines.keyCount_eq (refines : Refines callbacks set bag)
    : set.table.keyCount = bag.all.toFinset.card := by
  obtain ⟨entries, map, describes, tallies⟩ := refines.tallied
  rw [describes.keyCount_eq, ← Set.ncard_coe_finset]
  refine congrArg Set.ncard (Set.ext fun data => ?_)
  rw [Set.mem_ofPred_eq, (tallies data).isSome_iff, Multiset.count_pos, Finset.mem_coe,
    Multiset.mem_toFinset]

/-- Data that is added to a set is added to its bag. -/
theorem Refines.addData (refines : Refines callbacks set bag) (lawful : callbacks.Lawful keys)
    (data : Option κ)
    : ∃ next, set.addData callbacks data = .ok next ∧ Refines callbacks next (bag.add ⟦data⟧) := by
  obtain ⟨entries, map, describes, tallies⟩ := refines.tallied
  obtain ⟨table, entries', ran, describes'⟩ := describes_addData describes lawful data
  refine ⟨_, ran, refines.counted, entries', _, describes', fun other => ?_⟩
  rw [Bag.count_add, Function.update_apply]
  change Tallies bag.counted _ _
  split
  · exact (tallies ⟦data⟧).succ
  · exact tallies other

/-- Data that is removed from a set is removed from its bag. -/
theorem Refines.mutableRemoveData (refines : Refines callbacks set bag)
    (lawful : callbacks.Lawful keys) {data : Option κ}
    (allowed : (callbacks.keyReleases && data.isNone) = false)
    : ∃ next, set.mutableRemoveData callbacks data = .ok (some next)
      ∧ Refines callbacks next (bag.remove ⟦data⟧) := by
  obtain ⟨entries, map, describes, tallies⟩ := refines.tallied
  obtain ⟨table, entries', ran, describes'⟩ := describes_mutableRemoveData describes lawful allowed
  refine ⟨_, ran, refines.counted, entries', _, describes', fun other => ?_⟩
  rw [Bag.count_remove, Function.update_apply, refines.counted]
  change Tallies bag.counted _ _
  split
  · exact (tallies ⟦data⟧).pred
  · exact tallies other

/-- A set whose data are all removed has an empty bag. -/
theorem Refines.removeAllData (refines : Refines callbacks set bag)
    : ∃ next, set.removeAllData callbacks = .ok next
      ∧ Refines callbacks next (Bag.empty bag.counted : Bag (Quotient keys)) := by
  obtain ⟨entries, map, describes, -⟩ := refines.tallied
  obtain ⟨table, ran, describes'⟩ := describes.removeAllData
  refine ⟨{ set with table }, ?_, refines.counted, [], _, describes', fun _ => Multiset.count_zero _⟩
  simp only [WiSet.removeAllData, ran, bind, Except.bind]

/-- Data of an array that are added to a set are added to its bag, by induction on them. -/
theorem Refines.addDataFromArray (lawful : callbacks.Lawful keys) {array : WiArray κ}
    {first rest : List (Option κ)} (sound : array.Sound (first ++ rest))
    (refines : Refines callbacks set bag)
    : ∃ next,
      WiSet.addDataFromArray callbacks array (List.range' first.length rest.length) set
        = .ok (some next)
      ∧ Refines callbacks next (rest.foldl (fun bag data => bag.add ⟦data⟧) bag) := by
  induction rest generalizing first set bag with
  | nil => exact ⟨set, rfl, refines⟩
  | cons data rest ih =>
      have found : (first ++ data :: rest)[first.length]? = some data := by simp
      obtain ⟨added, ran, refines'⟩ := refines.addData lawful data
      have sound' : array.Sound ((first ++ [data]) ++ rest) := by simpa using sound
      obtain ⟨next, rest', refinesNext⟩ := ih sound' refines'
      refine ⟨next, ?_, refinesNext⟩
      rw [List.length_append, List.length_singleton] at rest'
      rw [List.length_cons, List.range'_succ, WiSet.addDataFromArray, sound.dataAtIndex, found]
      simp only [bind, Except.bind, ran]
      exact rest'

/-- Data that is added several times is added several times to the bag. -/
theorem Refines.addDataTimes (lawful : callbacks.Lawful keys) (data : Option κ) (count : ℕ)
    (refines : Refines callbacks set bag)
    : ∃ next, WiSet.addDataTimes callbacks data count set = .ok next
      ∧ Refines callbacks next (bag.addTimes ⟦data⟧ count) := by
  induction count generalizing set bag with
  | zero => exact ⟨set, rfl, refines⟩
  | succ count ih =>
      obtain ⟨added, ran, refines'⟩ := refines.addData lawful data
      obtain ⟨next, rest, refinesNext⟩ := ih refines'
      refine ⟨next, ?_, refinesNext⟩
      simp only [WiSet.addDataTimes, ran, bind, Except.bind]
      exact rest

end Refines

-----------------------------------------------------------------------------------------
-- Loops over the buckets of another set
-----------------------------------------------------------------------------------------

section Loops

variable [DecidableEq (Quotient keys)] {set source : WiSet κ} {bag other : Bag (Quotient keys)}

/-- An empty set that is filled from the buckets of a table, some number of times for each. -/
theorem Refines.fill {table : WiDictionary κ ℕ} {entries : List (SetEntry κ)} {map : CountMap keys}
    {counted : Bool} (describes : table.Describes callbacks entries map)
    {visit : WiSet κ → SetEntry κ → Access (WiSet κ)} {times : Quotient keys → ℕ}
    (visits : ∀ (entry : SetEntry κ) (current : WiSet κ) (bag : Bag (Quotient keys)),
      map ⟦entry.key⟧ = some entry.data → Refines callbacks current bag → bag.counted = counted →
      bag.all.count ⟦entry.key⟧ = 0 →
      ∃ (next : WiSet κ) (after : Bag (Quotient keys)), visit current entry = .ok next
        ∧ Refines callbacks next after ∧ after.counted = counted
        ∧ ∀ data, after.all.count data
          = if data = ⟦entry.key⟧ then times data else bag.all.count data)
    (start : Refines callbacks set (Bag.empty counted : Bag (Quotient keys)))
    : ∃ (next : WiSet κ) (after : Bag (Quotient keys)),
      WiDictionary.each (fun _ => table) visit set = .ok next
      ∧ Refines callbacks next after ∧ after.counted = counted
      ∧ ∀ data, after.all.count data = if (map data).isSome = true then times data else 0 := by
  obtain ⟨⟨chains, holds, -, same⟩, listed⟩ := describes
  have lists : Lists (WiDictionary.pairs keys (chains.flatten.map Prod.snd)) map :=
    listed.perm (same.map _).symm
  have once := WiDictionary.eachOnce_of_lists lists
  obtain ⟨next, ran, after, refines, isCounted, counts⟩ := @WiDictionary.each_ok _ _ callbacks chains
    (WiSet κ) (fun _ => table) visit
    (fun done current => ∃ bag : Bag (Quotient keys), Refines callbacks current bag
      ∧ bag.counted = counted ∧ ∀ data, bag.all.count data
        = if data ∈ done.map (fun link => (⟦link.2.key⟧ : Quotient keys)) then times data else 0)
    (fun _ _ _ => holds) (by
      rintro done link rest current split ⟨bag, refines, isCounted, counts⟩
      have member : link ∈ chains.flatten := by simp [split]
      have distinct := once.nodup
      rw [split, List.map_append, List.map_cons] at distinct
      have fresh := (List.nodup_cons.mp (List.perm_middle.nodup_iff.mp distinct)).1
      have here := WiDictionary.some_of_equal lists (List.mem_map.mpr ⟨link, member, rfl⟩)
        (keys.refl link.2.key)
      have absent : bag.all.count ⟦link.2.key⟧ = 0 := by
        rw [counts, if_neg fun old => fresh (List.mem_append_left _ old)]
      obtain ⟨next, after, visited, refines', isCounted', counts'⟩ :=
        visits link.2 current bag here refines isCounted absent
      refine ⟨next, visited, after, refines', isCounted', fun data => ?_⟩
      have more : data ∈ (done ++ [link]).map (fun link => (⟦link.2.key⟧ : Quotient keys))
          ↔ data ∈ done.map (fun link => ⟦link.2.key⟧) ∨ data = ⟦link.2.key⟧ := by
        rw [List.map_append, List.mem_append, List.map_singleton, List.mem_singleton]
      rw [counts', counts]
      by_cases own : data = ⟦link.2.key⟧
      · rw [if_pos own, if_pos (more.mpr (.inr own))]
      · rw [if_neg own]
        exact if_congr (more.trans (or_iff_left own)).symm rfl rfl) set
    ⟨_, start, rfl, fun data => Multiset.count_zero data⟩
  refine ⟨next, after, ran, refines, isCounted, fun data => ?_⟩
  rw [counts]
  exact if_congr (once.mem data) rfl rfl

/-- The data of another bag, each once. -/
def onceEach (counted : Bool) (other : Bag (Quotient keys)) : Bag (Quotient keys) where
  counted := counted
  all := other.all.dedup
  plain _ := Multiset.nodup_dedup other.all

/-- A set that is set to another one has the data of that one, each once. -/
theorem Refines.mutableSetSet (refines : Refines callbacks set bag)
    (refines' : Refines callbacks source other) (lawful : callbacks.Lawful keys)
    : ∃ next, set.mutableSetSet callbacks (fun _ => source) = .ok next
      ∧ Refines callbacks next (onceEach bag.counted other) := by
  obtain ⟨emptied, removed, start⟩ := refines.removeAllData
  obtain ⟨entries, map, describes, tallies⟩ := refines'.tallied
  obtain ⟨next, after, ran, refinesNext, counted, counts⟩ := @Refines.fill _ _ _ _ _ _ _ _
    bag.counted describes (fun set entry => set.addData callbacks entry.key) (fun _ => 1) (by
      intro entry current bag' here own isCounted absent
      obtain ⟨next, ran, refinesNext⟩ := own.addData lawful entry.key
      refine ⟨next, _, ran, refinesNext, isCounted, fun data => ?_⟩
      rw [Bag.count_add, absent, ite_self]) start
  have same : after = onceEach bag.counted other := by
    refine Bag.ext_all counted (Multiset.ext.mpr fun data => ?_)
    rw [counts, onceEach, Multiset.count_dedup]
    exact if_congr ((tallies data).isSome_iff.trans Multiset.count_pos) rfl rfl
  refine ⟨next, ?_, same ▸ refinesNext⟩
  simp only [WiSet.mutableSetSet, removed, bind, Except.bind]
  exact ran

/-- A set that is set to itself is emptied. -/
theorem Refines.mutableSetSet_self (refines : Refines callbacks set bag)
    : ∃ next, set.mutableSetSet callbacks id = .ok next
      ∧ Refines callbacks next (Bag.empty bag.counted : Bag (Quotient keys)) := by
  obtain ⟨emptied, removed, start⟩ := refines.removeAllData
  obtain ⟨entries, map, describes, tallies⟩ := start.tallied
  obtain ⟨chains, holds, -, same⟩ := describes.contains
  have counted : chains.flatten.length = 0 := by
    rw [← holds.counted, start.keyCount_eq]
    rfl
  have nothing := List.length_eq_zero_iff.mp counted
  obtain ⟨next, ran, rfl⟩ := @WiDictionary.each_ok _ _ callbacks chains (WiSet κ) (fun set => set.table)
    (fun set entry => set.addData callbacks entry.key) (fun _ current => current = emptied)
    (fun _ _ same => same ▸ holds)
    (fun done link rest current split => by rw [nothing] at split; simp at split) emptied rfl
  refine ⟨next, ?_, start⟩
  simp only [WiSet.mutableSetSet, removed, bind, Except.bind]
  exact ran

/-- A copy has the same bag. -/
theorem Refines.copy (refines : Refines callbacks source other) (lawful : callbacks.Lawful keys)
    : ∃ next, source.copy callbacks = .ok next ∧ Refines callbacks next other := by
  obtain ⟨entries, map, describes, tallies⟩ := refines.tallied
  have start := @refines_init _ keys callbacks _ source.table.keyCount source.counted
  obtain ⟨next, after, ran, refinesNext, counted, counts⟩ := @Refines.fill _ _ _ _ _ _ _ _
    source.counted describes
    (fun setCopy entry => WiSet.addDataTimes callbacks entry.key entry.count setCopy)
    (fun data => other.all.count data) (by
      intro entry current bag here own isCounted absent
      obtain ⟨next, ran, refinesNext⟩ := own.addDataTimes lawful entry.key entry.count
      have tally := tallies ⟦entry.key⟧
      rw [here] at tally
      obtain ⟨times, succ⟩ : ∃ times, entry.count = times + 1 :=
        ⟨entry.count - 1, (Nat.sub_add_cancel tally.1).symm⟩
      refine ⟨next, _, ran, refinesNext, (Bag.counted_addTimes _ _ _).trans isCounted, fun data => ?_⟩
      rw [succ, Bag.count_addTimes, absent, Nat.zero_add, ← succ]
      split
      · rename_i same
        rw [same, tally.2, isCounted, refines.counted]
        rfl
      · rfl) start
  have same : after = other := by
    refine Bag.ext_all (counted.trans refines.counted) (Multiset.ext.mpr fun data => ?_)
    rw [counts]
    split
    · rfl
    · rename_i none
      rw [(tallies data).isSome_iff] at none
      exact (Nat.eq_zero_of_not_pos none).symm
  exact ⟨next, ran, same ▸ refinesNext⟩

/-- The comparison of sets comes to whether their bags have the same elements, however often. -/
theorem Refines.isEqual (refines : Refines callbacks set bag)
    (refines' : Refines callbacks source other) (lawful : callbacks.Lawful keys)
    : set.isEqual callbacks source = .ok (decide (bag.all.toFinset = other.all.toFinset)) := by
  rw [WiSet.isEqual, refines.keyCount_eq, refines'.keyCount_eq]
  by_cases count : bag.all.toFinset.card = other.all.toFinset.card
  · obtain ⟨entries, map, describes, tallies⟩ := refines.tallied
    obtain ⟨⟨chains, holds, -, same⟩, listed⟩ := describes
    have lists : Lists (WiDictionary.pairs keys (chains.flatten.map Prod.snd)) map :=
      listed.perm (same.map _).symm
    have once := WiDictionary.eachOnce_of_lists lists
    have present (data : Quotient keys) : data ∈ bag.all
        ↔ data ∈ chains.flatten.map fun link => ⟦link.2.key⟧ := by
      rw [once.mem, (tallies data).isSome_iff, Multiset.count_pos]
    rw [if_neg (not_not.mpr count), holds.each_all fun entry => refines'.containsData lawful entry.key]
    refine congrArg _ (Bool.eq_iff_iff.mpr ?_)
    rw [decide_eq_true_iff, List.all_eq_true]
    constructor
    · intro all
      refine Finset.eq_of_subset_of_card_le (fun data member => ?_) count.ge
      rw [Multiset.mem_toFinset, present] at member
      obtain ⟨link, inChains, rfl⟩ := List.mem_map.mp member
      exact Multiset.mem_toFinset.mpr (of_decide_eq_true (all link inChains))
    · intro equal link inChains
      have member := (present _).mpr (List.mem_map.mpr ⟨link, inChains, rfl⟩)
      rw [← Multiset.mem_toFinset, equal, Multiset.mem_toFinset] at member
      exact decide_eq_true member
  · rw [if_pos count]
    refine congrArg _ (Eq.symm (decide_eq_false fun equal => count (congrArg Finset.card equal)))

end Loops

end WiSet

end WiredServer.Collections
