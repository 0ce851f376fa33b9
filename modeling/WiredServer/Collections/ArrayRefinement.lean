import Mathlib
import WiredServer.Collections.ArrayContents
import WiredServer.Lib.Machine

/-! Arrays refine lists. An array and a list that go through the same operations hold the same entries,
except that a removal may cut the slots below the entries: it leaves at most 16777213 slots when
there are three times as many slots as entries, however many entries there are.
-/

namespace WiredServer.Collections

open Loop

variable {α : Type}

namespace WiArray

-----------------------------------------------------------------------------------------
-- Removals
-----------------------------------------------------------------------------------------

/-- A removal that leaves so many entries cuts the slots below them. -/
def Trims (array : WiArray α) (count : ℕ) : Prop :=
  3 * count ≤ array.itemsCount ∧ array.minCount < array.itemsCount ∧ arrayMaxCount < count

/-- The array has fewer slots than it counts entries. -/
def Overfull (array : WiArray α) : Prop :=
  array.items.length = array.itemsCount ∧ array.itemsCount < array.dataCount

section Removals

variable {array : WiArray α} {contents : List (Option α)}

/-- An array that is overfull holds no list. -/
theorem Overfull.not_sound (overfull : array.Overfull) : ¬array.Sound contents := by
  rintro ⟨nodes, holds⟩
  exact absurd holds.dataCount_le (not_le.mpr overfull.2)

/-- No removal from an array that is overfull stays inside the slots. -/
theorem Overfull.removeDataAtIndex (overfull : array.Overfull) {index : ℕ} {next : WiArray α}
    : array.mutableRemoveDataAtIndex index ≠ .ok (some next) := by
  obtain ⟨allocated, overfull⟩ := overfull
  intro ran
  unfold WiArray.mutableRemoveDataAtIndex at ran
  split at ran
  · obtain ⟨item, slot, ran⟩ := Fallible.bind_eq_ok.mp ran
    obtain ⟨removed, removes, ran⟩ := Fallible.bind_eq_ok.mp ran
    obtain ⟨items, stored, ran⟩ := Fallible.bind_eq_ok.mp ran
    have same : removed.items = array.items ∧ removed.dataCount = array.dataCount := by
      obtain ⟨pool, -, removes⟩ := Fallible.bind_eq_ok.mp removes
      cases removes
      exact ⟨rfl, rfl⟩
    obtain ⟨within, length⟩ : index < array.items.length ∧ items.length = array.items.length := by
      rw [same.1] at stored
      unfold Slots.store at stored
      split at stored
      · rename_i within
        cases stored
        exact ⟨within, List.length_set⟩
      · cases stored
    rw [same.2] at ran
    have inner : index ≠ array.dataCount - 1 := by omega
    have beyond : Slots.move items index (index + 1) (array.dataCount - index - 1) = none := by
      refine if_neg ?_
      omega
    simp only [inner, ne_eq, not_false_eq_true, if_true, beyond, inside_none, bind, Except.bind,
      reduceCtorEq] at ran
  · cases ran

/-- A removal takes the entry out of the list, before the slots are checked. -/
theorem HoldsBeside.removeDataAtIndex {nodes : List ℕ} (holds : array.Holds nodes contents)
    {index : ℕ} (within : index < contents.length)
    : ∃ (removed : WiArray α) (nodes' : List ℕ),
      array.mutableRemoveDataAtIndex index = .ok (some removed.checkOptimize)
      ∧ removed.Holds nodes' (contents.eraseIdx index)
      ∧ removed.itemsCount = array.itemsCount ∧ removed.minCount = array.minCount := by
  obtain ⟨before, after, node, first, rest, entry, place⟩ := holds.exists_at within
  obtain ⟨pool, removes, owns, others⟩ := holds.removeItem place
  obtain ⟨more, slots⟩ := holds.slots
  have slot := holds.itemAt place.nodes
  rw [place.length_before] at slot
  have counted : array.dataCount = before.length + after.length + 1 := by
    rw [holds.counted, place.nodes, List.length_append, List.length_cons]
    omega
  have spot : index = (before.map some).length := by simp [place.length_before]
  have stores : Slots.store array.items index none
      = some (before.map some ++ none :: (after.map some ++ more)) := by
    have split : nodes.map some ++ more
        = before.map some ++ some node :: (after.map some ++ more) := by simp [place.nodes]
    rw [slots, split, spot]
    exact Slots.store_append
  have valid : index < array.dataCount := holds.dataCount_eq ▸ within
  have ran : array.mutableRemoveDataAtIndex index = .ok (some { array with
      pool
      items := before.map some ++ after.map some ++ none :: more
      dataCount := array.dataCount - 1 }.checkOptimize) := by
    by_cases last : index = array.dataCount - 1
    · have nothing : after = [] := by
        refine List.length_eq_zero_iff.mp ?_
        rw [counted, ← place.length_before] at last
        omega
      have final : ¬index ≠ array.dataCount - 1 := not_not.mpr last
      simp only [WiArray.mutableRemoveDataAtIndex, valid, if_true, slot, removes, stores,
        inside_some, bind, Except.bind, final, if_false, nothing, List.map_nil, List.nil_append,
        List.append_nil]
    · have down := @Slots.store_move_down _ (before.map some) (after.map some) more none none
      have left : (after.map some).length = array.dataCount - index - 1 := by
        rw [List.length_map, counted, ← place.length_before]
        omega
      have behind : (before.map some).length + (after.map some).length = array.dataCount - 1 := by
        rw [List.length_map, List.length_map, counted]
        omega
      rw [behind, ← spot, left, List.append_assoc, List.cons_append] at down
      obtain ⟨items, moves, clears⟩ := Option.bind_eq_some_iff.mp down
      simp only [WiArray.mutableRemoveDataAtIndex, valid, if_true, slot, removes, stores,
        inside_some, bind, Except.bind, last, ne_eq, not_false_eq_true, moves, clears]
  have length := holds.allocated
  rw [slots, place.nodes] at length
  refine ⟨{ array with
      pool
      items := before.map some ++ after.map some ++ none :: more
      dataCount := array.dataCount - 1 },
    before ++ after, ran, ?_, rfl, rfl⟩
  have reads (list : List ℕ) (part : ∀ other ∈ list, other ∈ before ++ after)
      : list.map pool.read = list.map array.pool.read :=
    List.map_congr_left fun other member => others other (part other member)
  have erased : contents.eraseIdx index = first ++ rest := by
    rw [place.contents, List.eraseIdx_append_of_length_le (by rw [place.length_first]),
      place.length_first, Nat.sub_self, List.eraseIdx_cons_zero]
  rw [erased]
  exact {
    slots := ⟨none :: more, by simp⟩
    counted := by
      simp only [counted, List.length_append]
      omega
    allocated := by
      rw [← length]
      simp only [List.length_append, List.length_cons, List.length_map]
      omega
    positive := holds.positive
    least := holds.least
    stored := by
      rw [List.map_append, List.map_append, reads before fun other => List.mem_append_left _,
        reads after fun other => List.mem_append_right _, place.before, place.after]
    owns := owns }

/-- The check of the slots cuts them below the entries, or keeps what the array holds. -/
theorem HoldsBeside.checkOptimize {nodes : List ℕ} (holds : array.Holds nodes contents)
    : (array.Trims array.dataCount → array.checkOptimize.Overfull)
      ∧ (¬array.Trims array.dataCount → array.checkOptimize.Holds nodes contents
        ∧ array.checkOptimize.minCount = array.minCount
        ∧ (array.checkOptimize.itemsCount = array.itemsCount ∨ array.dataCount ≤ arrayMaxCount)) := by
  have room := holds.dataCount_le
  have positive := holds.positive
  have few : ¬(array.dataCount ≥ 3 * array.itemsCount ∧ array.itemsCount < arrayMaxCount) := by
    omega
  unfold WiArray.checkOptimize
  simp only [few, or_false]
  split
  · rename_i wide
    refine ⟨fun trims => ⟨?_, ?_⟩, fun keeps => ?_⟩
    · exact Slots.length_resize _ _ _
    · have large : clamp array.dataCount array.minCount arrayMaxCount = arrayMaxCount :=
        if_pos trims.2.2
      change clamp array.dataCount array.minCount arrayMaxCount < array.dataCount
      rw [large]
      exact trims.2.2
    · have small : array.dataCount ≤ arrayMaxCount := by
        by_contra large
        exact keeps ⟨wide.1, wide.2, not_le.mp large⟩
      have enough : array.dataCount ≤ clamp array.dataCount array.minCount arrayMaxCount := by
        unfold clamp
        split_ifs <;> omega
      have left : 0 < clamp array.dataCount array.minCount arrayMaxCount := by
        have least := holds.least
        unfold clamp
        split_ifs <;> omega
      exact ⟨holds.resize left enough, rfl, .inr small⟩
  · rename_i narrow
    refine ⟨fun trims => absurd ⟨trims.1, trims.2.1⟩ narrow, fun _ => ⟨holds, rfl, .inl rfl⟩⟩

/-- A removal that does not cut the slots takes the entry out of the list. -/
theorem Sound.mutableRemoveDataAtIndex (sound : array.Sound contents) {index : ℕ}
    (within : index < contents.length) (keeps : ¬array.Trims (array.dataCount - 1))
    : ∃ next, array.mutableRemoveDataAtIndex index = .ok (some next)
      ∧ next.Sound (contents.eraseIdx index) ∧ next.minCount = array.minCount
      ∧ (next.itemsCount = array.itemsCount ∨ next.dataCount ≤ arrayMaxCount) := by
  obtain ⟨nodes, holds⟩ := sound
  obtain ⟨removed, nodes', ran, own, slots, least⟩ := holds.removeDataAtIndex within
  have counted : removed.dataCount = array.dataCount - 1 := by
    rw [own.dataCount_eq, holds.dataCount_eq, List.length_eraseIdx_of_lt within]
  have keeps' : ¬removed.Trims removed.dataCount := by
    rw [counted, Trims, slots, least]
    exact keeps
  obtain ⟨kept, least', slots'⟩ := own.checkOptimize.2 keeps'
  refine ⟨_, ran, ⟨nodes', kept⟩, least'.trans least, ?_⟩
  rw [kept.dataCount_eq, ← own.dataCount_eq, ← slots]
  exact slots'

/-- A removal that cuts the slots leaves fewer of them than entries. -/
theorem Sound.overfull_of_trims (sound : array.Sound contents) {index : ℕ}
    (within : index < contents.length) (trims : array.Trims (array.dataCount - 1))
    : ∃ next, array.mutableRemoveDataAtIndex index = .ok (some next) ∧ next.Overfull := by
  obtain ⟨nodes, holds⟩ := sound
  obtain ⟨removed, nodes', ran, own, slots, least⟩ := holds.removeDataAtIndex within
  have counted : removed.dataCount = array.dataCount - 1 := by
    rw [own.dataCount_eq, holds.dataCount_eq, List.length_eraseIdx_of_lt within]
  refine ⟨_, ran, own.checkOptimize.1 ?_⟩
  rw [counted, Trims, slots, least]
  exact trims

/-- Taking the entry of an index out as often as a range is long leaves what is before and behind it. -/
theorem eraseIdx_range (contents : List (Option α)) {location length : ℕ}
    (within : location + (length + 1) ≤ contents.length)
    : (contents.eraseIdx location).take location
        ++ (contents.eraseIdx location).drop (location + length)
      = contents.take location ++ contents.drop (location + (length + 1)) := by
  have front : (contents.take location).length = location := by simp; omega
  have behind : contents.eraseIdx location
      = contents.take location ++ contents.drop (location + 1) := List.eraseIdx_eq_take_drop_succ ..
  have beyond : (contents.take location).drop (location + length) = [] :=
    List.drop_eq_nil_of_le (by omega)
  have left : location + 1 + (location + length - location) = location + (length + 1) := by omega
  rw [behind, List.take_left' front, List.drop_append, front, beyond, List.nil_append,
    List.drop_drop, left]

/-- No removal of a range cuts the slots below the entries. -/
def KeepsRange (array : WiArray α) (length : ℕ) : Prop :=
  ∀ count < array.dataCount, array.dataCount ≤ count + length → ¬array.Trims count

/-- After a first removal that does not cut the slots, those that are left keep them exactly when they
did before it.
-/
theorem keepsRange_succ {next : WiArray α} {length : ℕ} (nonempty : 0 < array.dataCount)
    (counted : next.dataCount = array.dataCount - 1) (least : next.minCount = array.minCount)
    (slots : next.itemsCount = array.itemsCount ∨ next.dataCount ≤ arrayMaxCount)
    : array.KeepsRange (length + 1)
      ↔ ¬array.Trims (array.dataCount - 1) ∧ next.KeepsRange length := by
  have same {count : ℕ} (below : count < next.dataCount)
      : next.Trims count ↔ array.Trims count := by
    unfold Trims
    rw [least]
    rcases slots with slots | slots
    · rw [slots]
    · omega
  constructor
  · intro keeps
    refine ⟨keeps _ (by omega) (by omega), fun count below above trims => ?_⟩
    exact keeps count (by omega) (by omega) ((same below).mp trims)
  · rintro ⟨first, later⟩ count below above trims
    by_cases last : count = array.dataCount - 1
    · exact first (last ▸ trims)
    · have below' : count < next.dataCount := by omega
      exact later count below' (by omega) ((same below').mpr trims)

/-- A range that is removed without cutting the slots is taken out of the list, and one that cuts them
does not leave an array that holds a list. By induction on the length of the range.
-/
theorem Sound.mutableRemoveDataInRange {location length : ℕ} (sound : array.Sound contents)
    (within : length = 0 ∨ location + length ≤ contents.length)
    : (array.KeepsRange length
        → ∃ next, mutableRemoveDataInRange location length array = .ok (some next)
          ∧ next.Sound (contents.take location ++ contents.drop (location + length)))
      ∧ (¬array.KeepsRange length
        → ∀ next, mutableRemoveDataInRange location length array = .ok (some next)
          → next.Overfull) := by
  induction length generalizing array contents with
  | zero =>
      refine ⟨fun _ => ⟨array, rfl, by simpa using sound⟩, fun cuts => absurd ?_ cuts⟩
      intro count below above
      omega
  | succ length ih =>
      have room : location + (length + 1) ≤ contents.length := by omega
      have inside : location < contents.length := by omega
      have counted : array.dataCount = contents.length := by
        obtain ⟨nodes, holds⟩ := sound
        exact holds.dataCount_eq
      by_cases trims : array.Trims (array.dataCount - 1)
      · obtain ⟨next, ran, overfull⟩ := sound.overfull_of_trims inside trims
        refine ⟨fun keeps => absurd trims (keeps _ (by omega) (by omega)), fun _ last ran' => ?_⟩
        simp only [WiArray.mutableRemoveDataInRange, ran, bind, Except.bind] at ran'
        cases length with
        | zero =>
            cases ran'
            exact overfull
        | succ length =>
            obtain ⟨other, ran'', rest⟩ := Fallible.bind_eq_ok.mp ran'
            cases other with
            | none => cases rest
            | some other => exact absurd ran'' overfull.removeDataAtIndex
      · obtain ⟨next, ran, soundNext, least, slots⟩ :=
          sound.mutableRemoveDataAtIndex inside trims
        have countedNext : next.dataCount = array.dataCount - 1 := by
          obtain ⟨nodes, holds⟩ := soundNext
          rw [holds.dataCount_eq, List.length_eraseIdx_of_lt inside, counted]
        have remaining : length = 0 ∨ location + length ≤ (contents.eraseIdx location).length := by
          rw [List.length_eraseIdx_of_lt inside]
          omega
        have later := ih soundNext remaining
        rw [keepsRange_succ (by omega) countedNext least slots, and_iff_right trims]
        simp only [WiArray.mutableRemoveDataInRange, ran, bind, Except.bind]
        rw [eraseIdx_range contents room] at later
        exact later

/-- Removing all data leaves no entry, and slots that an empty array is allowed. -/
theorem Sound.removeAllData (sound : array.Sound contents)
    : ∃ next, array.removeAllData = .ok next ∧ next.Sound [] := by
  obtain ⟨nodes, holds⟩ := sound
  have emptied (before after : List ℕ) (current : WiArray α) (split : nodes = before ++ after)
      (slots : ∃ rest, current.items = nodes.map some ++ rest) (owns : current.pool.Owns after)
      : ∃ pool, removeItems (List.range' before.length after.length) current
          = .ok { current with pool } ∧ pool.Owns [] := by
    induction after generalizing before current with
    | nil => exact ⟨current.pool, rfl, owns⟩
    | cons node after ih =>
        obtain ⟨rest, same⟩ := slots
        have found : current.items[before.length]? = some (some node) := by
          rw [same, split]
          simp
        have slot : current.itemAt before.length = .ok node := by
          simp only [WiArray.itemAt, found, inside_some, bind, Except.bind]
        obtain ⟨pool, written, own, -⟩ := owns.write List.mem_cons_self none
        have removed : current.removeItem node = .ok { current with pool := pool.release node } := by
          simp only [WiArray.removeItem, written, inside_some, bind, Except.bind]
        obtain ⟨pool', ran, own'⟩ := ih (before ++ [node]) { current with pool := pool.release node }
          (by simp [split]) ⟨rest, same⟩ own.release
        refine ⟨pool', ?_, own'⟩
        rw [List.length_append, List.length_singleton] at ran
        rw [List.length_cons, List.range'_succ, WiArray.removeItems, slot]
        simp only [bind, Except.bind, removed, ran]
  obtain ⟨pool, ran, owns⟩ := emptied [] nodes array rfl holds.slots holds.owns
  have empty : { array with pool, dataCount := 0 }.Holds [] [] := {
    slots := ⟨array.items, rfl⟩
    counted := rfl
    allocated := holds.allocated
    positive := holds.positive
    least := holds.least
    stored := rfl
    owns := owns }
  have few : ¬{ array with pool, dataCount := 0 }.Trims 0 := fun trims => absurd trims.2.2 (by simp)
  refine ⟨_, ?_, [], (empty.checkOptimize.2 few).1⟩
  rw [WiArray.removeAllData, holds.counted, List.range_eq_range']
  rw [List.length_nil] at ran
  simp only [bind, Except.bind, ran]

end Removals

-----------------------------------------------------------------------------------------
-- Operations
-----------------------------------------------------------------------------------------

/-- An operation on an array. Another array whose data is added is given by its number. -/
inductive ArrayOperation (α : Type) where
  | add (data : Option α)
  | addSorted (data : Option α) (compare : Option α → Option α → Int)
  | addArray (source : ℕ)
  | insert (data : Option α) (index : ℕ)
  | replace (data : Option α) (index : ℕ)
  | remove (data : Option α)
  | removeAt (index : ℕ)
  | removeRange (location length : ℕ)
  | removeAll
  | sort (compare : Option α → Option α → Int)

namespace ArrayOperation

/-- The sorting of the standard library. -/
abbrev Qsort (α : Type) : Type :=
  (Option α → Option α → Int) → List (Option α) → List (Option α)

/-- What an operation does to one of the arrays. -/
def onArray (callbacks : ArrayCallbacks α) (qsort : Qsort α) (arrays : ℕ → WiArray α) (target : ℕ)
    : ArrayOperation α → Access (Option (WiArray α))
  | .add data => (arrays target).mutableAddData data
  | .addSorted data compare => (arrays target).mutableAddDataSorted callbacks data compare
  | .addArray source => (arrays target).mutableAddDataFromArray fun current =>
      if source = target then current else arrays source
  | .insert data index => (arrays target).mutableInsertDataAtIndex callbacks data index
  | .replace data index => (arrays target).mutableReplaceDataAtIndex callbacks data index
  | .remove data => (arrays target).mutableRemoveData callbacks data
  | .removeAt index => (arrays target).mutableRemoveDataAtIndex index
  | .removeRange location length => mutableRemoveDataInRange location length (arrays target)
  | .removeAll => do
      let next ← (arrays target).removeAllData
      .ok (some next)
  | .sort compare => do
      let next ← (arrays target).mutableSort qsort compare
      .ok (some next)

/-- The same operation on a list, where an operation that the code asserts against is impossible. -/
def onList (callbacks : ArrayCallbacks α) (qsort : Qsort α) (lists : ℕ → List (Option α))
    (target : ℕ)
    : ArrayOperation α → Option (List (Option α))
  | .add data => if data.isNone then none else some (lists target ++ [data])
  | .addSorted data compare =>
      if callbacks.retains && data.isNone then none
      else some ((lists target).takeWhile (fun other => ¬compare data other < 0)
        ++ data :: (lists target).dropWhile (fun other => ¬compare data other < 0))
  | .addArray source => some (lists target ++ lists source)
  | .insert data index =>
      if index < (lists target).length ∧ ¬(callbacks.retains && data.isNone) then
        some ((lists target).insertIdx index data)
      else none
  | .replace data index =>
      if index < (lists target).length ∧ ¬(callbacks.retains && data.isNone) then
        some ((lists target).set index data)
      else none
  | .remove data =>
      if callbacks.releases && data.isNone then none
      else some ((lists target).eraseP (callbacks.isEqual · data))
  | .removeAt index =>
      if index < (lists target).length then some ((lists target).eraseIdx index) else none
  | .removeRange location length =>
      if length = 0 ∨ location + length ≤ (lists target).length then
        some ((lists target).take location ++ (lists target).drop (location + length))
      else none
  | .removeAll => some []
  | .sort compare => some (qsort compare (lists target))

/-- The condition on an array under which an operation does not cut its slots below the entries. -/
def KeepsRoom (callbacks : ArrayCallbacks α) (array : WiArray α) : ArrayOperation α → Prop
  | .remove data => ∀ index, array.indexOfData callbacks data = .ok (some index) →
      ¬array.Trims (array.dataCount - 1)
  | .removeAt _ => ¬array.Trims (array.dataCount - 1)
  | .removeRange _ length => array.KeepsRange length
  | _ => True

section Steps

variable {callbacks : ArrayCallbacks α} {qsort : Qsort α} {arrays : ℕ → WiArray α}
variable {lists : ℕ → List (Option α)} {target : ℕ} {next' : List (Option α)}

/-- The data of an array is added to another or to itself. -/
theorem addArray_spec (sound : ∀ i, (arrays i).Sound (lists i)) (source : ℕ)
    : ∃ next, onArray callbacks qsort arrays target (.addArray source) = .ok (some next)
      ∧ next.Sound (lists target ++ lists source) := by
  have start : (arrays target).Sound (lists target ++ []) := by simpa using sound target
  have kept {current : WiArray α} {list : List (Option α)} (grown : lists target <+: list)
      (own : current.Sound list)
      : ∃ more, (if source = target then current else arrays source).Sound
          (lists source ++ more) := by
    split
    · rename_i same
      obtain ⟨more, rfl⟩ := grown
      exact ⟨more, same ▸ own⟩
    · exact ⟨[], by simpa using sound source⟩
  have counted : (if source = target then arrays target else arrays source).dataCount
      = (lists source).length := by
    have same : (if source = target then arrays target else arrays source) = arrays source := by
      split
      · rename_i same
        rw [same]
      · rfl
    obtain ⟨nodes, holds⟩ := sound source
    rw [same, holds.dataCount_eq]
  obtain ⟨next, ran, own⟩ := Sound.addDataFromArray kept (List.nil_append _).symm start
  refine ⟨next, ?_, own⟩
  rw [onArray, mutableAddDataFromArray, counted, List.range_eq_range']
  exact ran

/-- An operation that is possible on the list and keeps the room of the array does the same to both. -/
theorem onArray_of_keepsRoom (perm : ∀ compare list, (qsort compare list).Perm list)
    (sound : ∀ i, (arrays i).Sound (lists i)) {operation : ArrayOperation α}
    (possible : operation.onList callbacks qsort lists target = some next')
    (keeps : operation.KeepsRoom callbacks (arrays target))
    : ∃ next, operation.onArray callbacks qsort arrays target = .ok (some next)
      ∧ next.Sound next' := by
  have counted : (arrays target).dataCount = (lists target).length := by
    obtain ⟨nodes, holds⟩ := sound target
    exact holds.dataCount_eq
  cases operation with
  | add data =>
      obtain ⟨given, same⟩ := Option.ite_none_left_eq_some.mp possible
      cases same
      obtain ⟨next, ran, own⟩ := (sound target).addData data
      refine ⟨next, ?_, own⟩
      simp only [onArray, WiArray.mutableAddData, given, ran, bind, Except.bind, Bool.false_eq_true,
        if_false]
  | addSorted data compare =>
      obtain ⟨given, same⟩ := Option.ite_none_left_eq_some.mp possible
      cases same
      obtain ⟨nodes, holds⟩ := sound target
      obtain ⟨item, with', created, beside, read, -, -⟩ := holds.createItem data
      have whole : with'.HoldsBeside [item] nodes ([] ++ lists target) := beside
      obtain ⟨next, ran, own⟩ := whole.addItemSorted compare read
      refine ⟨next, ?_, own⟩
      rw [List.length_nil, ← beside.dataCount_eq, ← List.range_eq_range'] at ran
      simp only [onArray, WiArray.mutableAddDataSorted, given, created, ran, bind, Except.bind,
        Bool.false_eq_true, if_false]
  | addArray source =>
      cases possible
      exact addArray_spec sound source
  | insert data index =>
      obtain ⟨⟨within, given⟩, same⟩ := Option.ite_none_right_eq_some.mp possible
      cases same
      obtain ⟨next, ran, own⟩ := (sound target).insertDataAtIndex data within
      refine ⟨next, ?_, own⟩
      obtain ⟨⟨item, with'⟩, created, inserted⟩ := Fallible.bind_eq_ok.mp ran
      simp only [onArray, WiArray.mutableInsertDataAtIndex, counted, within, given, created,
        if_true, if_false, bind, Except.bind, inserted, Bool.false_eq_true]
  | replace data index =>
      obtain ⟨⟨within, given⟩, same⟩ := Option.ite_none_right_eq_some.mp possible
      cases same
      obtain ⟨next, ran, own⟩ := (sound target).replaceDataAtIndex data within
      refine ⟨next, ?_, own⟩
      obtain ⟨⟨item, with'⟩, created, rest⟩ := Fallible.bind_eq_ok.mp ran
      obtain ⟨old, slot, rest⟩ := Fallible.bind_eq_ok.mp rest
      obtain ⟨removed, removes, rest⟩ := Fallible.bind_eq_ok.mp rest
      obtain ⟨items, stored, rest⟩ := Fallible.bind_eq_ok.mp rest
      cases rest
      simp only [onArray, WiArray.mutableReplaceDataAtIndex, counted, within, given, created, slot,
        removes, stored, if_true, if_false, bind, Except.bind, Bool.false_eq_true]
  | remove data =>
      obtain ⟨given, same⟩ := Option.ite_none_left_eq_some.mp possible
      cases same
      have found : (arrays target).indexOfData callbacks data
          = .ok ((lists target).findIdx? (callbacks.isEqual · data)) := by
        obtain ⟨nodes, holds⟩ := sound target
        exact holds.indexOfData callbacks data
      simp only [onArray, WiArray.mutableRemoveData, given, found, bind, Except.bind,
        Bool.false_eq_true, if_false]
      rw [List.eraseP_eq_eraseIdx]
      cases place : (lists target).findIdx? (callbacks.isEqual · data) with
      | none => exact ⟨_, rfl, sound target⟩
      | some index =>
          rw [place] at found
          obtain ⟨within, -⟩ := List.findIdx?_eq_some_iff_getElem.mp place
          obtain ⟨next, ran, own, -⟩ :=
            (sound target).mutableRemoveDataAtIndex within (keeps index found)
          exact ⟨next, ran, own⟩
  | removeAt index =>
      obtain ⟨within, same⟩ := Option.ite_none_right_eq_some.mp possible
      cases same
      obtain ⟨next, ran, own, -⟩ := (sound target).mutableRemoveDataAtIndex within keeps
      exact ⟨next, ran, own⟩
  | removeRange location length =>
      obtain ⟨within, same⟩ := Option.ite_none_right_eq_some.mp possible
      cases same
      exact ((sound target).mutableRemoveDataInRange within).1 keeps
  | removeAll =>
      cases possible
      obtain ⟨next, ran, own⟩ := (sound target).removeAllData
      exact ⟨next, by simp only [onArray, ran, bind, Except.bind], own⟩
  | sort compare =>
      cases possible
      obtain ⟨next, ran, own⟩ := (sound target).sort compare (perm compare (lists target))
      exact ⟨next, by simp only [onArray, ran, bind, Except.bind], own⟩

/-- An operation that is possible on the list and cuts the slots leaves fewer of them than entries. -/
theorem overfull_of_not_keepsRoom (sound : ∀ i, (arrays i).Sound (lists i))
    {operation : ArrayOperation α}
    (possible : operation.onList callbacks qsort lists target = some next')
    (cuts : ¬operation.KeepsRoom callbacks (arrays target)) {next : WiArray α}
    (ran : operation.onArray callbacks qsort arrays target = .ok (some next))
    : next.Overfull := by
  cases operation with
  | remove data =>
      obtain ⟨given, -⟩ := Option.ite_none_left_eq_some.mp possible
      have found : (arrays target).indexOfData callbacks data
          = .ok ((lists target).findIdx? (callbacks.isEqual · data)) := by
        obtain ⟨nodes, holds⟩ := sound target
        exact holds.indexOfData callbacks data
      unfold KeepsRoom at cuts
      push Not at cuts
      obtain ⟨index, at', trims⟩ := cuts
      have same : (lists target).findIdx? (callbacks.isEqual · data) = some index :=
        Except.ok.inj (found.symm.trans at')
      obtain ⟨within, -⟩ := List.findIdx?_eq_some_iff_getElem.mp same
      obtain ⟨after, ran', overfull⟩ := (sound target).overfull_of_trims within trims
      simp only [onArray, WiArray.mutableRemoveData, given, at', ran', bind, Except.bind,
        Bool.false_eq_true, if_false] at ran
      cases ran
      exact overfull
  | removeAt index =>
      obtain ⟨within, -⟩ := Option.ite_none_right_eq_some.mp possible
      obtain ⟨after, ran', overfull⟩ :=
        (sound target).overfull_of_trims within (not_not.mp cuts)
      cases ran.symm.trans ran'
      exact overfull
  | removeRange location length =>
      obtain ⟨within, -⟩ := Option.ite_none_right_eq_some.mp possible
      exact ((sound target).mutableRemoveDataInRange within).2 cuts next ran
  | _ => exact absurd trivial cuts

end Steps

-----------------------------------------------------------------------------------------
-- Runs
-----------------------------------------------------------------------------------------

/-- An operation on one of the arrays. It is impossible if it ends the process or leaves a block. -/
def stepArrays (callbacks : ℕ → ArrayCallbacks α) (qsort : Qsort α)
    (operation : ℕ × ArrayOperation α) (arrays : ℕ → WiArray α)
    : Option (ℕ → WiArray α) :=
  match operation.2.onArray (callbacks operation.1) qsort arrays operation.1 with
  | .ok (some next) => some (Function.update arrays operation.1 next)
  | _ => none

/-- The operation on the list of the same number. -/
def stepLists (callbacks : ℕ → ArrayCallbacks α) (qsort : Qsort α)
    (operation : ℕ × ArrayOperation α) (lists : ℕ → List (Option α))
    : Option (ℕ → List (Option α)) :=
  (operation.2.onList (callbacks operation.1) qsort lists operation.1).map
    (Function.update lists operation.1)

/-- The array has the entries of the list, and has allocated the slots it counts and no fewer than there
are entries.
-/
structure Represents (array : WiArray α) (list : List (Option α)) : Prop where
  entries : array.getData = .ok list
  counted : array.dataCount = list.length
  room : array.dataCount ≤ array.itemsCount
  allocated : array.items.length = array.itemsCount

/-- A sound array represents its list. -/
theorem represents_of_sound {array : WiArray α} {list : List (Option α)} (sound : array.Sound list)
    : Represents array list := by
  obtain ⟨nodes, holds⟩ := sound
  exact ⟨holds.getData, holds.dataCount_eq, holds.dataCount_le, holds.allocated⟩

/-- The operation does not cut the slots of its array below the entries. -/
def KeepsRoomOf (callbacks : ℕ → ArrayCallbacks α) (operation : ℕ × ArrayOperation α)
    (arrays : ℕ → WiArray α) : Prop :=
  operation.2.KeepsRoom (callbacks operation.1) (arrays operation.1)

/-- An array that is changed along with its list leaves the others sound. -/
theorem sound_update {arrays : ℕ → WiArray α} {lists : ℕ → List (Option α)}
    (sound : ∀ i, (arrays i).Sound (lists i)) {target : ℕ} {next : WiArray α}
    {next' : List (Option α)} (own : next.Sound next') (i : ℕ)
    : (Function.update arrays target next i).Sound (Function.update lists target next' i) := by
  by_cases same : i = target
  · subst same
    simpa using own
  · simpa [Function.update_of_ne same] using sound i

/-- In a run that is possible on lists, the arrays have the entries of the lists and slots for all of
them after every operation, and no operation leaves their slots, exactly when no removal cuts the
slots below the entries.
-/
theorem represents_throughout_iff (callbacks : ℕ → ArrayCallbacks α) (qsort : Qsort α)
    (perm : ∀ compare list, (qsort compare list).Perm list) (capacities : ℕ → ℕ)
    (operations : List (ℕ × ArrayOperation α)) (final : ℕ → List (Option α))
    (possible : Machine.run (stepLists callbacks qsort) operations (fun _ => []) = some final)
    : (∀ seen, seen <+: operations → ∃ arrays lists,
        Machine.run (stepArrays callbacks qsort) seen (fun i => initWithCapacity (capacities i))
          = some arrays
        ∧ Machine.run (stepLists callbacks qsort) seen (fun _ => []) = some lists
        ∧ ∀ i, Represents (arrays i) (lists i))
      ↔ Machine.Meets (stepArrays callbacks qsort) (KeepsRoomOf callbacks) operations
        (fun i => initWithCapacity (capacities i)) := by
  refine @Machine.agree_along_iff _ _ (stepArrays callbacks qsort) _
    (stepLists callbacks qsort) (fun arrays lists => ∀ i, (arrays i).Sound (lists i))
    (fun arrays lists => ∀ i, Represents (arrays i) (lists i)) (KeepsRoomOf callbacks) ?_ ?_ ?_
    operations _ _ final (fun i => ⟨[], holds_init (capacities i)⟩) possible
  · exact fun _ _ sound i => represents_of_sound (sound i)
  · intro operation arrays lists next' sound stepped keeps
    obtain ⟨list, ran', same⟩ := Option.map_eq_some_iff.mp stepped
    obtain ⟨next, ran, own⟩ := onArray_of_keepsRoom perm sound ran' keeps
    refine ⟨Function.update arrays operation.1 next, ?_, ?_⟩
    · simp only [stepArrays, ran]
    · rw [← same]
      exact sound_update sound own
  · intro operation arrays lists next next' sound stepped cuts ran agree
    obtain ⟨list, ran', same⟩ := Option.map_eq_some_iff.mp stepped
    unfold stepArrays at ran
    split at ran
    · rename_i after applied
      cases ran
      have overfull := overfull_of_not_keepsRoom sound ran' cuts applied
      have room := (agree operation.1).room
      rw [Function.update_self] at room
      exact absurd room (not_le.mpr overfull.2)
    · cases ran

/-- Operations on arrays that are not larger than the largest number of slots keep their room. -/
theorem keepsRoomOf_of_le {callbacks : ℕ → ArrayCallbacks α} {operation : ℕ × ArrayOperation α}
    {arrays : ℕ → WiArray α} (few : (arrays operation.1).dataCount ≤ arrayMaxCount)
    : KeepsRoomOf callbacks operation arrays := by
  have keeps {count : ℕ} (below : count ≤ (arrays operation.1).dataCount)
      : ¬(arrays operation.1).Trims count :=
    fun trims => absurd (below.trans few) (not_le.mpr trims.2.2)
  obtain ⟨target, operation⟩ := operation
  cases operation with
  | remove data => exact fun _ _ => keeps (Nat.sub_le _ _)
  | removeAt index => exact keeps (Nat.sub_le _ _)
  | removeRange location length => exact fun count below _ => keeps below.le
  | _ => trivial

/-- Instances of numbers, which are retained, released and compared. -/
def numbers : ArrayCallbacks ℕ where
  retains := true
  releases := true
  isEqual := fun data other => decide (data = other)

/-- Operations on two arrays, one of which is added to the other. -/
def twoArrays : List (ℕ × ArrayOperation ℕ) :=
  [(0, .add (some 1)), (0, .add (some 2)), (0, .insert (some 3) 1), (1, .addArray 0),
    (0, .removeRange 0 2), (0, .remove (some 2)), (1, .replace (some 4) 0), (1, .removeAt 2)]

theorem represents_throughout_iff_twoArrays
    : (∃ final, Machine.run (stepLists (fun _ => numbers) fun _ list => list) twoArrays
        (fun _ => []) = some final)
      ∧ (∀ seen, seen <+: twoArrays → ∃ arrays lists,
        Machine.run (stepArrays (fun _ => numbers) fun _ list => list) seen
          (fun _ => initWithCapacity 0) = some arrays
        ∧ Machine.run (stepLists (fun _ => numbers) fun _ list => list) seen (fun _ => [])
          = some lists
        ∧ ∀ i, Represents (arrays i) (lists i)) := by
  obtain ⟨final, possible⟩ : ∃ final, Machine.run
      (stepLists (fun _ => numbers) fun _ list => list) twoArrays (fun _ => []) = some final :=
    Option.isSome_iff_exists.mp (by decide)
  refine ⟨⟨final, possible⟩, ?_⟩
  refine (represents_throughout_iff (fun _ => numbers) (fun _ list => list)
    (fun _ list => List.Perm.refl list) (fun _ => 0) twoArrays final possible).mpr ?_
  have few : Machine.Meets (stepArrays (fun _ => numbers) fun _ list => list)
      (fun operation arrays => (arrays operation.1).dataCount ≤ arrayMaxCount) twoArrays
      (fun _ => initWithCapacity 0) := by decide +kernel
  exact few.mono fun _ _ => keepsRoomOf_of_le

/-- Adding the same data again and again. -/
theorem run_adds (callbacks : ℕ → ArrayCallbacks α) (qsort : Qsort α) (target : ℕ)
    {data : Option α} (given : data.isNone = false) (count : ℕ) {arrays : ℕ → WiArray α}
    {lists : ℕ → List (Option α)} (sound : ∀ i, (arrays i).Sound (lists i))
    : ∃ arrays' lists',
      Machine.run (stepArrays callbacks qsort) (List.replicate count (target, .add data)) arrays
        = some arrays'
      ∧ Machine.run (stepLists callbacks qsort) (List.replicate count (target, .add data)) lists
        = some lists'
      ∧ (∀ i, (arrays' i).Sound (lists' i))
      ∧ (arrays' target).minCount = (arrays target).minCount
      ∧ (lists' target).length = (lists target).length + count := by
  induction count generalizing arrays lists with
  | zero => exact ⟨arrays, lists, rfl, rfl, sound, rfl, rfl⟩
  | succ count ih =>
      obtain ⟨nodes, holds⟩ := sound target
      obtain ⟨item, with', created, beside, read, -, least⟩ := holds.createItem data
      obtain ⟨next, added, own, least'⟩ := beside.addItem read
      obtain ⟨arrays', lists', ran, ran', sound', least'', length⟩ :=
        @ih (Function.update arrays target next)
          (Function.update lists target (lists target ++ [data])) (sound_update sound ⟨_, own⟩)
      refine ⟨arrays', lists', Machine.run_cons.mpr ⟨_, ?_, ran⟩,
        Machine.run_cons.mpr ⟨_, ?_, ran'⟩, sound', ?_, ?_⟩
      · simp only [stepArrays, onArray, WiArray.mutableAddData, given, WiArray.addData, created,
          added, bind, Except.bind, Bool.false_eq_true, if_false]
      · simp only [stepLists, onList, given, Bool.false_eq_true, if_false, Option.map_some]
      · rw [least'', Function.update_self, least', least]
      · rw [length, Function.update_self, List.length_append, List.length_singleton]
        omega

/-- An array of three times more entries than an array can have slots after a removal, from which all
but a third are removed.
-/
def overfilled : List (ℕ × ArrayOperation ℕ) :=
  List.replicate 50331642 (0, .add (some 1)) ++ [(0, .removeRange 0 33554428)]

theorem not_represents_throughout_overfilled
    : (∃ final, Machine.run (stepLists (fun _ => numbers) fun _ list => list) overfilled
        (fun _ => []) = some final)
      ∧ ¬(∀ seen, seen <+: overfilled → ∃ arrays lists,
        Machine.run (stepArrays (fun _ => numbers) fun _ list => list) seen
          (fun _ => initWithCapacity 0) = some arrays
        ∧ Machine.run (stepLists (fun _ => numbers) fun _ list => list) seen (fun _ => [])
          = some lists
        ∧ ∀ i, Represents (arrays i) (lists i)) := by
  obtain ⟨arrays, lists, ran, ran', sound, least, length⟩ :=
    @run_adds ℕ (fun _ => numbers) (fun _ list => list) 0 (some 1) rfl 50331642
      (fun _ => initWithCapacity 0) (fun _ => []) (fun _ => ⟨[], holds_init 0⟩)
  rw [List.length_nil, Nat.zero_add] at length
  have possible : onList numbers (fun _ list => list) lists 0 (.removeRange 0 33554428)
      = some ((lists 0).take 0 ++ (lists 0).drop (0 + 33554428)) :=
    if_pos (.inr (by omega))
  have removed : stepLists (fun _ => numbers) (fun _ list => list) (0, .removeRange 0 33554428)
      lists = some (Function.update lists 0 ((lists 0).take 0 ++ (lists 0).drop (0 + 33554428))) := by
    rw [stepLists, possible, Option.map_some]
  refine ⟨⟨_, Machine.run_append.mpr ⟨lists, ran', Machine.run_cons.mpr ⟨_, removed, rfl⟩⟩⟩, ?_⟩
  intro always
  obtain ⟨last, last', whole, -, represents⟩ := always overfilled List.prefix_rfl
  obtain ⟨middle, first, whole⟩ := Machine.run_append.mp whole
  cases ran.symm.trans first
  obtain ⟨next, stepped, whole⟩ := Machine.run_cons.mp whole
  cases whole
  have counted : (arrays 0).dataCount = 50331642 := by
    obtain ⟨nodes, holds⟩ := sound 0
    rw [holds.dataCount_eq, length]
  have slots : 50331642 ≤ (arrays 0).itemsCount := by
    obtain ⟨nodes, holds⟩ := sound 0
    exact counted ▸ holds.dataCount_le
  have small : (arrays 0).minCount = 10 := by
    rw [least]
    decide +kernel
  have cuts : ¬KeepsRoom numbers (arrays 0) (.removeRange 0 33554428) := by
    intro keeps
    exact keeps 16777214 (by omega) (by omega) ⟨by omega, by omega, by decide⟩
  unfold stepArrays at stepped
  split at stepped
  · rename_i next applied
    cases stepped
    have overfull := overfull_of_not_keepsRoom sound possible cuts applied
    have room := (represents 0).room
    rw [Function.update_self] at room
    exact absurd room (not_le.mpr overfull.2)
  · cases stepped

end ArrayOperation

end WiArray

end WiredServer.Collections
