import Mathlib
import WiredServer.Collections.ArrayRefinement
import WiredServer.Collections.SortedInsertion

/-! Arrays and slices that are derived from an array. Two of the functions add to the array itself
instead of its copy, and one writes a slice behind its buffer.
-/

namespace WiredServer.Collections

open Loop WiArray.ArrayOperation

variable {α : Type}

-----------------------------------------------------------------------------------------
-- Data model
-----------------------------------------------------------------------------------------

/-- An array and the list that it holds. -/
structure SoundArray (α : Type) where
  array : WiArray α
  contents : List (Option α)
  sound : array.Sound contents

/-- An array that others are derived from, with whether it may be changed. -/
structure Receiver (α : Type) extends SoundArray α where
  isMutable : Bool

/-- A derivation with its arguments. The other array of an addition is the receiver if none is given, and
the function that sorts is a total preorder.
-/
inductive Derivation (α : Type) where
  | addingData (data : Option α)
  | addingDataFromArray (other : Option (SoundArray α))
  | sorting (compare : Option α → Option α → ℤ) (comparison : IsComparison compare)
  | subarray (location length : ℕ)
  | dataInRange (location length : ℕ)

-----------------------------------------------------------------------------------------
-- Functions
-----------------------------------------------------------------------------------------

namespace WiArray

/-- `wi_retain`, which follows the pointer that it gets. -/
def retain (isInstance : α → Bool) : Option α → Access (Option α)
  | none => .ok none
  | some data => if isInstance data then .ok (some data) else .error .outside

/-- The loop of `_wi_array_copy`. The copy has the callbacks of the array, which keeps the data already. -/
def copyItems (array : WiArray α) : List ℕ → WiArray α → Access (WiArray α)
  | [], arrayCopy => .ok arrayCopy
  | index :: indices, arrayCopy => do
      let data ← array.entryAt index
      let arrayCopy ← arrayCopy.addData data
      copyItems array indices arrayCopy

/-- `_wi_array_copy`. -/
def copy (array : WiArray α) : Access (WiArray α) :=
  copyItems array (List.range array.dataCount) (initWithCapacity array.dataCount)

/-- The loop of `wi_array_subarray_with_range`. The new array has the default callbacks, which retain the
data.
-/
def addItems (isInstance : α → Bool) (array : WiArray α)
    : List ℕ → WiArray α → Access (Option (WiArray α))
  | [], newarray => .ok (some newarray)
  | index :: indices, newarray => do
      match ← array.dataAtIndex index with
      | none => .ok none
      | some data =>
          let data ← retain isInstance data
          let newarray ← newarray.addData data
          addItems isInstance array indices newarray

/-- `wi_array_subarray_with_range`. -/
def subarrayWithRange (isInstance : α → Bool) (array : WiArray α) (location length : ℕ)
    : Access (Option (WiArray α)) :=
  if location < array.dataCount ∧ location + length - 1 < array.dataCount then
    addItems isInstance array (List.range' location length) (initWithCapacity length)
  else .ok none

/-- `wi_array_by_sorting`. -/
def bySorting (qsort : Qsort α) (array : WiArray α) (compare : Option α → Option α → ℤ)
    : Access (WiArray α) := do
  let newarray ← array.copy
  newarray.mutableSort qsort compare

/-- The loop of `wi_array_get_data_in_range`. -/
def storeRange (array : WiArray α) : List ℕ → List (Option α) → Access (List (Option α))
  | [], data => .ok data
  | index :: indices, data => do
      let entry ← array.entryAt index
      let data ← inside (Slots.store data index entry)
      storeRange array indices data

/-- `wi_array_get_data_in_range`. -/
def getDataInRange (array : WiArray α) (data : List (Option α)) (location length : ℕ)
    : Access (Option (List (Option α))) := do
  if location < array.dataCount ∧ location + length - 1 < array.dataCount then
    let data ← storeRange array (List.range' location length) data
    .ok (some data)
  else .ok none

end WiArray

namespace Receiver

/-- `wi_array_by_adding_data`: the new array and the receiver. The data is added to the receiver, which
must be mutable.
-/
def byAddingData (receiver : Receiver α) (data : Option α)
    : Access (Option (WiArray α × WiArray α)) := do
  let newarray ← receiver.array.copy
  if receiver.isMutable then
    match ← receiver.array.mutableAddData data with
    | none => .ok none
    | some array => .ok (some (newarray, array))
  else .ok none

/-- `wi_array_by_adding_data_from_array`: the new array and the receiver. -/
def byAddingDataFromArray (receiver : Receiver α) (other : Option (SoundArray α))
    : Access (Option (WiArray α × WiArray α)) := do
  let newarray ← receiver.array.copy
  if receiver.isMutable then
    match ← receiver.array.mutableAddDataFromArray fun array => (other.map (·.array)).getD array with
    | none => .ok none
    | some array => .ok (some (newarray, array))
  else .ok none

end Receiver

-----------------------------------------------------------------------------------------
-- What is derived
-----------------------------------------------------------------------------------------

/-- The sorting of the standard library sorts. -/
structure QsortSorts (qsort : Qsort α) : Prop where
  perm : ∀ {compare : Option α → Option α → ℤ} (list : List (Option α)), IsComparison compare →
    (qsort compare list).Perm list
  sorted : ∀ {compare : Option α → Option α → ℤ} (list : List (Option α)), IsComparison compare →
    (qsort compare list).Pairwise (compare · · ≤ 0)

namespace Derivation

/-- A range is not empty and lies inside the array. -/
def InRange (contents : List (Option α)) : Derivation α → Prop
  | .subarray location length => 0 < length ∧ location + length ≤ contents.length
  | .dataInRange location length => 0 < length ∧ location + length ≤ contents.length
  | _ => True

/-- The entries of a range. -/
def slice (contents : List (Option α)) (location length : ℕ) : List (Option α) :=
  (contents.drop location).take length

/-- A derivation has what it is expected to have, and leaves the receiver as it was. A buffer of the
caller has one slot for each entry of the range.
-/
def DerivesRight (isInstance : α → Bool) (qsort : Qsort α) (receiver : Receiver α)
    : Derivation α → Prop
  | .addingData data => ∃ newarray array,
      receiver.byAddingData data = .ok (some (newarray, array))
      ∧ newarray.Sound (receiver.contents ++ [data]) ∧ array.Sound receiver.contents
  | .addingDataFromArray other => ∃ newarray array,
      receiver.byAddingDataFromArray other = .ok (some (newarray, array))
      ∧ newarray.Sound (receiver.contents ++ (other.map (·.contents)).getD receiver.contents)
      ∧ array.Sound receiver.contents
  | .sorting compare _ => ∃ newarray sorted,
      receiver.array.bySorting qsort compare = .ok newarray ∧ newarray.Sound sorted
      ∧ sorted.Perm receiver.contents ∧ sorted.Pairwise (compare · · ≤ 0)
  | .subarray location length => ∃ newarray,
      receiver.array.subarrayWithRange isInstance location length = .ok (some newarray)
      ∧ newarray.Sound (slice receiver.contents location length)
  | .dataInRange location length => ∀ data : List (Option α), data.length = length →
      receiver.array.getDataInRange data location length
        = .ok (some (slice receiver.contents location length))

/-- Nothing is added where it would be added to the receiver, all data of a subarray are instances, and a
range that is copied to a buffer begins at the start.
-/
def Spares (isInstance : α → Bool) (receiver : Receiver α) : Derivation α → Prop
  | .addingData _ => False
  | .addingDataFromArray other =>
      receiver.isMutable = true ∧ (other.map (·.contents)).getD receiver.contents = []
  | .sorting _ _ => True
  | .subarray location length =>
      ∀ data, some data ∈ slice receiver.contents location length → isInstance data = true
  | .dataInRange location _ => location = 0

end Derivation

-----------------------------------------------------------------------------------------
-- Copies
-----------------------------------------------------------------------------------------

namespace WiArray

section Copies

variable {array newarray : WiArray α} {contents held : List (Option α)}

/-- An array holds no more than one list. -/
theorem Sound.unique {other : List (Option α)} (sound : array.Sound contents)
    (soundOther : array.Sound other)
    : contents = other := by
  obtain ⟨nodes, holds⟩ := sound
  obtain ⟨nodesOther, holdsOther⟩ := soundOther
  exact Except.ok.inj (holds.getData.symm.trans holdsOther.getData)

/-- An array counts the entries of its list. -/
theorem Sound.dataCount_eq (sound : array.Sound contents) : array.dataCount = contents.length := by
  obtain ⟨nodes, holds⟩ := sound
  exact holds.dataCount_eq

/-- A new array holds nothing. -/
theorem sound_init (capacity : ℕ) : (initWithCapacity capacity : WiArray α).Sound [] :=
  ⟨[], holds_init capacity⟩

/-- Entries that are copied come behind those that the copy holds, by induction on them. -/
theorem Sound.copyItems {first rest : List (Option α)} (split : contents = first ++ rest)
    (sound : array.Sound contents) (soundNew : newarray.Sound held)
    : ∃ next, WiArray.copyItems array (List.range' first.length rest.length) newarray = .ok next
      ∧ next.Sound (held ++ rest) := by
  obtain ⟨nodes, holds⟩ := sound
  induction rest generalizing first newarray held with
  | nil => exact ⟨newarray, rfl, by simpa using soundNew⟩
  | cons data rest ih =>
      have found : contents[first.length]? = some data := by simp [split]
      obtain ⟨added, ran, soundAdded⟩ := soundNew.addData data
      have split' : contents = (first ++ [data]) ++ rest := by simp [split]
      obtain ⟨next, rest, soundNext⟩ := ih split' soundAdded
      refine ⟨next, ?_, by simpa using soundNext⟩
      rw [List.length_append, List.length_singleton] at rest
      rw [List.length_cons, List.range'_succ, WiArray.copyItems, holds.entryAt found]
      simp only [bind, Except.bind, ran]
      exact rest

/-- A copy holds the list of the array. -/
theorem Sound.copy (sound : array.Sound contents)
    : ∃ next, array.copy = .ok next ∧ next.Sound contents := by
  have whole : contents = [] ++ contents := rfl
  obtain ⟨next, ran, soundNext⟩ := sound.copyItems whole (sound_init array.dataCount)
  refine ⟨next, ?_, by simpa using soundNext⟩
  rw [WiArray.copy, List.range_eq_range', sound.dataCount_eq]
  exact sound.dataCount_eq ▸ ran

/-- A sorted copy holds what the library makes of the list. -/
theorem Sound.bySorting {qsort : Qsort α} (sound : array.Sound contents)
    (compare : Option α → Option α → ℤ) (perm : (qsort compare contents).Perm contents)
    : ∃ next, array.bySorting qsort compare = .ok next ∧ next.Sound (qsort compare contents) := by
  obtain ⟨copied, ranCopy, soundCopy⟩ := sound.copy
  obtain ⟨next, ran, soundNext⟩ := soundCopy.sort compare perm
  refine ⟨next, ?_, soundNext⟩
  rw [WiArray.bySorting, ranCopy]
  exact ran

/-- The entries of another array come behind those of the array. -/
theorem Sound.mutableAddDataFromArray (sound : array.Sound contents)
    (other : Option (SoundArray α))
    : ∃ next,
      array.mutableAddDataFromArray (fun array => (other.map (·.array)).getD array) = .ok (some next)
      ∧ next.Sound (contents ++ (other.map (·.contents)).getD contents) := by
  have start : array.Sound (contents ++ []) := by simpa using sound
  have kept {current : WiArray α} {list : List (Option α)} (grown : contents <+: list)
      (own : current.Sound list)
      : ∃ more, ((other.map (·.array)).getD current).Sound
          ((other.map (·.contents)).getD contents ++ more) := by
    cases other with
    | none =>
        obtain ⟨more, rfl⟩ := grown
        exact ⟨more, own⟩
    | some other => exact ⟨[], by simpa using other.sound⟩
  have counted : ((other.map (·.array)).getD array).dataCount
      = ((other.map (·.contents)).getD contents).length := by
    cases other with
    | none => exact sound.dataCount_eq
    | some other => exact other.sound.dataCount_eq
  obtain ⟨next, ran, own⟩ := Sound.addDataFromArray kept (List.nil_append _).symm start
  refine ⟨next, ?_, own⟩
  rw [WiArray.mutableAddDataFromArray, counted, List.range_eq_range']
  exact ran

end Copies

-----------------------------------------------------------------------------------------
-- Ranges
-----------------------------------------------------------------------------------------

section Ranges

variable {array newarray : WiArray α} {contents held : List (Option α)} {isInstance : α → Bool}

/-- Instances of a range come behind the entries of the new array, by induction on the range. -/
theorem Sound.addItems {first rest more : List (Option α)} (split : contents = first ++ rest ++ more)
    (instances : ∀ data, some data ∈ rest → isInstance data = true) (sound : array.Sound contents)
    (soundNew : newarray.Sound held)
    : ∃ next,
      WiArray.addItems isInstance array (List.range' first.length rest.length) newarray
        = .ok (some next)
      ∧ next.Sound (held ++ rest) := by
  induction rest generalizing first newarray held with
  | nil => exact ⟨newarray, rfl, by simpa using soundNew⟩
  | cons data rest ih =>
      have found : contents[first.length]? = some data := by simp [split]
      have retained : retain isInstance data = .ok data := by
        cases data with
        | none => rfl
        | some value => simp [retain, instances value List.mem_cons_self]
      obtain ⟨added, ran, soundAdded⟩ := soundNew.addData data
      have split' : contents = (first ++ [data]) ++ rest ++ more := by simp [split]
      obtain ⟨next, rest, soundNext⟩ := ih split'
        (fun value member => instances value (List.mem_cons_of_mem _ member)) soundAdded
      refine ⟨next, ?_, by simpa using soundNext⟩
      rw [List.length_append, List.length_singleton] at rest
      rw [List.length_cons, List.range'_succ, WiArray.addItems, sound.dataAtIndex, found]
      simp only [bind, Except.bind, retained, ran]
      exact rest

/-- If the data of a range can be added then all of it are instances, by induction on the range. -/
theorem Sound.instances_of_addItems {first rest more : List (Option α)} {next : Option (WiArray α)}
    (split : contents = first ++ rest ++ more) (sound : array.Sound contents)
    (soundNew : newarray.Sound held)
    (added : WiArray.addItems isInstance array (List.range' first.length rest.length) newarray
      = .ok next)
    : ∀ data, some data ∈ rest → isInstance data = true := by
  induction rest generalizing first newarray held with
  | nil => exact fun data member => absurd member List.not_mem_nil
  | cons entry rest ih =>
      have found : contents[first.length]? = some entry := by simp [split]
      have split' : contents = (first ++ [entry]) ++ rest ++ more := by simp [split]
      rw [List.length_cons, List.range'_succ, WiArray.addItems, sound.dataAtIndex, found] at added
      have retained : retain isInstance entry = .ok entry := by
        cases entry with
        | none => rfl
        | some value =>
            simp only [bind, Except.bind, retain] at added ⊢
            split at added
            · rename_i refused
              split at refused
              · cases refused
              · cases added
            · rename_i allowed
              split at allowed
              · rename_i instance'
                rw [if_pos instance']
              · cases allowed
      obtain ⟨more', ran, soundMore⟩ := soundNew.addData entry
      simp only [bind, Except.bind, retained, ran] at added
      have later := ih split' soundMore (by simpa using added)
      intro data member
      rcases List.mem_cons.mp member with rfl | inRest
      · simp only [retain] at retained
        split at retained
        · assumption
        · cases retained
      · exact later data inRest

/-- The loop of a buffer fills the slots at the indices of a range, by induction on it. -/
theorem Sound.storeRange {first rest more start old : List (Option α)}
    (split : contents = first ++ rest ++ more) (sameStart : start.length = first.length)
    (sameRest : old.length = rest.length) (sound : array.Sound contents)
    : WiArray.storeRange array (List.range' first.length rest.length) (start ++ old)
      = .ok (start ++ rest) := by
  obtain ⟨nodes, holds⟩ := sound
  induction rest generalizing first start old with
  | nil =>
      rw [List.length_nil, List.length_eq_zero_iff] at sameRest
      rw [sameRest]
      rfl
  | cons data rest ih =>
      cases old with
      | nil => cases sameRest
      | cons entry old =>
          have found : contents[first.length]? = some data := by simp [split]
          have split' : contents = (first ++ [data]) ++ rest ++ more := by simp [split]
          have sameStart' : (start ++ [data]).length = (first ++ [data]).length := by
            simp [sameStart]
          have later := ih split' sameStart' (Nat.succ.inj sameRest)
          rw [List.length_append, List.length_singleton, List.append_assoc, List.append_assoc,
            List.singleton_append, List.singleton_append] at later
          have store : Slots.store (start ++ entry :: old) first.length data
              = some (start ++ data :: old) := sameStart ▸ Slots.store_append
          rw [List.length_cons, List.range'_succ, WiArray.storeRange, holds.entryAt found]
          simp only [bind, Except.bind, store, inside_some]
          exact later

/-- A loop that ends has written to no slot outside the buffer, by induction on the indices. -/
theorem lt_length_of_storeRange {indices : List ℕ} {data filled : List (Option α)}
    (stored : WiArray.storeRange array indices data = .ok filled)
    : ∀ index ∈ indices, index < data.length := by
  induction indices generalizing data with
  | nil => exact fun index member => absurd member List.not_mem_nil
  | cons head indices ih =>
      rw [WiArray.storeRange] at stored
      cases read : array.entryAt head with
      | error fault => simp [read, bind, Except.bind] at stored
      | ok entry =>
          by_cases within : head < data.length
          · simp only [read, bind, Except.bind, Slots.store, if_pos within, inside_some] at stored
            intro index member
            rcases List.mem_cons.mp member with rfl | later
            · exact within
            · simpa using ih stored index later
          · simp [read, bind, Except.bind, Slots.store, if_neg within] at stored

end Ranges

end WiArray

-----------------------------------------------------------------------------------------
-- When a derivation is right
-----------------------------------------------------------------------------------------

namespace Derivation

section Derivations

variable {isInstance : α → Bool} {qsort : Qsort α}

/-- Data that is added without another list changes the receiver, or ends the process. -/
theorem not_addingData (receiver : Receiver α) (data : Option α)
    : ¬DerivesRight isInstance qsort receiver (.addingData data) := by
  rintro ⟨newarray, array, ran, soundNew, soundArray⟩
  obtain ⟨copied, ranCopy, soundCopy⟩ := receiver.sound.copy
  rw [Receiver.byAddingData, ranCopy] at ran
  cases isMutable : receiver.isMutable with
  | false => simp [bind, Except.bind, isMutable] at ran
  | true =>
      cases data with
      | none => simp [bind, Except.bind, isMutable, WiArray.mutableAddData] at ran
      | some data =>
          obtain ⟨next, added, soundNext⟩ := receiver.sound.addData (some data)
          simp only [bind, Except.bind, isMutable, WiArray.mutableAddData, added, if_true,
            Option.isNone_some, Bool.false_eq_true, if_false] at ran
          obtain ⟨rfl, rfl⟩ := Prod.mk.inj (Option.some.inj (Except.ok.inj ran))
          have longer := soundNext.unique soundArray
          simp at longer

/-- The data of another array is added rightly if there is none. -/
theorem addingDataFromArray_iff (receiver : Receiver α) (other : Option (SoundArray α))
    : DerivesRight isInstance qsort receiver (.addingDataFromArray other)
      ↔ Spares isInstance receiver (.addingDataFromArray other) := by
  obtain ⟨copied, ranCopy, soundCopy⟩ := receiver.sound.copy
  obtain ⟨next, ran, soundNext⟩ := receiver.sound.mutableAddDataFromArray other
  have result : receiver.byAddingDataFromArray other
      = if receiver.isMutable then .ok (some (copied, next)) else .ok none := by
    simp only [Receiver.byAddingDataFromArray, ranCopy, bind, Except.bind, ran]
  simp only [DerivesRight, Spares, result]
  constructor
  · rintro ⟨newarray, array, same, soundNew, soundArray⟩
    split at same
    · rename_i isMutable
      obtain ⟨rfl, rfl⟩ := Prod.mk.inj (Option.some.inj (Except.ok.inj same))
      exact ⟨isMutable, by simpa using soundNext.unique soundArray⟩
    · cases same
  · rintro ⟨isMutable, nothing⟩
    rw [nothing, List.append_nil] at soundNext ⊢
    exact ⟨copied, next, if_pos isMutable, soundCopy, soundNext⟩

/-- A sorted array is always right. -/
theorem sorting_right (sorts : QsortSorts qsort) (receiver : Receiver α)
    {compare : Option α → Option α → ℤ} (comparison : IsComparison compare)
    : DerivesRight isInstance qsort receiver (.sorting compare comparison) := by
  have perm := sorts.perm receiver.contents comparison
  obtain ⟨next, ran, soundNext⟩ := receiver.sound.bySorting compare perm
  exact ⟨next, _, ran, soundNext, perm, sorts.sorted receiver.contents comparison⟩

/-- A range splits the list around its slice. -/
theorem split_slice {contents : List (Option α)} {location length : ℕ}
    (inside : location + length ≤ contents.length)
    : ∃ first more, contents = first ++ slice contents location length ++ more
      ∧ first.length = location ∧ (slice contents location length).length = length := by
  refine ⟨contents.take location, contents.drop (location + length), ?_, by simp; omega, ?_⟩
  · rw [slice, List.append_assoc, ← List.drop_drop, List.take_append_drop, List.take_append_drop]
  · simp [slice]
    omega

/-- A subarray is right if its data are instances. -/
theorem subarray_iff (receiver : Receiver α) {location length : ℕ} (nonempty : 0 < length)
    (inside : location + length ≤ receiver.contents.length)
    : DerivesRight isInstance qsort receiver (.subarray location length)
      ↔ Spares isInstance receiver (.subarray location length) := by
  obtain ⟨first, more, split, rfl, lengthSlice⟩ := split_slice inside
  have begins := WiArray.sound_init (α := α) length
  have result : receiver.array.subarrayWithRange isInstance first.length length
      = WiArray.addItems isInstance receiver.array
        (List.range' first.length (slice receiver.contents first.length length).length)
        (WiArray.initWithCapacity length) := by
    rw [lengthSlice, WiArray.subarrayWithRange, receiver.sound.dataCount_eq,
      if_pos ⟨by omega, by omega⟩]
  simp only [DerivesRight, Spares, result]
  constructor
  · rintro ⟨newarray, ran, soundNew⟩
    exact receiver.sound.instances_of_addItems split begins ran
  · intro instances
    exact receiver.sound.addItems split instances begins

/-- A range is copied to the buffer of its caller rightly if it begins at the start. -/
theorem dataInRange_iff (receiver : Receiver α) {location length : ℕ} (nonempty : 0 < length)
    (inside : location + length ≤ receiver.contents.length)
    : DerivesRight isInstance qsort receiver (.dataInRange location length)
      ↔ Spares isInstance receiver (.dataInRange location length) := by
  obtain ⟨first, more, split, located, lengthSlice⟩ := split_slice inside
  have result (data : List (Option α))
      : receiver.array.getDataInRange data location length
        = (WiArray.storeRange receiver.array (List.range' location length) data).map some := by
    rw [WiArray.getDataInRange, receiver.sound.dataCount_eq, if_pos ⟨by omega, by omega⟩]
    rfl
  simp only [DerivesRight, Spares, result]
  constructor
  · intro right
    have filled := right (List.replicate length none) List.length_replicate
    cases stored : WiArray.storeRange receiver.array (List.range' location length)
      (List.replicate length none) with
    | error fault => simp [stored, Except.map] at filled
    | ok data =>
        have last : location + length - 1 ∈ List.range' location length := by
          rw [List.mem_range'_1]
          omega
        have within := WiArray.lt_length_of_storeRange stored _ last
        rw [List.length_replicate] at within
        omega
  · intro start data same
    rw [start] at located
    have atStart : ([] : List (Option α)).length = first.length := located.symm
    have filled := receiver.sound.storeRange split atStart (same.trans lengthSlice.symm)
    rw [located, lengthSlice, List.nil_append, List.nil_append] at filled
    rw [start, filled, ← start]
    rfl

/-- A derivation has the expected data and spares its receiver exactly if nothing is added where it
would be added to the receiver, the data of a subarray are instances, and a range that is copied to a
buffer begins at the start.
-/
theorem derivesRight_iff (isInstance : α → Bool) (sorts : QsortSorts qsort) (receiver : Receiver α)
    (derivation : Derivation α) (inRange : derivation.InRange receiver.contents)
    : DerivesRight isInstance qsort receiver derivation ↔ Spares isInstance receiver derivation := by
  cases derivation with
  | addingData data => exact iff_of_false (not_addingData receiver data) not_false
  | addingDataFromArray other => exact addingDataFromArray_iff receiver other
  | sorting compare comparison => exact iff_of_true (sorting_right sorts receiver comparison) trivial
  | subarray location length => exact subarray_iff receiver inRange.1 inRange.2
  | dataInRange location length => exact dataInRange_iff receiver inRange.1 inRange.2

end Derivations

-----------------------------------------------------------------------------------------
-- An array of numbers
-----------------------------------------------------------------------------------------

/-- Every list is held by an array, by induction on its end. -/
theorem exists_receiver (contents : List (Option α)) (isMutable : Bool)
    : ∃ receiver : Receiver α,
      receiver.contents = contents ∧ receiver.isMutable = isMutable := by
  have held : ∃ array : WiArray α, array.Sound contents := by
    induction contents using List.reverseRecOn with
    | nil => exact ⟨_, WiArray.sound_init 0⟩
    | append_singleton contents data ih =>
        obtain ⟨array, sound⟩ := ih
        obtain ⟨next, -, soundNext⟩ := sound.addData data
        exact ⟨next, soundNext⟩
  obtain ⟨array, sound⟩ := held
  exact ⟨⟨⟨array, contents, sound⟩, isMutable⟩, rfl, rfl⟩

/-- A sorting of the standard library. -/
def mergeSort : Qsort α := fun compare list => list.mergeSort (atMost compare)

/-- It sorts. -/
theorem qsortSorts_mergeSort : QsortSorts (mergeSort : Qsort α) where
  perm list _ := List.mergeSort_perm list _
  sorted list comparison := by
    have order := comparison.isOrder
    have sorted := List.pairwise_mergeSort order.trans order.total list
    exact sorted.imp fun atMost => by simpa [WiredServer.Collections.atMost] using atMost

theorem derivesRight_iff_threeNumbers
    : ∃ receiver : Receiver ℕ, receiver.contents = [some 1, some 2, some 3]
      ∧ DerivesRight (fun _ => true) mergeSort receiver (.subarray 1 2)
      ∧ ¬DerivesRight (fun _ => true) mergeSort receiver (.dataInRange 1 2) := by
  obtain ⟨receiver, contents, -⟩ := exists_receiver [some 1, some 2, some 3] true
  have inside : (1 : ℕ) + 2 ≤ receiver.contents.length := by rw [contents]; decide
  refine ⟨receiver, contents, ?_, ?_⟩
  · exact (derivesRight_iff _ qsortSorts_mergeSort receiver (.subarray 1 2)
      ⟨by decide, inside⟩).mpr fun _ _ => rfl
  · intro right
    exact absurd ((derivesRight_iff _ qsortSorts_mergeSort receiver (.dataInRange 1 2)
      ⟨by decide, inside⟩).mp right) (by simp [Spares])

/-- A number that is added to a mutable array of one number is missing in the new array and stands in
the array itself.
-/
theorem not_derivesRight_addingNumber
    : ∃ receiver : Receiver ℕ, receiver.contents = [some 1] ∧ receiver.isMutable = true
      ∧ (∃ newarray array, receiver.byAddingData (some 2) = .ok (some (newarray, array))
        ∧ newarray.Sound [some 1] ∧ array.Sound [some 1, some 2])
      ∧ ¬DerivesRight (fun _ => true) mergeSort receiver (.addingData (some 2)) := by
  obtain ⟨receiver, contents, isMutable⟩ := exists_receiver [some 1] true
  obtain ⟨copied, ranCopy, soundCopy⟩ := receiver.sound.copy
  obtain ⟨next, added, soundNext⟩ := receiver.sound.addData (some 2)
  rw [contents] at soundCopy soundNext
  refine ⟨receiver, contents, isMutable, ⟨copied, next, ?_, soundCopy, soundNext⟩,
    not_addingData receiver (some 2)⟩
  simp [Receiver.byAddingData, ranCopy, bind, Except.bind, isMutable, WiArray.mutableAddData, added]

end Derivation

end WiredServer.Collections
