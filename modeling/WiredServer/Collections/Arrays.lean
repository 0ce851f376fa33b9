import Mathlib
import WiredServer.Base.Capacities
import WiredServer.Lib.Loop
import WiredServer.Lib.NodePool

/-! Arrays: a block of slots that point to items, of which the first `data_count` are in use. Every
access to a slot is checked against the allocated block. A function whose assertion does not hold
ends the process and has no array.
-/

namespace WiredServer.Collections

open Loop

-----------------------------------------------------------------------------------------
-- Data model
-----------------------------------------------------------------------------------------

/-- `_WI_ARRAY_MIN_COUNT`. -/
def arrayMinCount : ℕ := 10

/-- `_WI_ARRAY_MAX_COUNT`. -/
def arrayMaxCount : ℕ := 16777213

/-- The callbacks of an array, as far as they decide something: whether they retain and release
instances, and the comparison of entries. A null pointer is `none`.
-/
structure ArrayCallbacks (α : Type) where
  retains : Bool
  releases : Bool
  isEqual : Option α → Option α → Bool

/-- An array (`wi_array_t`). The slots beyond the entries hold no item or a stale one. -/
structure WiArray (α : Type) where
  items : List (Option ℕ)
  itemsCount : ℕ
  minCount : ℕ
  dataCount : ℕ
  pool : Pool (Option α)

namespace WiArray

variable {α : Type}

/-- `wi_array_init_with_capacity_and_callbacks`. -/
def initWithCapacity (capacity : ℕ) : WiArray α :=
  let itemsCount := max (exp2m1 (log2 capacity + 1)) arrayMinCount
  {
    items := List.replicate itemsCount none
    itemsCount
    minCount := itemsCount
    dataCount := 0
    pool := .empty
  }

-----------------------------------------------------------------------------------------
-- Slots and items
-----------------------------------------------------------------------------------------

/-- `_wi_array_grow`. -/
def grow (array : WiArray α) (index : ℕ) : WiArray α :=
  let itemsCount := (index + 1) * 3 / 2
  { array with items := Slots.resize none array.items itemsCount, itemsCount }

/-- `_wi_array_optimize`. -/
def optimize (array : WiArray α) : WiArray α :=
  let itemsCount := clamp array.dataCount array.minCount arrayMaxCount
  { array with items := Slots.resize none array.items itemsCount, itemsCount }

/-- `_WI_ARRAY_CHECK_OPTIMIZE`. -/
def checkOptimize (array : WiArray α) : WiArray α :=
  if array.itemsCount ≥ 3 * array.dataCount ∧ array.itemsCount > array.minCount
      ∨ array.dataCount ≥ 3 * array.itemsCount ∧ array.itemsCount < arrayMaxCount then
    array.optimize
  else array

/-- The item that a slot points to. -/
def itemAt (array : WiArray α) (index : ℕ) : Access ℕ := do
  match ← inside array.items[index]? with
  | some item => .ok item
  | none => .error .nullPointer

/-- The entry of a slot. -/
def entryAt (array : WiArray α) (index : ℕ) : Access (Option α) := do
  let item ← array.itemAt index
  inside (array.pool.read item)

/-- `_wi_array_create_item`, with the entry that is stored in the item. -/
def createItem (array : WiArray α) (data : Option α) : Access (ℕ × WiArray α) := do
  let (item, pool) := array.pool.create none
  let pool ← inside (pool.write item data)
  .ok (item, { array with pool })

/-- `_wi_array_remove_item`. -/
def removeItem (array : WiArray α) (item : ℕ) : Access (WiArray α) := do
  let pool ← inside (array.pool.write item none)
  .ok { array with pool := pool.release item }

/-- `_wi_array_add_item`. -/
def addItem (array : WiArray α) (item : ℕ) : Access (WiArray α) := do
  let array := if array.dataCount ≥ array.itemsCount then array.grow array.dataCount else array
  let items ← inside (Slots.store array.items array.dataCount (some item))
  .ok { array with items, dataCount := array.dataCount + 1 }

/-- `_wi_array_insert_item_at_index`. -/
def insertItemAtIndex (array : WiArray α) (item index : ℕ) : Access (WiArray α) := do
  let array :=
    if array.dataCount ≥ array.itemsCount then array.grow (array.dataCount + 1) else array
  let items ← inside (Slots.move array.items (index + 1) index (array.dataCount - index))
  let items ← inside (Slots.store items index (some item))
  .ok { array with items, dataCount := array.dataCount + 1 }

-----------------------------------------------------------------------------------------
-- Operations
-----------------------------------------------------------------------------------------

/-- `_wi_array_add_data`. -/
def addData (array : WiArray α) (data : Option α) : Access (WiArray α) := do
  let (item, array) ← array.createItem data
  array.addItem item

/-- `wi_mutable_array_add_data`. -/
def mutableAddData (array : WiArray α) (data : Option α) : Access (Option (WiArray α)) := do
  if data.isNone then .ok none
  else
    let array ← array.addData data
    .ok (some array)

/-- The loop of `_wi_array_add_item_sorted` over the slots from an index on. -/
def addItemSorted (compare : Option α → Option α → Int) (array : WiArray α) (item : ℕ)
    : List ℕ → Access (WiArray α)
  | [] => array.addItem item
  | index :: indices => do
      let data ← inside (array.pool.read item)
      let other ← array.entryAt index
      if compare data other < 0 then array.insertItemAtIndex item index
      else addItemSorted compare array item indices

/-- `wi_mutable_array_add_data_sorted`. -/
def mutableAddDataSorted (callbacks : ArrayCallbacks α) (array : WiArray α) (data : Option α)
    (compare : Option α → Option α → Int)
    : Access (Option (WiArray α)) := do
  if callbacks.retains && data.isNone then .ok none
  else
    let (item, array) ← array.createItem data
    let array ← addItemSorted compare array item (List.range array.dataCount)
    .ok (some array)

/-- `wi_array_data_at_index`. -/
def dataAtIndex (array : WiArray α) (index : ℕ) : Access (Option (Option α)) := do
  if index < array.dataCount then
    let data ← array.entryAt index
    .ok (some data)
  else .ok none

/-- The loop of `wi_mutable_array_add_data_from_array`. The other array may be the one that grows, so
it is read anew for every entry.
-/
def addDataFromArray (other : WiArray α → WiArray α)
    : List ℕ → WiArray α → Access (Option (WiArray α))
  | [], array => .ok (some array)
  | index :: indices, array => do
      match ← (other array).dataAtIndex index with
      | none => .ok none
      | some data =>
          let array ← array.addData data
          addDataFromArray other indices array

/-- `wi_mutable_array_add_data_from_array`. -/
def mutableAddDataFromArray (array : WiArray α) (other : WiArray α → WiArray α)
    : Access (Option (WiArray α)) :=
  addDataFromArray other (List.range (other array).dataCount) array

/-- `wi_mutable_array_insert_data_at_index`. -/
def mutableInsertDataAtIndex (callbacks : ArrayCallbacks α) (array : WiArray α) (data : Option α)
    (index : ℕ)
    : Access (Option (WiArray α)) := do
  if index < array.dataCount then
    if callbacks.retains && data.isNone then .ok none
    else
      let (item, array) ← array.createItem data
      let array ← array.insertItemAtIndex item index
      .ok (some array)
  else .ok none

/-- `wi_mutable_array_replace_data_at_index`. -/
def mutableReplaceDataAtIndex (callbacks : ArrayCallbacks α) (array : WiArray α) (data : Option α)
    (index : ℕ)
    : Access (Option (WiArray α)) := do
  if index < array.dataCount then
    if callbacks.retains && data.isNone then .ok none
    else
      let (item, array) ← array.createItem data
      let old ← array.itemAt index
      let array ← array.removeItem old
      let items ← inside (Slots.store array.items index (some item))
      .ok (some { array with items })
  else .ok none

/-- The loop of `wi_array_index_of_data` over the slots from an index on. -/
def indexOfDataFrom (callbacks : ArrayCallbacks α) (array : WiArray α) (data : Option α)
    : List ℕ → Access (Option ℕ)
  | [] => .ok none
  | index :: indices => do
      let entry ← array.entryAt index
      if callbacks.isEqual entry data then .ok (some index)
      else indexOfDataFrom callbacks array data indices

/-- `wi_array_index_of_data`. -/
def indexOfData (callbacks : ArrayCallbacks α) (array : WiArray α) (data : Option α)
    : Access (Option ℕ) :=
  indexOfDataFrom callbacks array data (List.range array.dataCount)

/-- `wi_mutable_array_remove_data_at_index`. -/
def mutableRemoveDataAtIndex (array : WiArray α) (index : ℕ) : Access (Option (WiArray α)) := do
  if index < array.dataCount then
    let item ← array.itemAt index
    let array ← array.removeItem item
    let items ← inside (Slots.store array.items index none)
    let items ←
      if index ≠ array.dataCount - 1 then do
        let items ← inside (Slots.move items index (index + 1) (array.dataCount - index - 1))
        inside (Slots.store items (array.dataCount - 1) none)
      else .ok items
    .ok (some { array with items, dataCount := array.dataCount - 1 }.checkOptimize)
  else .ok none

/-- `wi_mutable_array_remove_data`. -/
def mutableRemoveData (callbacks : ArrayCallbacks α) (array : WiArray α) (data : Option α)
    : Access (Option (WiArray α)) := do
  if callbacks.releases && data.isNone then .ok none
  else
    match ← array.indexOfData callbacks data with
    | none => .ok (some array)
    | some index => array.mutableRemoveDataAtIndex index

/-- `wi_mutable_array_remove_data_in_range`. -/
def mutableRemoveDataInRange (location : ℕ) : ℕ → WiArray α → Access (Option (WiArray α))
  | 0, array => .ok (some array)
  | length + 1, array => do
      match ← array.mutableRemoveDataAtIndex location with
      | none => .ok none
      | some array => mutableRemoveDataInRange location length array

/-- The loop of `_wi_array_remove_all_data` over the slots from an index on. -/
def removeItems : List ℕ → WiArray α → Access (WiArray α)
  | [], array => .ok array
  | index :: indices, array => do
      let item ← array.itemAt index
      let array ← array.removeItem item
      removeItems indices array

/-- `_wi_array_remove_all_data`. -/
def removeAllData (array : WiArray α) : Access (WiArray α) := do
  let array ← removeItems (List.range array.dataCount) array
  .ok { array with dataCount := 0 }.checkOptimize

/-- `wi_array_get_data`. -/
def getData (array : WiArray α) : Access (List (Option α)) :=
  (List.range array.dataCount).mapM array.entryAt

/-- The loop of `wi_mutable_array_sort` that stores the sorted entries in the items. -/
def storeData : List (Option α) → ℕ → WiArray α → Access (WiArray α)
  | [], _, array => .ok array
  | data :: rest, index, array => do
      let item ← array.itemAt index
      let pool ← inside (array.pool.write item data)
      storeData rest (index + 1) { array with pool }

/-- `wi_mutable_array_sort`, with the sorting of the standard library. -/
def mutableSort (qsort : (Option α → Option α → Int) → List (Option α) → List (Option α))
    (array : WiArray α) (compare : Option α → Option α → Int)
    : Access (WiArray α) := do
  if array.dataCount = 0 then .ok array
  else
    let data ← array.getData
    storeData (qsort compare data) 0 array

end WiArray

end WiredServer.Collections
