import Mathlib
import WiredServer.Collections.ArrayContents
import WiredServer.Collections.Dictionaries

/-! Sets, plain and counted. A set has the same table as a dictionary, with the same numbers for its
size; its buckets hold data, in the place of keys, and how often these have been added.
-/

namespace WiredServer.Collections

open Loop Link

-----------------------------------------------------------------------------------------
-- Data model
-----------------------------------------------------------------------------------------

/-- A bucket of a set (`_wi_set_bucket_t`) has the data as its key. -/
abbrev SetEntry (κ : Type) := Entry κ ℕ

/-- The count of a bucket. -/
def Entry.count {κ : Type} (entry : SetEntry κ) : ℕ :=
  entry.data.getD 0

/-- A set (`wi_set_t`). -/
structure WiSet (κ : Type) where
  table : WiDictionary κ ℕ
  counted : Bool

namespace WiSet

variable {κ : Type}

/-- `wi_set_init_with_capacity_and_callbacks`. -/
def initWithCapacity (capacity : ℕ) (counted : Bool) : WiSet κ where
  table := WiDictionary.initWithCapacity capacity
  counted := counted

-----------------------------------------------------------------------------------------
-- Lookups
-----------------------------------------------------------------------------------------

/-- `wi_set_contains_data`. -/
def containsData (callbacks : DictionaryCallbacks κ) (set : WiSet κ) (data : Option κ) : Access Bool := do
  let bucket ← set.table.bucketForKey callbacks data (set.table.indexOf callbacks data)
  .ok bucket.isSome

/-- `wi_set_count_for_data`. -/
def countForData (callbacks : DictionaryCallbacks κ) (set : WiSet κ) (data : Option κ) : Access ℕ := do
  match ← set.table.bucketForKey callbacks data (set.table.indexOf callbacks data) with
  | some bucket => do
      let link ← inside (set.table.pool.read bucket)
      .ok link.value.count
  | none => .ok 0

/-- `_wi_set_is_equal`. After a difference there is nothing left to compare. -/
def isEqual (callbacks : DictionaryCallbacks κ) (set1 set2 : WiSet κ) : Access Bool := do
  if set1.table.keyCount ≠ set2.table.keyCount then .ok false
  else
    WiDictionary.each (fun _ => set1.table) (fun equal entry =>
      if equal then set2.containsData callbacks entry.key else .ok false) true

-----------------------------------------------------------------------------------------
-- Operations
-----------------------------------------------------------------------------------------

/-- What `_wi_set_add_data` does before it checks the size of the table. -/
def addToTable (callbacks : DictionaryCallbacks κ) (table : WiDictionary κ ℕ) (data : Option κ)
    : Access (WiDictionary κ ℕ) := do
  let index := table.indexOf callbacks data
  match ← table.bucketForKey callbacks data index with
  | some bucket => do
      let link ← inside (table.pool.read bucket)
      let entry := { link.value with data := some (link.value.count + 1) }
      let pool ← inside (table.pool.write bucket { link with value := entry })
      .ok { table with pool }
  | none => do
      let next ← inside table.buckets[index]?
      let (bucket, pool) := table.pool.create ⟨⟨none, none⟩, none⟩
      let pool ← inside (pool.write bucket ⟨⟨data, some 1⟩, next⟩)
      let buckets ← inside (Slots.store table.buckets index (some bucket))
      .ok { table with buckets, pool, keyCount := table.keyCount + 1 }

/-- `_wi_set_add_data`. -/
def addData (callbacks : DictionaryCallbacks κ) (set : WiSet κ) (data : Option κ)
    : Access (WiSet κ) := do
  let table ← addToTable callbacks set.table data
  let table ← table.checkResize callbacks
  .ok { set with table }

/-- `wi_mutable_set_add_data`. A function whose assertion does not hold ends the process and has no
set.
-/
def mutableAddData (callbacks : DictionaryCallbacks κ) (set : WiSet κ) (data : Option κ)
    : Access (Option (WiSet κ)) := do
  if callbacks.keyRetains && data.isNone then .ok none
  else
    let set ← set.addData callbacks data
    .ok (some set)

/-- `_wi_set_add_data_from_array`, for the data of some indices. -/
def addDataFromArray (callbacks : DictionaryCallbacks κ) (array : WiArray κ)
    : List ℕ → WiSet κ → Access (Option (WiSet κ))
  | [], set => .ok (some set)
  | index :: indices, set => do
      match ← array.dataAtIndex index with
      | none => .ok none
      | some data =>
          let set ← set.addData callbacks data
          addDataFromArray callbacks array indices set

/-- `wi_mutable_set_add_data_from_array`. -/
def mutableAddDataFromArray (callbacks : DictionaryCallbacks κ) (set : WiSet κ) (array : WiArray κ)
    : Access (Option (WiSet κ)) :=
  addDataFromArray callbacks array (List.range array.dataCount) set

/-- What `wi_mutable_set_remove_data` does to a bucket that it found behind another one. A count that
comes to 0 is not stored, since its bucket is freed.
-/
def removeFromTable (counted : Bool) (table : WiDictionary κ ℕ) (index : ℕ) (previous : Option ℕ)
    (bucket : ℕ)
    : Access (WiDictionary κ ℕ) := do
  let link ← inside (table.pool.read bucket)
  if counted ∧ link.value.count - 1 ≠ 0 then
    let entry := { link.value with data := some (link.value.count - 1) }
    let pool ← inside (table.pool.write bucket { link with value := entry })
    .ok { table with pool }
  else table.unlink index previous bucket

/-- `wi_mutable_set_remove_data`. -/
def mutableRemoveData (callbacks : DictionaryCallbacks κ) (set : WiSet κ) (data : Option κ)
    : Access (Option (WiSet κ)) := do
  if callbacks.keyReleases && data.isNone then .ok none
  else
    let index := set.table.indexOf callbacks data
    let table ←
      match ← set.table.search callbacks data index with
      | some (previous, bucket) => removeFromTable set.counted set.table index previous bucket
      | none => .ok set.table
    let table ← table.checkResize callbacks
    .ok (some { set with table })

/-- `_wi_set_remove_all_data`. -/
def removeAllData (callbacks : DictionaryCallbacks κ) (set : WiSet κ) : Access (WiSet κ) := do
  let table ← set.table.removeAllData callbacks
  .ok { set with table }

/-- `wi_mutable_set_set_set`. The other set may be the one that changes. -/
def mutableSetSet (callbacks : DictionaryCallbacks κ) (set : WiSet κ) (otherset : WiSet κ → WiSet κ)
    : Access (WiSet κ) := do
  let set ← set.removeAllData callbacks
  WiDictionary.each (fun set => (otherset set).table)
    (fun set entry => set.addData callbacks entry.key) set

/-- Adds the same data again and again. -/
def addDataTimes (callbacks : DictionaryCallbacks κ) (data : Option κ) : ℕ → WiSet κ → Access (WiSet κ)
  | 0, set => .ok set
  | count + 1, set => do
      let set ← set.addData callbacks data
      addDataTimes callbacks data count set

/-- `_wi_set_copy`. -/
def copy (callbacks : DictionaryCallbacks κ) (set : WiSet κ) : Access (WiSet κ) :=
  WiDictionary.each (fun _ => set.table)
    (fun setCopy entry => addDataTimes callbacks entry.key entry.count setCopy)
    (initWithCapacity set.table.keyCount set.counted)

end WiSet

end WiredServer.Collections
