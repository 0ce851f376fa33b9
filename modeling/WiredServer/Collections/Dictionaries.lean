import Mathlib
import WiredServer.Base.Capacities
import WiredServer.Collections.Arrays
import WiredServer.Lib.LinkedChains

/-! Dictionaries: a block of pointers to chains of buckets. Keys and data are values, so that a copy of
an instance is the instance. A null pointer is `none`.
-/

namespace WiredServer.Collections

open Loop Link

-----------------------------------------------------------------------------------------
-- Data model
-----------------------------------------------------------------------------------------

/-- `_WI_DICTIONARY_MIN_COUNT`. -/
def dictionaryMinCount : ℕ := 11

/-- `_WI_DICTIONARY_MAX_COUNT`. -/
def dictionaryMaxCount : ℕ := 16777213

/-- What a bucket holds. -/
structure Entry (κ α : Type) where
  key : Option κ
  data : Option α

/-- A bucket (`_wi_dictionary_bucket_t`). -/
abbrev Bucket (κ α : Type) := Link (Entry κ α)

/-- The callbacks of a dictionary, as far as they decide something: whether they are `wi_retain` and
`wi_release`, and the hash and the equality of keys, which are those of pointers if there are none.
-/
structure DictionaryCallbacks (κ : Type) where
  keyRetains : Bool
  keyReleases : Bool
  valueRetains : Bool
  hash : Option κ → ℕ
  isEqual : Option κ → Option κ → Bool

/-- A dictionary (`wi_dictionary_t`). -/
structure WiDictionary (κ α : Type) where
  buckets : List (Option ℕ)
  bucketsCount : ℕ
  minCount : ℕ
  keyCount : ℕ
  pool : Pool (Bucket κ α)

namespace WiDictionary

variable {κ α : Type}

/-- `wi_dictionary_init_with_capacity_and_callbacks`. -/
def initWithCapacity (capacity : ℕ) : WiDictionary κ α :=
  let minCount := max (exp2m1 (log2 capacity + 1)) dictionaryMinCount
  {
    buckets := List.replicate minCount none
    bucketsCount := minCount
    minCount
    keyCount := 0
    pool := .empty
  }

-----------------------------------------------------------------------------------------
-- Buckets
-----------------------------------------------------------------------------------------

/-- Rounds enough for a loop along a chain. -/
def chainFuel (dictionary : WiDictionary κ α) : ℕ :=
  dictionary.pool.cells.length + 1

/-- The loop of `_wi_dictionary_resize` along a chain. -/
def rehashChain (callbacks : DictionaryCallbacks κ) (bucketsCount fuel : ℕ) (bucket : Option ℕ)
    (buckets : List (Option ℕ)) (pool : Pool (Bucket κ α))
    : Access (List (Option ℕ) × Pool (Bucket κ α)) :=
  Loop.run (fun ((bucket, buckets, pool) : Option ℕ × List (Option ℕ) × Pool (Bucket κ α)) =>
    match bucket with
    | none => .ok (.stop (buckets, pool))
    | some node => do
        let link ← inside (pool.read node)
        let index := callbacks.hash link.value.key % bucketsCount
        let first ← inside buckets[index]?
        let pool ← inside (pool.write node { link with next := first })
        let buckets ← inside (Slots.store buckets index (some node))
        .ok (.again (link.next, buckets, pool))) fuel (bucket, buckets, pool)

/-- The loop of `_wi_dictionary_resize` over the chains from an index on. -/
def rehash (callbacks : DictionaryCallbacks κ) (dictionary : WiDictionary κ α) (bucketsCount : ℕ)
    : List ℕ → List (Option ℕ) → Pool (Bucket κ α)
      → Access (List (Option ℕ) × Pool (Bucket κ α))
  | [], buckets, pool => .ok (buckets, pool)
  | index :: indices, buckets, pool => do
      let bucket ← inside dictionary.buckets[index]?
      let (buckets, pool) ←
        rehashChain callbacks bucketsCount dictionary.chainFuel bucket buckets pool
      rehash callbacks dictionary bucketsCount indices buckets pool

/-- `_wi_dictionary_resize`. -/
def resize (callbacks : DictionaryCallbacks κ) (dictionary : WiDictionary κ α)
    : Access (WiDictionary κ α) := do
  let capacity := exp2m1 (log2 dictionary.keyCount + 1)
  let bucketsCount := clamp capacity dictionary.minCount dictionaryMaxCount
  let (buckets, pool) ← rehash callbacks dictionary bucketsCount
    (List.range dictionary.bucketsCount) (List.replicate bucketsCount none) dictionary.pool
  .ok { dictionary with buckets, bucketsCount, pool }

/-- The condition of `_WI_DICTIONARY_CHECK_RESIZE`. -/
def NeedsResize (dictionary : WiDictionary κ α) : Prop :=
  dictionary.bucketsCount ≥ 3 * dictionary.keyCount ∧ dictionary.bucketsCount > dictionary.minCount
    ∨ dictionary.keyCount ≥ 3 * dictionary.bucketsCount
      ∧ dictionary.bucketsCount < dictionaryMaxCount

instance (dictionary : WiDictionary κ α) : Decidable dictionary.NeedsResize :=
  inferInstanceAs (Decidable (_ ∨ _))

/-- `_WI_DICTIONARY_CHECK_RESIZE`. -/
def checkResize (callbacks : DictionaryCallbacks κ) (dictionary : WiDictionary κ α)
    : Access (WiDictionary κ α) :=
  if dictionary.NeedsResize then dictionary.resize callbacks else .ok dictionary

/-- The search for the bucket of a key, along with the bucket before it. -/
def search (callbacks : DictionaryCallbacks κ) (dictionary : WiDictionary κ α) (key : Option κ)
    (index : ℕ)
    : Access (Option (Option ℕ × ℕ)) := do
  let bucket ← inside dictionary.buckets[index]?
  Link.search dictionary.pool (fun entry => callbacks.isEqual entry.key key) dictionary.chainFuel
    none bucket

/-- The index of the chain of a key. -/
def indexOf (callbacks : DictionaryCallbacks κ) (dictionary : WiDictionary κ α) (key : Option κ) : ℕ :=
  callbacks.hash key % dictionary.bucketsCount

/-- `_wi_dictionary_bucket_for_key`. -/
def bucketForKey (callbacks : DictionaryCallbacks κ) (dictionary : WiDictionary κ α)
    (key : Option κ) (index : ℕ)
    : Access (Option ℕ) := do
  let found ← dictionary.search callbacks key index
  .ok (found.map Prod.snd)

/-- `_wi_dictionary_bucket_remove`. -/
def bucketRemove (dictionary : WiDictionary κ α) (bucket : ℕ) : WiDictionary κ α :=
  { dictionary with
    pool := dictionary.pool.release bucket
    keyCount := dictionary.keyCount - 1 }

-----------------------------------------------------------------------------------------
-- Operations
-----------------------------------------------------------------------------------------

/-- `_wi_dictionary_set_data_for_key`. -/
def setDataForKey (callbacks : DictionaryCallbacks κ) (dictionary : WiDictionary κ α)
    (data : Option α) (key : Option κ)
    : Access (WiDictionary κ α) := do
  let index := dictionary.indexOf callbacks key
  match ← dictionary.bucketForKey callbacks key index with
  | some bucket => do
      let link ← inside (dictionary.pool.read bucket)
      let pool ← inside (dictionary.pool.write bucket { link with value := ⟨key, data⟩ })
      { dictionary with pool }.checkResize callbacks
  | none => do
      let next ← inside dictionary.buckets[index]?
      let (bucket, pool) := dictionary.pool.create ⟨⟨none, none⟩, none⟩
      let buckets ← inside (Slots.store dictionary.buckets index (some bucket))
      let pool ← inside (pool.write bucket ⟨⟨key, data⟩, next⟩)
      { dictionary with buckets, pool, keyCount := dictionary.keyCount + 1 }.checkResize callbacks

/-- `wi_mutable_dictionary_set_data_for_key`. A function whose assertion does not hold ends the process
and has no dictionary.
-/
def mutableSetDataForKey (callbacks : DictionaryCallbacks κ) (dictionary : WiDictionary κ α)
    (data : Option α) (key : Option κ)
    : Access (Option (WiDictionary κ α)) := do
  if callbacks.valueRetains && data.isNone then .ok none
  else if callbacks.keyRetains && key.isNone then .ok none
  else
    let dictionary ← dictionary.setDataForKey callbacks data key
    .ok (some dictionary)

/-- What `_wi_dictionary_remove_data_for_key` does to a bucket that it found behind another one. -/
def unlink (dictionary : WiDictionary κ α) (index : ℕ) (previous : Option ℕ) (bucket : ℕ)
    : Access (WiDictionary κ α) := do
  let link ← inside (dictionary.pool.read bucket)
  let first ← inside dictionary.buckets[index]?
  let buckets ←
    if first = some bucket then inside (Slots.store dictionary.buckets index link.next)
    else .ok dictionary.buckets
  let pool ←
    match previous with
    | some previous => do
        let before ← inside (dictionary.pool.read previous)
        inside (dictionary.pool.write previous { before with next := link.next })
    | none => .ok dictionary.pool
  .ok ({ dictionary with buckets, pool }.bucketRemove bucket)

/-- `_wi_dictionary_remove_data_for_key`. -/
def removeDataForKey (callbacks : DictionaryCallbacks κ) (dictionary : WiDictionary κ α)
    (key : Option κ)
    : Access (WiDictionary κ α) := do
  let index := dictionary.indexOf callbacks key
  match ← dictionary.search callbacks key index with
  | some (previous, bucket) => do
      let dictionary ← dictionary.unlink index previous bucket
      dictionary.checkResize callbacks
  | none => dictionary.checkResize callbacks

/-- `wi_mutable_dictionary_remove_data_for_key`. -/
def mutableRemoveDataForKey (callbacks : DictionaryCallbacks κ) (dictionary : WiDictionary κ α)
    (key : Option κ)
    : Access (Option (WiDictionary κ α)) := do
  if callbacks.keyReleases && key.isNone then .ok none
  else
    let dictionary ← dictionary.removeDataForKey callbacks key
    .ok (some dictionary)

/-- The loop of `_wi_dictionary_remove_all_data` along a chain. -/
def removeChain (fuel : ℕ) (bucket : Option ℕ) (dictionary : WiDictionary κ α)
    : Access (WiDictionary κ α) :=
  Loop.run (fun ((bucket, dictionary) : Option ℕ × WiDictionary κ α) =>
    match bucket with
    | none => .ok (.stop dictionary)
    | some node => do
        let dictionary := dictionary.bucketRemove node
        let link ← inside (dictionary.pool.read node)
        .ok (.again (link.next, dictionary))) fuel (bucket, dictionary)

/-- The loop of `_wi_dictionary_remove_all_data` over the chains from an index on. -/
def removeChains : List ℕ → WiDictionary κ α → Access (WiDictionary κ α)
  | [], dictionary => .ok dictionary
  | index :: indices, dictionary => do
      let bucket ← inside dictionary.buckets[index]?
      let dictionary ← removeChain dictionary.chainFuel bucket dictionary
      let buckets ← inside (Slots.store dictionary.buckets index none)
      removeChains indices { dictionary with buckets }

/-- `_wi_dictionary_remove_all_data`. -/
def removeAllData (callbacks : DictionaryCallbacks κ) (dictionary : WiDictionary κ α)
    : Access (WiDictionary κ α) := do
  let dictionary ← removeChains (List.range dictionary.bucketsCount) dictionary
  dictionary.checkResize callbacks

-----------------------------------------------------------------------------------------
-- Loops over all buckets
-----------------------------------------------------------------------------------------

/-- The inner one of the two loops over all buckets of a dictionary, which may change on the way. -/
def eachOfChain {σ : Type} (dictionary : σ → WiDictionary κ α) (visit : σ → Entry κ α → Access σ)
    (fuel : ℕ) (bucket : Option ℕ) (state : σ)
    : Access σ :=
  Loop.run (fun ((bucket, state) : Option ℕ × σ) =>
    match bucket with
    | none => .ok (.stop state)
    | some node => do
        let link ← inside ((dictionary state).pool.read node)
        let state ← visit state link.value
        let link ← inside ((dictionary state).pool.read node)
        .ok (.again (link.next, state))) fuel (bucket, state)

/-- The body of the outer loop over all buckets of a dictionary. -/
def eachBody {σ : Type} (dictionary : σ → WiDictionary κ α) (visit : σ → Entry κ α → Access σ)
    : ℕ × σ → Access (Turn (ℕ × σ) σ)
  | (index, state) => do
      if index < (dictionary state).bucketsCount then
        let bucket ← inside (dictionary state).buckets[index]?
        let state ← eachOfChain dictionary visit (dictionary state).chainFuel bucket state
        .ok (.again (index + 1, state))
      else .ok (.stop state)

/-- The two loops over all buckets of a dictionary. -/
def each {σ : Type} (dictionary : σ → WiDictionary κ α) (visit : σ → Entry κ α → Access σ) (state : σ)
    : Access σ :=
  Loop.run (eachBody dictionary visit) ((dictionary state).bucketsCount + 1) (0, state)

/-- `wi_mutable_dictionary_add_entries_from_dictionary`. The other dictionary may be the one that
changes.
-/
def mutableAddEntriesFromDictionary (callbacks : DictionaryCallbacks κ)
    (dictionary : WiDictionary κ α) (other : WiDictionary κ α → WiDictionary κ α)
    : Access (WiDictionary κ α) :=
  each other (fun dictionary entry => dictionary.setDataForKey callbacks entry.data entry.key)
    dictionary

-----------------------------------------------------------------------------------------
-- Lookups and enumerations
-----------------------------------------------------------------------------------------

/-- `wi_dictionary_data_for_key`. -/
def dataForKey (callbacks : DictionaryCallbacks κ) (dictionary : WiDictionary κ α) (key : Option κ)
    : Access (Option α) := do
  match ← dictionary.bucketForKey callbacks key (dictionary.indexOf callbacks key) with
  | some bucket => do
      let link ← inside (dictionary.pool.read bucket)
      .ok link.value.data
  | none => .ok none

/-- `wi_dictionary_contains_key`. -/
def containsKey (callbacks : DictionaryCallbacks κ) (dictionary : WiDictionary κ α) (key : Option κ)
    : Access Bool := do
  let bucket ← dictionary.bucketForKey callbacks key (dictionary.indexOf callbacks key)
  .ok bucket.isSome

/-- The array that `wi_dictionary_all_keys` and `wi_dictionary_all_values` make of what they take from
each bucket. It is missing if the process ends.
-/
def collect {β : Type} (dictionary : WiDictionary κ α) (take : Entry κ α → Option β)
    : Access (Option (WiArray β)) :=
  each (fun _ => dictionary) (fun array entry =>
    match array with
    | some array => array.mutableAddData (take entry)
    | none => .ok none) (some (WiArray.initWithCapacity dictionary.keyCount))

/-- `wi_dictionary_all_keys`. -/
def allKeys (dictionary : WiDictionary κ α) : Access (Option (WiArray κ)) :=
  dictionary.collect Entry.key

/-- `wi_dictionary_all_values`. -/
def allValues (dictionary : WiDictionary κ α) : Access (Option (WiArray α)) :=
  dictionary.collect Entry.data

/-- Where an enumerator of a dictionary is (`wi_enumerator_context_t`). -/
structure EnumeratorContext where
  index : ℕ
  bucket : Option ℕ

/-- The body of the loop of `_wi_enumerator_dictionary_enumerator`. -/
def nextChainBody (dictionary : WiDictionary κ α) (context : EnumeratorContext)
    : Access (Turn EnumeratorContext (Option ℕ × EnumeratorContext)) := do
  if context.index < dictionary.bucketsCount then
    match ← inside dictionary.buckets[context.index]? with
    | some bucket => .ok (.stop (some bucket, { context with bucket := some bucket }))
    | none => .ok (.again { context with index := context.index + 1 })
  else .ok (.stop (none, context))

/-- The loop of `_wi_enumerator_dictionary_enumerator`. -/
def nextChain (dictionary : WiDictionary κ α) (context : EnumeratorContext)
    : Access (Option ℕ × EnumeratorContext) :=
  Loop.run dictionary.nextChainBody (dictionary.bucketsCount + 1) context

/-- `_wi_enumerator_dictionary_enumerator`. -/
def enumerator (dictionary : WiDictionary κ α) (context : EnumeratorContext)
    : Access (Option ℕ × EnumeratorContext) := do
  match context.bucket with
  | some bucket => do
      let link ← inside (dictionary.pool.read bucket)
      match link.next with
      | some next => .ok (some next, { context with bucket := some next })
      | none => dictionary.nextChain ⟨context.index + 1, none⟩
  | none => dictionary.nextChain context

/-- `wi_enumerator_dictionary_key_enumerator` and `wi_enumerator_dictionary_data_enumerator`, by what
they take from a bucket.
-/
def enumerate {β : Type} (take : Entry κ α → Option β) (dictionary : WiDictionary κ α)
    (context : EnumeratorContext)
    : Access (Option β × EnumeratorContext) := do
  let (bucket, context) ← dictionary.enumerator context
  match bucket with
  | some bucket => do
      let link ← inside (dictionary.pool.read bucket)
      .ok (take link.value, context)
  | none => .ok (none, context)

/-- What an enumerator returns when it is asked so often (`wi_enumerator_next_data`). -/
def enumerated {β : Type} (take : Entry κ α → Option β) (dictionary : WiDictionary κ α)
    : ℕ → EnumeratorContext → Access (List (Option β) × EnumeratorContext)
  | 0, context => .ok ([], context)
  | count + 1, context => do
      let (data, context) ← dictionary.enumerate take context
      let (rest, context) ← enumerated take dictionary count context
      .ok (data :: rest, context)

/-- `wi_dictionary_key_enumerator`, asked so often. -/
def enumeratedKeys (dictionary : WiDictionary κ α) (count : ℕ)
    : Access (List (Option κ) × EnumeratorContext) :=
  dictionary.enumerated Entry.key count ⟨0, none⟩

/-- `wi_dictionary_data_enumerator`, asked so often. -/
def enumeratedData (dictionary : WiDictionary κ α) (count : ℕ)
    : Access (List (Option α) × EnumeratorContext) :=
  dictionary.enumerated Entry.data count ⟨0, none⟩

end WiDictionary

end WiredServer.Collections
