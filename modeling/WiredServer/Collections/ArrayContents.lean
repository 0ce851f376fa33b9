import Mathlib
import WiredServer.Collections.Arrays

/-! What each operation of an array does to its entries. An array that is sound holds a list: its first
slots point to distinct items that are in use, one for each entry of the list.
-/

namespace WiredServer.Collections

open Loop

variable {α : Type}

namespace WiArray

/-- The array holds these entries in these items. Items that are spare have been taken from the pool
but are in no slot.
-/
structure HoldsBeside (array : WiArray α) (spare nodes : List ℕ) (contents : List (Option α)) : Prop
    where
  slots : ∃ rest, array.items = nodes.map some ++ rest
  counted : array.dataCount = nodes.length
  allocated : array.items.length = array.itemsCount
  positive : 0 < array.itemsCount
  least : 0 < array.minCount
  stored : nodes.map array.pool.read = contents.map some
  owns : array.pool.Owns (spare ++ nodes)

/-- The array holds these entries in these items, and no other items are in use. -/
abbrev Holds (array : WiArray α) (nodes : List ℕ) (contents : List (Option α)) : Prop :=
  array.HoldsBeside [] nodes contents

/-- A new array holds nothing. -/
theorem holds_init (capacity : ℕ) : (initWithCapacity capacity : WiArray α).Holds [] [] where
  slots := ⟨_, rfl⟩
  counted := rfl
  allocated := List.length_replicate
  positive := lt_of_lt_of_le (by decide : 0 < arrayMinCount) (le_max_right _ _)
  least := lt_of_lt_of_le (by decide : 0 < arrayMinCount) (le_max_right _ _)
  stored := rfl
  owns := Pool.owns_empty

section Holds

variable {array : WiArray α} {spare nodes : List ℕ} {contents : List (Option α)}

/-- There are as many items as entries. -/
theorem HoldsBeside.length_nodes (holds : array.HoldsBeside spare nodes contents)
    : nodes.length = contents.length := by
  simpa using congrArg List.length holds.stored

/-- There are as many entries as the array counts. -/
theorem HoldsBeside.dataCount_eq (holds : array.HoldsBeside spare nodes contents)
    : array.dataCount = contents.length :=
  holds.counted.trans holds.length_nodes

/-- The entries have slots. -/
theorem HoldsBeside.dataCount_le (holds : array.HoldsBeside spare nodes contents)
    : array.dataCount ≤ array.itemsCount := by
  obtain ⟨rest, slots⟩ := holds.slots
  rw [← holds.allocated, slots, holds.counted, List.length_append, List.length_map]
  omega

/-- A slot of an entry and what is before and behind it. -/
structure At (array : WiArray α) (nodes : List ℕ) (contents : List (Option α)) (index : ℕ)
    (before after : List ℕ) (node : ℕ) (first rest : List (Option α)) (entry : Option α)
    : Prop where
  nodes : nodes = before ++ node :: after
  contents : contents = first ++ entry :: rest
  length_before : before.length = index
  length_first : first.length = index
  read : array.pool.read node = some entry
  before : before.map array.pool.read = first.map some
  after : after.map array.pool.read = rest.map some

/-- Every index below the number of entries is the slot of an entry. -/
theorem HoldsBeside.exists_at (holds : array.HoldsBeside spare nodes contents) {index : ℕ}
    (within : index < contents.length)
    : ∃ before after node first rest entry,
      array.At nodes contents index before after node first rest entry := by
  have inNodes : index < nodes.length := holds.length_nodes ▸ within
  have splitNodes : nodes = nodes.take index ++ nodes[index] :: nodes.drop (index + 1) := by
    rw [List.getElem_cons_drop, List.take_append_drop]
  have splitContents : contents
      = contents.take index ++ contents[index] :: contents.drop (index + 1) := by
    rw [List.getElem_cons_drop, List.take_append_drop]
  have stored := holds.stored
  refine ⟨nodes.take index, nodes.drop (index + 1), nodes[index], contents.take index,
    contents.drop (index + 1), contents[index], splitNodes, splitContents, by simp; omega,
    by simp; omega, ?_, ?_, ?_⟩
  · have same := congrArg (·[index]?) stored
    simpa [inNodes, within] using same
  · rw [List.map_take, stored, List.map_take]
  · rw [List.map_drop, stored, List.map_drop]

/-- The slot of an entry points to its item. -/
theorem HoldsBeside.itemAt (holds : array.HoldsBeside spare nodes contents)
    {before after : List ℕ} {node : ℕ} (split : nodes = before ++ node :: after)
    : array.itemAt before.length = .ok node := by
  obtain ⟨rest, slots⟩ := holds.slots
  have found : array.items[before.length]? = some (some node) := by
    rw [slots, split]
    simp
  simp only [WiArray.itemAt, found, inside_some, bind, Except.bind]

/-- The entry of an index. -/
theorem HoldsBeside.entryAt (holds : array.HoldsBeside spare nodes contents) {index : ℕ}
    {entry : Option α} (found : contents[index]? = some entry)
    : array.entryAt index = .ok entry := by
  obtain ⟨within, same⟩ := List.getElem?_eq_some_iff.mp found
  obtain ⟨before, after, node, first, rest, other, place⟩ := holds.exists_at within
  have equal : other = entry := by
    rw [place.contents, List.getElem?_append_right (by rw [place.length_first]),
      place.length_first] at found
    simpa using found
  rw [WiArray.entryAt, ← place.length_before, holds.itemAt place.nodes]
  simp only [bind, Except.bind, place.read, inside_some, equal]

-----------------------------------------------------------------------------------------
-- Items
-----------------------------------------------------------------------------------------

/-- A new item is beside the ones in use and holds the entry it is made for. -/
theorem HoldsBeside.createItem (holds : array.Holds nodes contents) (data : Option α)
    : ∃ item next, array.createItem data = .ok (item, next)
      ∧ next.HoldsBeside [item] nodes contents ∧ next.pool.read item = some data
      ∧ next.itemsCount = array.itemsCount ∧ next.minCount = array.minCount := by
  obtain ⟨created, kept⟩ := holds.owns.create (none : Option α)
  obtain ⟨pool, written, owns, -, read, others⟩ :=
    created.write (List.mem_cons_self) data
  have ran : array.createItem data
      = .ok ((array.pool.create none).1, { array with pool }) := by
    simp only [WiArray.createItem, written, inside_some, bind, Except.bind]
  refine ⟨_, _, ran, { holds with stored := ?_, owns := owns }, read, rfl, rfl⟩
  rw [← holds.stored]
  refine List.map_congr_left fun node member => ?_
  have different : node ≠ (array.pool.create none).1 := by
    rintro rfl
    exact (List.nodup_cons.mp created.nodup).1 member
  rw [others node different, kept node member]

/-- The item of an entry that is removed is no longer in use, and no other item changes. -/
theorem HoldsBeside.removeItem (holds : array.HoldsBeside spare nodes contents) {index node : ℕ}
    {before after : List ℕ} {first rest : List (Option α)} {entry : Option α}
    (place : array.At nodes contents index before after node first rest entry)
    : ∃ pool, array.removeItem node = .ok { array with pool }
      ∧ pool.Owns (spare ++ (before ++ after))
      ∧ ∀ other ∈ spare ++ (before ++ after), pool.read other = array.pool.read other := by
  have order : (spare ++ nodes).Perm (node :: (spare ++ (before ++ after))) := by
    rw [place.nodes]
    have inner : (before ++ node :: after).Perm (node :: (before ++ after)) := List.perm_middle
    exact (inner.append_left spare).trans List.perm_middle
  obtain ⟨pool, written, owns, -, -, others⟩ :=
    (holds.owns.perm order).write (List.mem_cons_self) none
  refine ⟨pool.release node, ?_, owns.release, fun other member => others other ?_⟩
  · simp only [WiArray.removeItem, written, inside_some, bind, Except.bind]
  · rintro rfl
    exact (List.nodup_cons.mp owns.nodup).1 member

-----------------------------------------------------------------------------------------
-- Slots
-----------------------------------------------------------------------------------------

/-- An array with more slots holds the same entries. -/
theorem HoldsBeside.resize (holds : array.HoldsBeside spare nodes contents) {count : ℕ}
    (positive : 0 < count) (room : array.dataCount ≤ count)
    : { array with
        items := Slots.resize none array.items count
        itemsCount := count }.HoldsBeside spare nodes contents := by
  obtain ⟨rest, slots⟩ := holds.slots
  have length : (nodes.map some).length ≤ count := by
    rw [List.length_map, ← holds.counted]
    exact room
  obtain ⟨more, kept⟩ := Slots.resize_append none (nodes.map some) rest length
  exact { holds with
    slots := ⟨more, slots ▸ kept⟩
    allocated := Slots.length_resize none array.items count
    positive := positive }

/-- What the functions that add an item make of an array that is full. -/
def withRoom (array : WiArray α) (index : ℕ) : WiArray α :=
  if array.dataCount ≥ array.itemsCount then array.grow index else array

/-- After a full array has grown there is a slot behind the entries. -/
theorem HoldsBeside.withRoom (holds : array.HoldsBeside spare nodes contents) {index : ℕ}
    (atLeast : array.dataCount ≤ index)
    : (array.withRoom index).HoldsBeside spare nodes contents
      ∧ (∃ slot rest, (array.withRoom index).items = nodes.map some ++ slot :: rest)
      ∧ (array.withRoom index).dataCount = array.dataCount
      ∧ (array.withRoom index).minCount = array.minCount
      ∧ (array.withRoom index).pool = array.pool := by
  have spacious {other : WiArray α} (own : other.HoldsBeside spare nodes contents)
      (room : other.dataCount < other.itemsCount)
      : ∃ slot rest, other.items = nodes.map some ++ slot :: rest := by
    obtain ⟨rest, slots⟩ := own.slots
    have length := own.allocated
    rw [slots, List.length_append, List.length_map, ← own.counted] at length
    cases rest with
    | nil =>
        simp only [List.length_nil] at length
        omega
    | cons slot rest => exact ⟨slot, rest, slots⟩
  unfold WiArray.withRoom
  split
  · have bound : array.dataCount < (index + 1) * 3 / 2 := by omega
    have own : (array.grow index).HoldsBeside spare nodes contents :=
      holds.resize (by omega) bound.le
    exact ⟨own, spacious own bound, rfl, rfl, rfl⟩
  · rename_i room
    exact ⟨holds, spacious holds (not_le.mp room), rfl, rfl, rfl⟩

/-- The items of a list with one more behind them. -/
theorem HoldsBeside.stored_append (holds : array.HoldsBeside spare nodes contents) {item : ℕ}
    {data : Option α} (read : array.pool.read item = some data)
    : (nodes ++ [item]).map array.pool.read = (contents ++ [data]).map some := by
  rw [List.map_append, List.map_append, holds.stored]
  simp [read]

/-- An item that is added is the last one. -/
theorem HoldsBeside.addItem {item : ℕ} {data : Option α}
    (holds : array.HoldsBeside [item] nodes contents) (read : array.pool.read item = some data)
    : ∃ next, array.addItem item = .ok next ∧ next.Holds (nodes ++ [item]) (contents ++ [data])
      ∧ next.minCount = array.minCount := by
  obtain ⟨own, ⟨slot, rest, slots⟩, counted, least, pool⟩ := holds.withRoom le_rfl
  have place : (array.withRoom array.dataCount).dataCount = (nodes.map some).length := by
    rw [counted, holds.counted, List.length_map]
  have stores : Slots.store (array.withRoom array.dataCount).items
      (array.withRoom array.dataCount).dataCount (some item)
      = some (nodes.map some ++ some item :: rest) := by
    rw [place, slots]
    exact Slots.store_append
  have ran : array.addItem item = .ok
      { array.withRoom array.dataCount with
        items := nodes.map some ++ some item :: rest
        dataCount := (array.withRoom array.dataCount).dataCount + 1 } := by
    change (do
      let items ← inside (Slots.store (array.withRoom array.dataCount).items
        (array.withRoom array.dataCount).dataCount (some item))
      Except.ok { array.withRoom array.dataCount with
        items, dataCount := (array.withRoom array.dataCount).dataCount + 1 }) = _
    rw [stores]
    rfl
  refine ⟨_, ran, ?_, least⟩
  have length := own.allocated
  rw [slots] at length
  exact {
    slots := ⟨rest, by simp⟩
    counted := by simp [own.counted]
    allocated := by simpa using length
    positive := own.positive
    least := own.least
    stored := own.stored_append (pool ▸ read)
    owns := own.owns.perm (List.perm_append_comm) }

/-- An item that is inserted stands in front of the entry that had its index. -/
theorem HoldsBeside.insertItemAtIndex {item : ℕ} {data : Option α} {before after : List ℕ}
    {first rest : List (Option α)}
    (holds : array.HoldsBeside [item] (before ++ after) (first ++ rest))
    (read : array.pool.read item = some data) (same : before.length = first.length)
    : ∃ next, array.insertItemAtIndex item before.length = .ok next
      ∧ next.Holds (before ++ item :: after) (first ++ data :: rest)
      ∧ next.minCount = array.minCount := by
  obtain ⟨own, ⟨slot, more, slots⟩, counted, least, pool⟩ :=
    holds.withRoom (Nat.le_succ array.dataCount)
  have left : (array.withRoom (array.dataCount + 1)).dataCount - before.length
      = (after.map some).length := by
    rw [counted, holds.counted, List.length_append, List.length_map]
    omega
  have place : before.length = (before.map some).length := by simp
  have stores := @Slots.store_move_up _ (before.map some) (after.map some) more (some item) slot
  rw [← List.map_append, ← slots, ← left, ← place] at stores
  obtain ⟨moved, moves, stores⟩ := Option.bind_eq_some_iff.mp stores
  have ran : array.insertItemAtIndex item before.length = .ok
      { array.withRoom (array.dataCount + 1) with
        items := before.map some ++ some item :: after.map some ++ more
        dataCount := (array.withRoom (array.dataCount + 1)).dataCount + 1 } := by
    change (do
      let items ← inside (Slots.move (array.withRoom (array.dataCount + 1)).items
        (before.length + 1) before.length
        ((array.withRoom (array.dataCount + 1)).dataCount - before.length))
      let items ← inside (Slots.store items before.length (some item))
      Except.ok { array.withRoom (array.dataCount + 1) with
        items, dataCount := (array.withRoom (array.dataCount + 1)).dataCount + 1 }) = _
    simp only [moves, stores, inside_some, bind, Except.bind]
  refine ⟨_, ran, ?_, least⟩
  have length := own.allocated
  have stored := own.stored
  rw [List.map_append, List.map_append] at stored
  obtain ⟨front, back⟩ := List.append_inj stored (by simpa using same)
  rw [slots] at length
  exact {
    slots := ⟨more, by simp⟩
    counted := by
      simp only [own.counted, List.length_append, List.length_cons]
      omega
    allocated := by
      rw [← length]
      simp only [List.length_append, List.length_cons, List.length_map]
      omega
    positive := own.positive
    least := own.least
    stored := by
      rw [List.map_append, List.map_append, List.map_cons, List.map_cons, front, back, pool, read]
    owns := own.owns.perm (@List.perm_middle _ item before after).symm }

-----------------------------------------------------------------------------------------
-- Operations that add
-----------------------------------------------------------------------------------------

/-- The array holds a list in some items. -/
def Sound (array : WiArray α) (contents : List (Option α)) : Prop :=
  ∃ nodes, array.Holds nodes contents

/-- Data that is added comes last. -/
theorem Sound.addData (sound : array.Sound contents) (data : Option α)
    : ∃ next, array.addData data = .ok next ∧ next.Sound (contents ++ [data]) := by
  obtain ⟨nodes, holds⟩ := sound
  obtain ⟨item, with', created, beside, read, -, -⟩ := holds.createItem data
  obtain ⟨next, added, own, -⟩ := beside.addItem read
  refine ⟨next, ?_, _, own⟩
  simp only [WiArray.addData, created, bind, Except.bind, added]

/-- The data that an array knows of an index. -/
theorem Sound.dataAtIndex (sound : array.Sound contents) (index : ℕ)
    : array.dataAtIndex index = .ok contents[index]? := by
  obtain ⟨nodes, holds⟩ := sound
  unfold WiArray.dataAtIndex
  rw [holds.dataCount_eq]
  split
  · rename_i within
    rw [holds.entryAt (List.getElem?_eq_getElem within)]
    simp [bind, Except.bind, within]
  · rename_i beyond
    rw [List.getElem?_eq_none (not_lt.mp beyond)]

/-- The entries of another array are added in their order, by induction on the indices. The other
array keeps its first entries while this one grows.
-/
theorem Sound.addDataFromArray {other : WiArray α → WiArray α} {others : List (Option α)}
    (kept : ∀ {current : WiArray α} {list : List (Option α)}, contents <+: list →
      current.Sound list → ∃ more, (other current).Sound (others ++ more))
    {added left : List (Option α)} (split : others = added ++ left) {current : WiArray α}
    (sound : current.Sound (contents ++ added))
    : ∃ next, addDataFromArray other (List.range' added.length left.length) current
        = .ok (some next)
      ∧ next.Sound (contents ++ others) := by
  induction left generalizing added current with
  | nil =>
      rw [List.append_nil] at split
      exact ⟨current, rfl, split ▸ sound⟩
  | cons data left ih =>
      obtain ⟨more, soundOther⟩ := kept (List.prefix_append _ _) sound
      obtain ⟨next, ran, soundNext⟩ := sound.addData data
      have found : (others ++ more)[added.length]? = some data := by
        rw [split]
        simp
      have split' : others = (added ++ [data]) ++ left := by simp [split]
      rw [List.append_assoc] at soundNext
      obtain ⟨last, rest, soundLast⟩ := ih split' soundNext
      refine ⟨last, ?_, soundLast⟩
      rw [List.length_cons, List.range'_succ, WiArray.addDataFromArray, soundOther.dataAtIndex,
        found]
      simp only [bind, Except.bind, ran]
      simpa using rest

/-- Data that is added in order stands before the first entry that it precedes. -/
theorem HoldsBeside.addItemSorted {item : ℕ} {data : Option α}
    (compare : Option α → Option α → Int) {first rest : List (Option α)}
    (holds : array.HoldsBeside [item] nodes (first ++ rest))
    (read : array.pool.read item = some data)
    : ∃ next, addItemSorted compare array item (List.range' first.length rest.length) = .ok next
      ∧ next.Sound (first ++ (rest.takeWhile (fun other => ¬compare data other < 0)
        ++ data :: rest.dropWhile (fun other => ¬compare data other < 0))) := by
  induction rest generalizing first with
  | nil =>
      rw [List.append_nil] at holds
      obtain ⟨next, added, own, -⟩ := holds.addItem read
      exact ⟨next, added, _, own⟩
  | cons other rest ih =>
      have found : (first ++ other :: rest)[first.length]? = some other := by simp
      rw [List.length_cons, List.range'_succ, WiArray.addItemSorted, read, holds.entryAt found]
      simp only [inside_some, bind, Except.bind]
      by_cases precedes : compare data other < 0
      · obtain ⟨before, after, node, front, back, entry, place⟩ :=
          holds.exists_at (show first.length < (first ++ other :: rest).length by simp)
        have lengths : before.length = first.length := place.length_before
        have beside : array.HoldsBeside [item] (before ++ node :: after) (first ++ other :: rest) :=
          place.nodes ▸ holds
        obtain ⟨next, inserted, own, -⟩ := beside.insertItemAtIndex read lengths
        rw [if_pos precedes, ← lengths, inserted]
        refine ⟨next, rfl, before ++ item :: node :: after, ?_⟩
        rw [List.takeWhile_cons_of_neg (by simpa using precedes),
          List.dropWhile_cons_of_neg (by simpa using precedes)]
        exact own
      · rw [if_neg precedes, List.takeWhile_cons_of_pos (by simpa using precedes),
          List.dropWhile_cons_of_pos (by simpa using precedes)]
        have beside : array.HoldsBeside [item] nodes ((first ++ [other]) ++ rest) := by
          simpa using holds
        obtain ⟨next, ran, sound⟩ := ih beside
        refine ⟨next, by simpa using ran, by simpa using sound⟩

/-- Data that is inserted stands in front of the entry that had its index. -/
theorem Sound.insertDataAtIndex (sound : array.Sound contents) (data : Option α) {index : ℕ}
    (within : index < contents.length)
    : ∃ next, (do
        let (item, array) ← array.createItem data
        array.insertItemAtIndex item index) = .ok next
      ∧ next.Sound (contents.insertIdx index data) := by
  obtain ⟨nodes, holds⟩ := sound
  obtain ⟨before, after, node, first, rest, entry, place⟩ := holds.exists_at within
  obtain ⟨item, with', created, beside, read, -, -⟩ := holds.createItem data
  rw [place.nodes, place.contents] at beside
  obtain ⟨next, inserted, own, -⟩ :=
    beside.insertItemAtIndex read (place.length_before.trans place.length_first.symm)
  refine ⟨next, ?_, before ++ item :: node :: after, ?_⟩
  · simp only [created, bind, Except.bind]
    rw [← place.length_before, inserted]
  · rw [place.contents, ← place.length_first, Slots.insertIdx_append]
    exact own

/-- Data that replaces an entry gets a new item in its slot. -/
theorem Sound.replaceDataAtIndex (sound : array.Sound contents) (data : Option α) {index : ℕ}
    (within : index < contents.length)
    : ∃ next, (do
        let (item, array) ← array.createItem data
        let old ← array.itemAt index
        let array ← array.removeItem old
        let items ← inside (Slots.store array.items index (some item))
        .ok ({ array with items } : WiArray α)) = .ok next
      ∧ next.Sound (contents.set index data) := by
  obtain ⟨nodes, holds⟩ := sound
  obtain ⟨item, with', created, beside, read, -, -⟩ := holds.createItem data
  obtain ⟨before, after, node, first, rest, entry, place⟩ := beside.exists_at within
  obtain ⟨pool, removed, owns, others⟩ := beside.removeItem place
  obtain ⟨more, slots⟩ := beside.slots
  have stores : Slots.store with'.items index (some item)
      = some (before.map some ++ some item :: (after.map some ++ more)) := by
    have spot : index = (before.map some).length := by simp [place.length_before]
    have split : nodes.map some ++ more
        = before.map some ++ some node :: (after.map some ++ more) := by simp [place.nodes]
    rw [slots, split, spot]
    exact Slots.store_append
  refine ⟨{ with' with pool, items := before.map some ++ some item :: (after.map some ++ more) },
    ?_, before ++ item :: after, ?_⟩
  · have slot := beside.itemAt place.nodes
    rw [place.length_before] at slot
    simp only [created, bind, Except.bind, slot, removed, stores, inside_some]
  · have reads (list : List ℕ) (part : ∀ other ∈ list, other ∈ before ++ after)
        : list.map pool.read = list.map with'.pool.read :=
      List.map_congr_left fun other member =>
        others other (List.mem_append_right _ (part other member))
    have length := beside.allocated
    rw [slots, place.nodes] at length
    have changed : contents.set index data = first ++ data :: rest := by
      rw [place.contents, ← place.length_first]
      simp
    rw [changed]
    exact {
      slots := ⟨more, by simp⟩
      counted := by
        simp only [beside.counted, place.nodes, List.length_append, List.length_cons]
      allocated := by
        rw [← length]
        simp only [List.length_append, List.length_cons, List.length_map]
        omega
      positive := beside.positive
      least := beside.least
      stored := by
        rw [List.map_append, List.map_append, List.map_cons, List.map_cons,
          reads before fun other member => List.mem_append_left _ member,
          reads after fun other member => List.mem_append_right _ member, place.before, place.after,
          others item (List.mem_append_left _ (List.mem_singleton_self _)), read]
      owns := owns.perm (@List.perm_middle _ item before after).symm }

-----------------------------------------------------------------------------------------
-- Searching and sorting
-----------------------------------------------------------------------------------------

/-- The search finds the first entry that is equal to the data, by induction on what is left. -/
theorem HoldsBeside.indexOfDataFrom (callbacks : ArrayCallbacks α) (data : Option α)
    {first rest : List (Option α)} (holds : array.HoldsBeside spare nodes (first ++ rest))
    : indexOfDataFrom callbacks array data (List.range' first.length rest.length)
      = .ok ((rest.findIdx? (callbacks.isEqual · data)).map (first.length + ·)) := by
  induction rest generalizing first with
  | nil => rfl
  | cons entry rest ih =>
      have found : (first ++ entry :: rest)[first.length]? = some entry := by simp
      rw [List.length_cons, List.range'_succ, WiArray.indexOfDataFrom, holds.entryAt found]
      simp only [bind, Except.bind, List.findIdx?_cons]
      by_cases equal : callbacks.isEqual entry data = true
      · simp [equal]
      · have beside : array.HoldsBeside spare nodes ((first ++ [entry]) ++ rest) := by
          simpa using holds
        have later := ih beside
        rw [List.length_append, List.length_singleton] at later
        rw [if_neg equal, if_neg equal, later, Option.map_map]
        congr 2
        funext index
        simp only [Function.comp_apply]
        omega

/-- The index of data is the index of the first entry that is equal to it. -/
theorem HoldsBeside.indexOfData (holds : array.HoldsBeside spare nodes contents)
    (callbacks : ArrayCallbacks α) (data : Option α)
    : array.indexOfData callbacks data = .ok (contents.findIdx? (callbacks.isEqual · data)) := by
  have whole : array.HoldsBeside spare nodes ([] ++ contents) := holds
  have ran := whole.indexOfDataFrom callbacks data
  rw [WiArray.indexOfData, holds.dataCount_eq, List.range_eq_range']
  rw [List.length_nil] at ran
  rw [ran]
  simp

/-- The entries of an array are its list. -/
theorem HoldsBeside.getData (holds : array.HoldsBeside spare nodes contents)
    : array.getData = .ok contents := by
  have read (first rest : List (Option α)) (split : contents = first ++ rest)
      : (List.range' first.length rest.length).mapM array.entryAt = .ok rest := by
    induction rest generalizing first with
    | nil => rfl
    | cons entry rest ih =>
        have found : contents[first.length]? = some entry := by simp [split]
        have later := ih (first ++ [entry]) (by simp [split])
        rw [List.length_append, List.length_singleton] at later
        rw [List.length_cons, List.range'_succ, List.mapM_cons, holds.entryAt found, later]
        rfl
  rw [WiArray.getData, holds.dataCount_eq, List.range_eq_range']
  exact read [] contents rfl

/-- The entries that are stored take the places of as many others, by induction on them. -/
theorem HoldsBeside.storeData {first old rest : List (Option α)} (same : old.length = rest.length)
    (holds : array.Holds nodes (first ++ old))
    : ∃ next, WiArray.storeData rest first.length array = .ok next
      ∧ next.Holds nodes (first ++ rest) := by
  induction rest generalizing array first old with
  | nil =>
      rw [List.length_nil, List.length_eq_zero_iff] at same
      exact ⟨array, rfl, same ▸ holds⟩
  | cons data rest ih =>
      cases old with
      | nil => cases same
      | cons entry old =>
          obtain ⟨before, after, node, front, back, other, place⟩ :=
            holds.exists_at (show first.length < (first ++ entry :: old).length by simp)
          obtain ⟨rfl, tail⟩ := List.append_inj place.contents place.length_first.symm
          obtain ⟨rfl, rfl⟩ := List.cons.inj tail
          have inUse : node ∈ nodes := place.nodes ▸ List.mem_append_right _ List.mem_cons_self
          obtain ⟨pool, written, owns, -, read, others⟩ := holds.owns.write inUse data
          have distinct := holds.owns.nodup
          rw [List.nil_append, place.nodes] at distinct
          have apart := (List.nodup_cons.mp (List.perm_middle.nodup_iff.mp distinct)).1
          have reads (list : List ℕ) (part : ∀ other ∈ list, other ∈ before ++ after)
              : list.map pool.read = list.map array.pool.read := by
            refine List.map_congr_left fun other member => others other ?_
            rintro rfl
            exact apart (part other member)
          have stored : { array with pool }.Holds nodes ((first ++ [data]) ++ old) := {
            holds with
            owns := owns
            stored := by
              rw [place.nodes, List.append_assoc, List.singleton_append, List.map_append,
                List.map_append, List.map_cons, List.map_cons,
                reads before fun other member => List.mem_append_left _ member,
                reads after fun other member => List.mem_append_right _ member, place.before,
                place.after, read] }
          obtain ⟨next, ran, own⟩ := ih (Nat.succ.inj same) stored
          refine ⟨next, ?_, by simpa using own⟩
          rw [List.length_append, List.length_singleton] at ran
          have slot := holds.itemAt place.nodes
          rw [place.length_before] at slot
          simp only [WiArray.storeData, slot, bind, Except.bind, written, inside_some, ran]

/-- An array that is sorted holds what the library makes of its list, which is as long as it. -/
theorem Sound.sort (sound : array.Sound contents)
    {qsort : (Option α → Option α → Int) → List (Option α) → List (Option α)}
    (compare : Option α → Option α → Int) (perm : (qsort compare contents).Perm contents)
    : ∃ next, array.mutableSort qsort compare = .ok next
      ∧ next.Sound (qsort compare contents) := by
  obtain ⟨nodes, holds⟩ := sound
  unfold WiArray.mutableSort
  rw [holds.dataCount_eq]
  split
  · rename_i empty
    obtain rfl := List.length_eq_zero_iff.mp empty
    have nothing : qsort compare [] = [] := List.perm_nil.mp perm
    refine ⟨array, rfl, nodes, ?_⟩
    rw [nothing]
    exact holds
  · have whole : array.Holds nodes ([] ++ contents) := holds
    obtain ⟨next, ran, own⟩ := whole.storeData perm.length_eq.symm
    refine ⟨next, ?_, nodes, own⟩
    simp only [holds.getData, bind, Except.bind]
    exact ran

end Holds

end WiArray

end WiredServer.Collections
