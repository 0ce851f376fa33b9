import Mathlib

/-! Tables whose rows have a primary key: statements that insert, delete and update rows, and that
fail as a whole when a key would occur twice.
-/

/-- A table with a finite number of rows, by their primary key. -/
structure KeyedTable (Key Row : Type) where
  row : Key → Option Row
  keys : Finset Key
  mem_keys : ∀ key, key ∈ keys ↔ (row key).isSome = true

namespace KeyedTable

variable {Key Row : Type} (table : KeyedTable Key Row)

/-- Tables with the same rows are the same. -/
@[ext]
theorem ext_row {table other : KeyedTable Key Row} (same : ∀ key, table.row key = other.row key)
    : table = other := by
  obtain ⟨row, keys, mem_keys⟩ := table
  obtain ⟨row', keys', mem_keys'⟩ := other
  obtain rfl : row = row' := funext same
  obtain rfl : keys = keys' := Finset.ext fun key => (mem_keys key).trans (mem_keys' key).symm
  rfl

/-- The table without rows. -/
def empty : KeyedTable Key Row where
  row _ := none
  keys := ∅
  mem_keys := by simp

/-- `UPDATE` of columns other than the key -/
def mapRows (change : Key → Row → Row) : KeyedTable Key Row where
  row key := (table.row key).map (change key)
  keys := table.keys
  mem_keys key := by rw [table.mem_keys, Option.isSome_map]

/-- The rows after an `UPDATE` are the changed rows. -/
@[simp]
theorem row_mapRows (change : Key → Row → Row) (key : Key)
    : (table.mapRows change).row key = (table.row key).map (change key) :=
  rfl

/-- An `UPDATE` keeps the keys. -/
@[simp]
theorem keys_mapRows (change : Key → Row → Row)
    : (table.mapRows change).keys = table.keys :=
  rfl

/-- An `UPDATE` that changes no row changes nothing. -/
theorem mapRows_eq_self_iff (change : Key → Row → Row)
    : table.mapRows change = table ↔ ∀ key, ∀ row ∈ table.row key, change key row = row := by
  constructor
  · intro same key row here
    have at_key := congrArg (·.row key) same
    simp only [row_mapRows, Option.mem_def.mp here, Option.map_some, Option.some_inj] at at_key
    exact at_key
  · intro same
    ext1 key
    rw [row_mapRows]
    cases here : table.row key with
    | none => rfl
    | some row => rw [Option.map_some, same key row here]

/-- `UPDATE … SET column = new WHERE column = old` leaves a row as it is just when the column does not
hold the old value, or the values are the same.
-/
theorem ite_set_eq_self_iff {Column : Type} [DecidableEq Column] (get : Row → Column)
    (set : Column → Row → Row) (get_set : ∀ column row, get (set column row) = column)
    (set_get : ∀ row, set (get row) row = row) (old new : Column) (row : Row)
    : (if get row = old then set new row else row) = row ↔ old = new ∨ get row ≠ old := by
  by_cases same : get row = old
  · rw [if_pos same, or_iff_left (not_not_intro same)]
    constructor
    · intro unchanged
      rw [← same, ← get_set new row, unchanged]
    · rintro rfl
      rw [← same, set_get]
  · rw [if_neg same]
    exact iff_of_true rfl (.inr same)

/-- `DELETE` of the rows that meet a condition -/
def deleteWhere (condition : Key → Row → Bool) : KeyedTable Key Row where
  row key := (table.row key).filter fun row => !condition key row
  keys := table.keys.filter fun key => (table.row key).any fun row => !condition key row
  mem_keys key := by
    rw [Finset.mem_filter, table.mem_keys, Option.isSome_filter]
    constructor
    · exact fun both => both.2
    · intro kept
      refine ⟨?_, kept⟩
      cases here : table.row key with
      | none =>
          rw [here] at kept
          exact kept
      | some row => rfl

/-- The rows that a `DELETE` leaves. -/
@[simp]
theorem row_deleteWhere (condition : Key → Row → Bool) (key : Key)
    : (table.deleteWhere condition).row key
      = (table.row key).filter fun row => !condition key row :=
  rfl

section Keys

variable [DecidableEq Key]

/-- `DELETE` of the row of a key -/
def delete (key : Key) : KeyedTable Key Row where
  row := Function.update table.row key none
  keys := table.keys.erase key
  mem_keys other := by
    rw [Finset.mem_erase, table.mem_keys]
    by_cases same : other = key
    · simp [same]
    · simp [same]

/-- The rows after a `DELETE`. -/
theorem row_delete (key other : Key)
    : (table.delete key).row other = if other = key then none else table.row other :=
  Function.update_apply table.row key none other

/-- A table with a row for a key. -/
def put (key : Key) (row : Row) : KeyedTable Key Row where
  row := Function.update table.row key (some row)
  keys := insert key table.keys
  mem_keys other := by
    rw [Finset.mem_insert, table.mem_keys]
    by_cases same : other = key
    · simp [same]
    · simp [same]

/-- The rows of a table with a row for a key. -/
theorem row_put (key other : Key) (row : Row)
    : (table.put key row).row other = if other = key then some row else table.row other :=
  Function.update_apply table.row key (some row) other

/-- `INSERT` of a row, which fails if there is one of its key -/
def insertRow (key : Key) (row : Row) : Option (KeyedTable Key Row) :=
  if (table.row key).isSome then none else some (table.put key row)

/-- An `INSERT` that succeeds. -/
theorem insertRow_eq_some_iff {key : Key} {row : Row} {next : KeyedTable Key Row}
    : table.insertRow key row = some next ↔ table.row key = none ∧ table.put key row = next := by
  unfold insertRow
  cases table.row key <;> simp

/-- `UPDATE` of the key of a row, which fails if another row has the new key -/
def rekey (old new : Key) : Option (KeyedTable Key Row) :=
  match table.row old with
  | none => some table
  | some row =>
      if new ≠ old && (table.row new).isSome then none
      else some ((table.delete old).put new row)

/-- An `UPDATE` of the key of no row changes nothing. -/
theorem rekey_of_none {old new : Key} (absent : table.row old = none)
    : table.rekey old new = some table := by
  rw [rekey, absent]

/-- An `UPDATE` to a key that no row has. -/
theorem rekey_of_free {old new : Key} {row : Row} (here : table.row old = some row)
    (free : table.row new = none)
    : table.rekey old new = some ((table.delete old).put new row) := by
  rw [rekey, here]
  simp [free]

/-- An `UPDATE` to the key of another row fails. -/
theorem rekey_eq_none_iff {old new : Key}
    : table.rekey old new = none
      ↔ (table.row old).isSome = true ∧ new ≠ old ∧ (table.row new).isSome = true := by
  unfold rekey
  cases table.row old with
  | none => simp
  | some row => cases table.row new <;> simp

end Keys

end KeyedTable
