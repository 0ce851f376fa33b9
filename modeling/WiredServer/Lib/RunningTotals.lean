import WiredServer.Lib.KeyedTable

/-! Sums of weights over the rows of a keyed table, and the counters of a fixed width that programs keep
beside it: a counter that takes the weight of a row away and gives that of another one is right
exactly when the new sum fits into it.
-/

namespace KeyedTable

variable {Key Row : Type} (table : KeyedTable Key Row) (weight : Row → ℕ)

/-- The weight of the row of a key, which is zero without a row. -/
def weightAt (key : Key) : ℕ :=
  (table.row key).elim 0 weight

/-- The weights of all rows together. -/
def total : ℕ :=
  ∑ key ∈ table.keys, table.weightAt weight key

/-- A row weighs what its weight is. -/
theorem weightAt_of_row {key : Key} {row : Row} (here : table.row key = some row)
    : table.weightAt weight key = weight row := by
  rw [weightAt, here, Option.elim_some]

/-- Rows that weigh nothing weigh nothing together. -/
theorem total_eq_zero (light : ∀ key row, table.row key = some row → weight row = 0)
    : table.total weight = 0 := by
  refine Finset.sum_eq_zero fun key _ => ?_
  cases here : table.row key with
  | none => rw [weightAt, here, Option.elim_none]
  | some row => exact (table.weightAt_of_row weight here).trans (light key row here)

variable [DecidableEq Key]

/-- The weights of the rows of all keys but one. -/
def totalWithout (key : Key) : ℕ :=
  ∑ other ∈ table.keys.erase key, table.weightAt weight other

/-- The whole is one row and the others. -/
theorem totalWithout_add_weightAt (key : Key)
    : table.totalWithout weight key + table.weightAt weight key = table.total weight := by
  by_cases mem : key ∈ table.keys
  · exact Finset.sum_erase_add _ _ mem
  · have absent : table.row key = none := by
      rw [table.mem_keys, Bool.not_eq_true, Option.isSome_eq_false_iff, Option.isNone_iff_eq_none]
        at mem
      exact mem
    rw [totalWithout, Finset.erase_eq_of_notMem mem, weightAt, absent, Option.elim_none, add_zero,
      total]

/-- The other rows weigh what they weighed if they are the same. -/
theorem totalWithout_congr {table other : KeyedTable Key Row} {key : Key}
    (same : ∀ key', key' ≠ key → other.row key' = table.row key')
    : other.totalWithout weight key = table.totalWithout weight key := by
  have keys : other.keys.erase key = table.keys.erase key := by
    ext key'
    rw [Finset.mem_erase, Finset.mem_erase, other.mem_keys, table.mem_keys]
    exact and_congr_right fun differ => by rw [same key' differ]
  rw [totalWithout, totalWithout, keys]
  refine Finset.sum_congr rfl fun key' mem => ?_
  rw [weightAt, weightAt, same key' (Finset.ne_of_mem_erase mem)]

/-- Deleting a row leaves the others. -/
theorem totalWithout_delete (key : Key)
    : (table.delete key).totalWithout weight key = table.totalWithout weight key :=
  totalWithout_congr weight fun key' differ => by rw [row_delete, if_neg differ]

/-- A row that is put in the place of another leaves the weights of the others. -/
theorem total_put (key : Key) (row : Row)
    : (table.put key row).total weight = table.totalWithout weight key + weight row := by
  have here : (table.put key row).row key = some row := by rw [row_put, if_pos rfl]
  have others : (table.put key row).totalWithout weight key = table.totalWithout weight key :=
    totalWithout_congr weight fun key' differ => by rw [row_put, if_neg differ]
  rw [← totalWithout_add_weightAt _ weight key, weightAt_of_row _ weight here, others]

end KeyedTable

namespace UInt64

/-- A counter that has room for what is added counts it. -/
theorem toNat_add_eq_iff (counter more : UInt64)
    : (counter + more).toNat = counter.toNat + more.toNat
      ↔ counter.toNat + more.toNat < 2 ^ 64 := by
  rw [UInt64.toNat_add]
  constructor
  · intro counted
    have below := Nat.mod_lt (counter.toNat + more.toNat) (Nat.two_pow_pos 64)
    omega
  · exact Nat.mod_eq_of_lt

end UInt64
