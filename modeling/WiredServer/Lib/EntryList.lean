import Mathlib

/-! Lists of entries with a key and a value, as a client keeps them, and the changes that messages make
to them.
-/

namespace EntryList

variable {Key Value : Type}

/-- The entries are the keys and values that are related. -/
def Lists (entries : List (Key × Value)) (holds : Key → Value → Prop) : Prop :=
  ∀ key value, (key, value) ∈ entries ↔ holds key value

/-- Entries of an equivalent relation. -/
theorem Lists.congr {entries : List (Key × Value)} {holds other : Key → Value → Prop}
    (lists : Lists entries holds) (same : ∀ key value, holds key value ↔ other key value)
    : Lists entries other :=
  fun key value => (lists key value).trans (same key value)

/-- The entries with other keys. -/
def relabel (label : Key → Key) (entries : List (Key × Value)) : List (Key × Value) :=
  entries.map (Prod.map label id)

/-- Entries with other keys are those of the relation with other keys. -/
theorem lists_relabel {entries : List (Key × Value)} {holds : Key → Value → Prop}
    (label : Key → Key) (lists : Lists entries holds)
    : Lists (relabel label entries) fun key value => ∃ old, holds old value ∧ label old = key := by
  intro key value
  rw [relabel, List.mem_map]
  constructor
  · rintro ⟨⟨old, before⟩, mem, changed⟩
    obtain ⟨rfl, rfl⟩ := Prod.mk.inj changed
    exact ⟨old, (lists old before).mp mem, rfl⟩
  · rintro ⟨old, related, rfl⟩
    exact ⟨(old, value), (lists old value).mpr related, rfl⟩

section Changes

variable [DecidableEq Key] {entries : List (Key × Value)} {holds : Key → Value → Prop} {key : Key}
  {value : Value}

/-- The entries without those of a key. -/
def remove (key : Key) (entries : List (Key × Value)) : List (Key × Value) :=
  entries.filter fun entry => entry.1 ≠ key

/-- The entries with one for a key in place of those it had. -/
def put (key : Key) (value : Value) (entries : List (Key × Value)) : List (Key × Value) :=
  (key, value) :: remove key entries

/-- The entries with another value for those of a key. -/
def assign (key : Key) (value : Value) (entries : List (Key × Value)) : List (Key × Value) :=
  entries.map fun entry => if entry.1 = key then (key, value) else entry

/-- After the entries of a key are removed, those of the other keys are left. -/
theorem lists_remove (lists : Lists entries holds)
    : Lists (remove key entries) fun other value => other ≠ key ∧ holds other value := by
  intro other value
  rw [remove, List.mem_filter, lists other value, decide_eq_true_eq, and_comm]

/-- After an entry is put in place, a key has its value, and other keys have theirs. -/
theorem lists_put (lists : Lists entries holds)
    : Lists (put key value entries) fun other value' =>
        if other = key then value' = value else holds other value' := by
  intro other value'
  rw [put, List.mem_cons, lists_remove lists other value', Prod.mk.injEq]
  by_cases same : other = key
  · simp [same]
  · simp [same]

/-- After the entries of a key that has some are changed, it has the new value. -/
theorem lists_assign (lists : Lists entries holds) (known : ∃ value, holds key value)
    : Lists (assign key value entries) fun other value' =>
        if other = key then value' = value else holds other value' := by
  intro other value'
  rw [assign, List.mem_map]
  constructor
  · rintro ⟨⟨first, second⟩, mem, changed⟩
    split_ifs at changed with own
    · obtain ⟨rfl, rfl⟩ := Prod.mk.inj changed
      rw [if_pos rfl]
    · obtain ⟨rfl, rfl⟩ := Prod.mk.inj changed
      rw [if_neg own]
      exact (lists first second).mp mem
  · intro related
    by_cases same : other = key
    · obtain rfl : value' = value := by simpa [same] using related
      obtain ⟨before, here⟩ := known
      exact ⟨(key, before), (lists key before).mpr here, by rw [if_pos rfl, same]⟩
    · have kept : holds other value' := by simpa [same] using related
      exact ⟨(other, value'), (lists other value').mpr kept, if_neg same⟩

end Changes

end EntryList
