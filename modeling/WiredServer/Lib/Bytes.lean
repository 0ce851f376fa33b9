import Mathlib

/-! Checked access to a block of bytes, and the big-endian words stored in it.
An access that leaves the block has no result, so a program that reads or writes outside
its memory is visible as a missing value instead of as an arbitrary one.
-/

namespace Bytes

/-- The bytes of one allocation, from its first address on. -/
abbrev Block := List UInt8

-----------------------------------------------------------------------------------------
-- Reading and writing inside a block
-----------------------------------------------------------------------------------------

/-- The `count` bytes at `offset`, when all of them lie inside the block. -/
def slice (block : Block) (offset count : Nat) : Option Block :=
  if offset + count ≤ block.length then some ((block.drop offset).take count) else none

/-- The block with `bytes` stored at `offset`, when all of them lie inside the block. -/
def overwrite (block : Block) (offset : Nat) (bytes : Block) : Option Block :=
  if offset + bytes.length ≤ block.length then
    some (block.take offset ++ bytes ++ block.drop (offset + bytes.length))
  else none

/-- `bytes` stands at `offset` in the block. -/
def StandsAt (block : Block) (offset : Nat) (bytes : Block) : Prop :=
  ∀ index (inside : index < bytes.length), block[offset + index]? = some bytes[index]

/-- Reading fails exactly for the accesses that leave the block. -/
theorem slice_eq_none {block : Block} {offset count : Nat}
    : slice block offset count = none ↔ block.length < offset + count := by
  simp [slice]

/-- A successful read lies inside the block and returns what stands there. -/
theorem slice_eq_some {block : Block} {offset count : Nat} {bytes : Block}
    : slice block offset count = some bytes
      ↔ offset + count ≤ block.length ∧ bytes.length = count ∧ StandsAt block offset bytes := by
  unfold slice StandsAt
  constructor
  · intro read
    split at read
    · rename_i inside
      cases read
      refine ⟨inside, by simp; omega, ?_⟩
      intro index bound
      simp only [List.length_take, List.length_drop] at bound
      simp only [List.getElem_take, List.getElem_drop]
      exact List.getElem?_eq_getElem (by omega)
    · cases read
  · rintro ⟨inside, rfl, stands⟩
    rw [if_pos inside]
    congr 1
    apply List.ext_getElem?
    intro index
    by_cases bound : index < bytes.length
    · rw [List.getElem?_take_of_lt bound, List.getElem?_drop, stands index bound]
      exact (List.getElem?_eq_getElem bound).symm
    · rw [List.getElem?_eq_none (by simp; omega), List.getElem?_eq_none (by omega)]

/-- A read inside the block succeeds with bytes that stand there. -/
theorem slice_inside {block : Block} {offset count : Nat}
    (inside : offset + count ≤ block.length)
    : ∃ bytes, slice block offset count = some bytes := by
  exact ⟨_, if_pos inside⟩

/-- The bytes that stand at an offset are what a read of that length returns. -/
theorem StandsAt.slice {block : Block} {offset : Nat} {bytes : Block}
    (stands : StandsAt block offset bytes) (inside : offset + bytes.length ≤ block.length)
    : slice block offset bytes.length = some bytes :=
  slice_eq_some.mpr ⟨inside, rfl, stands⟩

/-- The empty sequence stands everywhere. -/
@[simp] theorem standsAt_nil {block : Block} {offset : Nat} : StandsAt block offset [] := by
  intro index inside
  simp at inside

/-- Bytes that stand at an offset end inside the block. -/
theorem StandsAt.end_le {block : Block} {offset : Nat} {bytes : Block}
    (stands : StandsAt block offset bytes) (start : offset ≤ block.length)
    : offset + bytes.length ≤ block.length := by
  rcases Nat.eq_zero_or_pos bytes.length with empty | nonempty
  · omega
  · have last := stands (bytes.length - 1) (by omega)
    have bound := (List.getElem?_eq_some_iff.mp last).1
    omega

/-- A concatenation stands at an offset iff its two parts stand one after the other. -/
theorem standsAt_append {block : Block} {offset : Nat} {left right : Block}
    : StandsAt block offset (left ++ right)
      ↔ StandsAt block offset left ∧ StandsAt block (offset + left.length) right := by
  constructor
  · intro stands
    constructor
    · intro index bound
      have here := stands index (by simp; omega)
      rwa [List.getElem_append_left bound] at here
    · intro index bound
      have here := stands (left.length + index) (by simp; omega)
      rw [List.getElem_append_right (by omega)] at here
      simpa [Nat.add_assoc] using here
  · rintro ⟨first, second⟩ index bound
    by_cases inLeft : index < left.length
    · rw [List.getElem_append_left inLeft]
      exact first index inLeft
    · rw [List.getElem_append_right (by omega)]
      have here := second (index - left.length) (by simp at bound; omega)
      rwa [show offset + left.length + (index - left.length) = offset + index by omega] at here

/-- A whole block is what stands at its own start. -/
theorem standsAt_self (block : Block) : StandsAt block 0 block := by
  intro index bound
  simp [List.getElem?_eq_getElem bound]

/-- Growing a block at its end moves nothing. -/
theorem StandsAt.grow {block : Block} {offset : Nat} {bytes : Block}
    (stands : StandsAt block offset bytes) (more : Block)
    : StandsAt (block ++ more) offset bytes := by
  intro index bound
  have here := stands index bound
  rw [List.getElem?_append_left (List.getElem?_eq_some_iff.mp here).1]
  exact here

-----------------------------------------------------------------------------------------
-- The effect of a write
-----------------------------------------------------------------------------------------

/-- A write inside the block succeeds. -/
theorem overwrite_inside {block : Block} {offset : Nat} {bytes : Block}
    (inside : offset + bytes.length ≤ block.length)
    : ∃ after, overwrite block offset bytes = some after :=
  ⟨_, if_pos inside⟩

/-- A write that leaves the block fails. -/
theorem overwrite_eq_none {block : Block} {offset : Nat} {bytes : Block}
    : overwrite block offset bytes = none ↔ block.length < offset + bytes.length := by
  simp [overwrite]

/-- A write keeps the size of the block and lies inside it. -/
theorem overwrite_length {block after : Block} {offset : Nat} {bytes : Block}
    (written : overwrite block offset bytes = some after)
    : after.length = block.length ∧ offset + bytes.length ≤ block.length := by
  unfold overwrite at written
  split at written
  · rename_i inside
    cases written
    refine ⟨?_, inside⟩
    simp
    omega
  · cases written

/-- What was written stands where it was written. -/
theorem overwrite_standsAt {block after : Block} {offset : Nat} {bytes : Block}
    (written : overwrite block offset bytes = some after)
    : StandsAt after offset bytes := by
  unfold overwrite at written
  split at written
  · rename_i inside
    cases written
    intro index bound
    have front : (block.take offset).length = offset := by simp; omega
    rw [List.getElem?_append_left (by simp; omega), List.getElem?_append_right (by omega), front]
    simp [bound]
  · cases written

/-- A write changes nothing before it. -/
theorem overwrite_before {block after : Block} {offset : Nat} {bytes : Block}
    (written : overwrite block offset bytes = some after) {index : Nat} (before : index < offset)
    : after[index]? = block[index]? := by
  unfold overwrite at written
  split at written
  · rename_i inside
    cases written
    rw [List.getElem?_append_left (by simp; omega), List.getElem?_append_left (by simp; omega)]
    exact List.getElem?_take_of_lt before
  · cases written

/-- Up to its end, a write leaves what was before it and what it stored. -/
theorem overwrite_take {block after : Block} {offset : Nat} {bytes : Block}
    (written : overwrite block offset bytes = some after)
    : after.take (offset + bytes.length) = block.take offset ++ bytes := by
  unfold overwrite at written
  split at written
  · rename_i inside
    cases written
    have front : (block.take offset ++ bytes).length = offset + bytes.length := by
      simp
      omega
    rw [← front, List.take_left]
  · cases written

/-- A write puts the bytes between what was in front of them and what was behind them. -/
theorem overwrite_eq {block after bytes : Block} {offset : Nat}
    (written : overwrite block offset bytes = some after)
    : after = block.take offset ++ bytes ++ block.drop (offset + bytes.length) := by
  unfold overwrite at written
  split at written
  · exact (Option.some.inj written).symm
  · cases written

/-- A write leaves the bytes in front of it. -/
theorem overwrite_take_before {block after bytes : Block} {offset count : Nat}
    (written : overwrite block offset bytes = some after) (before : count ≤ offset)
    : after.take count = block.take count := by
  have within := (overwrite_length written).2
  rw [overwrite_eq written, List.append_assoc, List.take_append_of_le_length (by simp; omega),
    List.take_take, min_eq_left before]

/-- Bytes that end before a write still stand after it. -/
theorem StandsAt.overwrite_after {block after : Block} {offset position : Nat}
    {bytes written : Block} (stands : StandsAt block position bytes)
    (store : overwrite block offset written = some after)
    (before : position + bytes.length ≤ offset)
    : StandsAt after position bytes := by
  intro index bound
  rw [overwrite_before store (by omega)]
  exact stands index bound

-----------------------------------------------------------------------------------------
-- Big-endian words
-----------------------------------------------------------------------------------------

/-- The four bytes of a 32-bit word, most significant first. -/
def be32 (word : UInt32) : Block :=
  [
    .ofNat (word.toNat / 2 ^ 24),
    .ofNat (word.toNat / 2 ^ 16),
    .ofNat (word.toNat / 2 ^ 8),
    .ofNat word.toNat
  ]

/-- The 32-bit word of four bytes, most significant first. -/
def ofBe32 : Block → UInt32
  | [a, b, c, d] =>
      .ofNat (a.toNat * 2 ^ 24 + b.toNat * 2 ^ 16 + c.toNat * 2 ^ 8 + d.toNat)
  | _ => 0

/-- The eight bytes of a 64-bit word, most significant first. -/
def be64 (word : UInt64) : Block :=
  be32 (.ofNat (word.toNat / 2 ^ 32)) ++ be32 (.ofNat word.toNat)

/-- The 64-bit word of eight bytes, most significant first. -/
def ofBe64 (bytes : Block) : UInt64 :=
  .ofNat ((ofBe32 (bytes.take 4)).toNat * 2 ^ 32 + (ofBe32 (bytes.drop 4)).toNat)

@[simp] theorem be32_length (word : UInt32) : (be32 word).length = 4 := rfl

@[simp] theorem be64_length (word : UInt64) : (be64 word).length = 8 := rfl

/-- Encoding a 32-bit word and decoding it again is the identity. -/
@[simp] theorem ofBe32_be32 (word : UInt32) : ofBe32 (be32 word) = word := by
  have bound := word.toNat_lt
  apply UInt32.toNat_inj.mp
  simp only [be32, ofBe32, UInt8.toNat_ofNat', UInt32.toNat_ofNat']
  omega

/-- Encoding a 64-bit word and decoding it again is the identity. -/
@[simp] theorem ofBe64_be64 (word : UInt64) : ofBe64 (be64 word) = word := by
  have bound := word.toNat_lt
  have high : (be64 word).take 4 = be32 (.ofNat (word.toNat / 2 ^ 32)) := rfl
  have low : (be64 word).drop 4 = be32 (.ofNat word.toNat) := rfl
  apply UInt64.toNat_inj.mp
  simp only [ofBe64, high, low, ofBe32_be32, UInt32.toNat_ofNat', UInt64.toNat_ofNat']
  omega

/-- The big-endian word at `offset`, when it lies inside the block. -/
def read32 (block : Block) (offset : Nat) : Option UInt32 :=
  (slice block offset 4).map ofBe32

/-- The big-endian double word at `offset`, when it lies inside the block. -/
def read64 (block : Block) (offset : Nat) : Option UInt64 :=
  (slice block offset 8).map ofBe64

/-- A word can be read exactly when it lies inside the block. -/
theorem read32_eq_none {block : Block} {offset : Nat}
    : read32 block offset = none ↔ block.length < offset + 4 := by
  simp [read32, slice_eq_none]

/-- A word that was read lies inside the block. -/
theorem read32_inside {block : Block} {offset : Nat} {word : UInt32}
    (read : read32 block offset = some word)
    : offset + 4 ≤ block.length := by
  by_contra outside
  rw [read32_eq_none.mpr (by omega)] at read
  cases read

/-- A word inside the block can be read. -/
theorem read32_exists {block : Block} {offset : Nat} (inside : offset + 4 ≤ block.length)
    : ∃ word, read32 block offset = some word := by
  obtain ⟨bytes, read⟩ := slice_inside inside
  exact ⟨ofBe32 bytes, by simp [read32, read]⟩

/-- A stored word is read back. -/
theorem StandsAt.read32 {block : Block} {offset : Nat} {word : UInt32}
    (stands : StandsAt block offset (be32 word)) (inside : offset + 4 ≤ block.length)
    : read32 block offset = some word := by
  have read := stands.slice (by simpa using inside)
  simp only [be32_length] at read
  simp [Bytes.read32, read]

/-- A stored double word is read back. -/
theorem StandsAt.read64 {block : Block} {offset : Nat} {word : UInt64}
    (stands : StandsAt block offset (be64 word)) (inside : offset + 8 ≤ block.length)
    : read64 block offset = some word := by
  have read := stands.slice (by simpa using inside)
  simp only [be64_length] at read
  simp [Bytes.read64, read]

end Bytes
