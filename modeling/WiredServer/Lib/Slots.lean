import Mathlib

/-! Blocks of slots: stores and moves inside a block, and the pools from which linked nodes are taken.
As for blocks of bytes, an access that leaves its block has no result.
-/

namespace Slots

variable {β : Type}

-----------------------------------------------------------------------------------------
-- Blocks
-----------------------------------------------------------------------------------------

/-- Stores a value in a slot. -/
def store (block : List β) (index : ℕ) (value : β) : Option (List β) :=
  if index < block.length then some (block.set index value) else none

/-- `memmove`: the slots at `source` are copied to `target`. -/
def move (block : List β) (target source count : ℕ) : Option (List β) :=
  if source + count ≤ block.length ∧ target + count ≤ block.length then
    some (block.take target ++ (block.drop source).take count ++ block.drop (target + count))
  else none

/-- `realloc`: the block with a new number of slots; new ones hold a given value. -/
def resize (fill : β) (block : List β) (count : ℕ) : List β :=
  block.take count ++ List.replicate (count - block.length) fill

@[simp] theorem length_resize (fill : β) (block : List β) (count : ℕ)
    : (resize fill block count).length = count := by
  simp only [resize, List.length_append, List.length_take, List.length_replicate]
  omega

/-- A resized block keeps the slots it has room for. -/
theorem resize_append (fill : β) (used rest : List β) {count : ℕ} (room : used.length ≤ count)
    : ∃ more, resize fill (used ++ rest) count = used ++ more := by
  refine ⟨rest.take (count - used.length)
    ++ List.replicate (count - (used ++ rest).length) fill, ?_⟩
  rw [resize, List.take_append, List.take_of_length_le room, List.append_assoc]

/-- A value that is inserted at an index stands behind as many others. -/
theorem insertIdx_append (first rest : List β) (value : β)
    : (first ++ rest).insertIdx first.length value = first ++ value :: rest := by
  induction first with
  | nil => rfl
  | cons head first ih =>
      rw [List.length_cons, List.cons_append, List.insertIdx_succ_cons, ih, List.cons_append]

/-- A store behind the first slots of a block. -/
theorem store_append {used rest : List β} {value old : β}
    : store (used ++ old :: rest) used.length value = some (used ++ value :: rest) := by
  simp [store]

/-- Moving the end of a block up makes room for a value. -/
theorem store_move_up {before after rest : List β} {value spare : β}
    : (move (before ++ after ++ spare :: rest) (before.length + 1) before.length after.length).bind
        (store · before.length value)
      = some (before ++ value :: after ++ rest) := by
  have fits : before.length + after.length ≤ (before ++ after ++ spare :: rest).length
      ∧ before.length + 1 + after.length ≤ (before ++ after ++ spare :: rest).length := by
    simp only [List.length_append, List.length_cons]
    omega
  have kept : (before ++ after ++ spare :: rest).take (before.length + 1)
      = before ++ (after ++ spare :: rest).take 1 := by
    rw [List.append_assoc, List.take_append]
    simp
  have moved : ((before ++ after ++ spare :: rest).drop before.length).take after.length
      = after := by
    simp
  have behind : (before ++ after ++ spare :: rest).drop (before.length + 1 + after.length)
      = rest := by
    have whole : before ++ after ++ spare :: rest = (before ++ after ++ [spare]) ++ rest := by simp
    rw [whole]
    exact List.drop_left' (by simp; omega)
  rw [move, if_pos fits, Option.bind_some, kept, moved, behind]
  obtain ⟨first, one⟩ : ∃ first, (after ++ spare :: rest).take 1 = [first] := by
    cases after <;> simp
  rw [one]
  simp [store]

/-- Moving the end of a block down drops a value and frees the last slot. -/
theorem store_move_down {before after rest : List β} {value freed : β}
    : (move (before ++ value :: after ++ rest) before.length (before.length + 1) after.length).bind
        (store · (before.length + after.length) freed)
      = some (before ++ after ++ freed :: rest) := by
  have fits : before.length + 1 + after.length ≤ (before ++ value :: after ++ rest).length
      ∧ before.length + after.length ≤ (before ++ value :: after ++ rest).length := by
    simp only [List.length_append, List.length_cons]
    omega
  have kept : (before ++ value :: after ++ rest).take before.length = before := by simp
  have moved : ((before ++ value :: after ++ rest).drop (before.length + 1)).take after.length
      = after := by
    have whole : before ++ value :: after ++ rest = (before ++ [value]) ++ (after ++ rest) := by
      simp
    rw [whole, List.drop_left' (by simp)]
    simp
  obtain ⟨last, behind⟩ : ∃ last,
      (before ++ value :: after ++ rest).drop (before.length + after.length) = last :: rest := by
    obtain ⟨front, last, same⟩ : ∃ front last, value :: after = front ++ [last] :=
      ⟨_, _, (List.dropLast_append_getLast (List.cons_ne_nil value after)).symm⟩
    refine ⟨last, ?_⟩
    have length : front.length = after.length := by
      have := congrArg List.length same
      simpa using this.symm
    rw [same]
    have whole : before ++ (front ++ [last]) ++ rest = (before ++ front) ++ (last :: rest) := by simp
    rw [whole]
    exact List.drop_left' (by simp [length])
  rw [move, if_pos fits, Option.bind_some, kept, moved, behind]
  have spot : before.length + after.length = (before ++ after).length := by simp
  rw [spot]
  exact store_append

end Slots
