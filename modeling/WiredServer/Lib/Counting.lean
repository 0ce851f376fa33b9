import Mathlib

/-! Counting the elements of a list with a property while the property changes for one of them. -/

namespace Counting

variable {α : Type} {ids : List α} {p q : α → Bool}

/-- A property that changes for no element has the same count. -/
theorem countP_eq (same : ∀ id ∈ ids, q id = p id)
    : ids.countP q = ids.countP p :=
  List.countP_congr fun id member => by rw [same id member]

/-- A property that comes to hold for one element more counts one more. -/
theorem countP_add_one {id : α} (nodup : ids.Nodup) (member : id ∈ ids)
    (same : ∀ other ∈ ids, other ≠ id → q other = p other) (before : p id = false)
    (after : q id = true)
    : ids.countP q = ids.countP p + 1 := by
  induction ids with
  | nil => exact absurd member List.not_mem_nil
  | cons first ids ih =>
      obtain ⟨absent, nodup⟩ := List.nodup_cons.mp nodup
      rcases List.mem_cons.mp member with rfl | member
      · have rest : ids.countP q = ids.countP p := countP_eq fun other member =>
          same other (List.mem_cons_of_mem _ member) fun equal => absent (equal ▸ member)
        rw [List.countP_cons_of_pos after, List.countP_cons_of_neg (by simp [before]), rest]
      · have ne : first ≠ id := fun equal => absent (equal ▸ member)
        have rest := ih nodup member fun other member =>
          same other (List.mem_cons_of_mem _ member)
        rw [List.countP_cons, List.countP_cons, rest, same first List.mem_cons_self ne]
        omega

/-- A property that ends for one element counts one less. -/
theorem countP_sub_one {id : α} (nodup : ids.Nodup) (member : id ∈ ids)
    (same : ∀ other ∈ ids, other ≠ id → q other = p other) (before : p id = true)
    (after : q id = false)
    : ids.countP p = ids.countP q + 1 :=
  countP_add_one nodup member (fun other member ne => (same other member ne).symm) after before

/-- A property that changes for one element only changes the count by that element. -/
theorem countP_change {id : α} (nodup : ids.Nodup) (member : id ∈ ids)
    (same : ∀ other ∈ ids, other ≠ id → q other = p other)
    : (ids.countP q : ℤ) = ids.countP p + ((q id).toInt - (p id).toInt) := by
  cases before : p id <;> cases after : q id
  · have unchanged : ids.countP q = ids.countP p := countP_eq fun other member => by
      by_cases equal : other = id
      · rw [equal, before, after]
      · exact same other member equal
    simp [unchanged]
  · simp [countP_add_one nodup member same before after]
  · have less := countP_sub_one nodup member same before after
    simp only [Bool.toInt_false, Bool.toInt_true]
    omega
  · have unchanged : ids.countP q = ids.countP p := countP_eq fun other member => by
      by_cases equal : other = id
      · rw [equal, before, after]
      · exact same other member equal
    simp [unchanged]

end Counting
