import Mathlib
import WiredServer.Lib.Rewriting

/-! Splitting a text at the first place of a separator. What stands behind the separator does not matter for
the place.
-/

namespace Splitting

open Occurrences Rewriting

variable {α : Type} {separator text before after : List α}

/-- A text has the separator for the first time between these parts. -/
structure Splits (separator text before after : List α) : Prop where
  eq : text = before ++ (separator ++ after)
  first : ∀ place, OccursAt id separator (before ++ separator) place → before.length ≤ place

/-- The parts are those of a text that goes on in another way. -/
theorem Splits.other (splits : Splits separator text before after) (rest : List α)
    : Splits separator (before ++ (separator ++ rest)) before rest :=
  ⟨rfl, splits.first⟩

/-- A separator of one element is not in the part in front of it. -/
theorem splits_singleton {element : α}
    : Splits [element] text before after ↔ text = before ++ element :: after ∧ element ∉ before := by
  constructor
  · rintro ⟨eq, first⟩
    refine ⟨eq, fun member => ?_⟩
    obtain ⟨place, within, same⟩ := List.getElem_of_mem member
    have least := first place <| occursAt_singleton.mpr <| by
      rw [List.getElem?_append_left within, List.getElem?_eq_getElem within, same]
    omega
  · rintro ⟨eq, absent⟩
    refine ⟨eq, fun place occurs => not_lt.mp fun within => absent ?_⟩
    have same := occursAt_singleton.mp occurs
    rw [List.getElem?_append_left within] at same
    exact List.mem_of_getElem? same

variable [DecidableEq α]

/-- The separator is found where the text splits. -/
theorem Splits.firstPlace_eq (nonempty : separator ≠ []) (splits : Splits separator text before after)
    : firstPlace id separator text = some before.length := by
  have found := @firstPlace_isFirst _ _ _ id separator nonempty text
  refine found.unique ⟨?_, fun place (occurs : OccursAt _ _ _ _) => not_lt.mp fun within => ?_⟩
  · change OccursAt id separator text before.length
    rw [OccursAt, List.map_id, List.map_id, splits.eq, List.drop_left]
    exact List.prefix_append _ _
  · refine absurd (splits.first place ?_) (by omega)
    rw [OccursAt, List.map_id, List.map_id] at occurs ⊢
    rw [splits.eq, ← List.append_assoc,
      List.drop_append_of_le_length (by rw [List.length_append]; omega)] at occurs
    refine List.prefix_of_prefix_length_le occurs (List.prefix_append _ _) ?_
    rw [List.length_drop, List.length_append]
    omega

/-- A text splits where the separator is found. -/
theorem splits_of_firstPlace (nonempty : separator ≠ []) {place : ℕ}
    (found : firstPlace id separator text = some place)
    : Splits separator text (text.take place) (text.drop (place + separator.length))
      ∧ (text.take place).length = place := by
  have first := @firstPlace_isFirst _ _ _ id separator nonempty text
  rw [found] at first
  obtain ⟨occurs, least⟩ := first
  have length : (text.take place).length = place := by
    have some := List.length_pos_of_ne_nil nonempty
    have bound := occurs.length_le
    rw [List.length_take]
    omega
  have split := occurs.split
  rw [List.map_id, List.map_id, List.map_id, List.map_id, List.append_assoc] at split
  refine ⟨⟨split, fun other occurs' => length.le.trans (least ?_)⟩, length⟩
  change OccursAt id separator text other
  rw [OccursAt, List.map_id, List.map_id] at occurs' ⊢
  rw [split, ← List.append_assoc]
  refine occurs'.trans ?_
  exact (List.prefix_append _ _).drop other

/-- An element that a text does not have is found nowhere. -/
theorem firstPlace_singleton_eq_none {element : α}
    : firstPlace id [element] text = none ↔ element ∉ text := by
  have first := @firstPlace_isFirst _ _ _ id [element] (by simp) text
  constructor
  · intro none member
    rw [none] at first
    obtain ⟨place, within, same⟩ := List.getElem_of_mem member
    exact first place (occursAt_singleton.mpr (same ▸ List.getElem?_eq_getElem within))
  · intro absent
    refine first.unique fun place occurs => absent ?_
    exact List.mem_of_getElem? (occursAt_singleton.mp occurs)

end Splitting
