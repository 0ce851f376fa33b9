import Mathlib

/-! Where a pattern occurs in a text when elements are compared by their images under a function,
and the results of a search: the first or the last of the places that are searched for.
-/

namespace Occurrences

-----------------------------------------------------------------------------------------
-- Results of a search
-----------------------------------------------------------------------------------------

/-- A search gives the first place with a property, or nothing if there is none. -/
def IsFirst (property : ℕ → Prop) : Option ℕ → Prop
  | some index => IsLeast {place | property place} index
  | none => ∀ place, ¬property place

/-- A search gives the last place with a property, or nothing if there is none. -/
def IsLast (property : ℕ → Prop) : Option ℕ → Prop
  | some index => IsGreatest {place | property place} index
  | none => ∀ place, ¬property place

/-- Searches for the same places have the same results. -/
theorem IsFirst.congr {property other : ℕ → Prop} {result : Option ℕ} (first : IsFirst property result)
    (same : ∀ place, property place ↔ other place)
    : IsFirst other result := by
  obtain rfl : property = other := funext fun place => propext (same place)
  exact first

/-- There is only one first place. -/
theorem IsFirst.unique {property : ℕ → Prop} {result other : Option ℕ}
    (first : IsFirst property result) (again : IsFirst property other)
    : result = other := by
  cases result with
  | none =>
      cases other with
      | none => rfl
      | some index => exact absurd again.1 (first index)
  | some index =>
      cases other with
      | none => exact absurd first.1 (again index)
      | some second => exact congrArg some (IsLeast.unique first again)

/-- The first place is the one at the start, if it has the property. -/
theorem isFirst_zero {property : ℕ → Prop} (here : property 0)
    : IsFirst property (some 0) :=
  ⟨here, fun place _ => Nat.zero_le place⟩

/-- If the start has not the property, the first place is the first one behind it. -/
theorem isFirst_succ {property : ℕ → Prop} {result : Option ℕ} (absent : ¬property 0)
    (first : IsFirst (fun place => property (place + 1)) result)
    : IsFirst property (result.map (· + 1)) := by
  cases result with
  | none =>
      intro place
      cases place with
      | zero => exact absent
      | succ place => exact first place
  | some index =>
      refine ⟨first.1, fun place found => ?_⟩
      cases place with
      | zero => exact absurd found absent
      | succ place => exact Nat.succ_le_succ (first.2 found)

/-- The first place at or behind a start is found from there on. -/
theorem isFirst_add {property : ℕ → Prop} {start : ℕ} {result : Option ℕ}
    (behind : ∀ place, property place → start ≤ place)
    (first : IsFirst (fun place => property (start + place)) result)
    : IsFirst property (result.map (start + ·)) := by
  have fromStart {place : ℕ} (found : property place) : property (start + (place - start)) := by
    rw [Nat.add_sub_cancel' (behind place found)]
    exact found
  cases result with
  | none => exact fun place found => first (place - start) (fromStart found)
  | some index =>
      refine ⟨first.1, fun place found => ?_⟩
      have least : index ≤ place - start := first.2 (fromStart found)
      have later := behind place found
      change start + index ≤ place
      omega

/-- The last place at or behind a start is found from there on. -/
theorem isLast_add {property : ℕ → Prop} {start : ℕ} {result : Option ℕ}
    (behind : ∀ place, property place → start ≤ place)
    (last : IsLast (fun place => property (start + place)) result)
    : IsLast property (result.map (start + ·)) := by
  have fromStart {place : ℕ} (found : property place) : property (start + (place - start)) := by
    rw [Nat.add_sub_cancel' (behind place found)]
    exact found
  cases result with
  | none => exact fun place found => last (place - start) (fromStart found)
  | some index =>
      refine ⟨last.1, fun place found => ?_⟩
      have greatest : place - start ≤ index := last.2 (fromStart found)
      change place ≤ start + index
      omega

/-- A search for fewer places gives the last one of more just when every other place has one of
the fewer at or behind it.
-/
theorem isLast_of_weaker_iff {property weaker : ℕ → Prop} {result : Option ℕ}
    (last : IsLast property result) (implied : ∀ place, property place → weaker place)
    : IsLast weaker result
      ↔ ∀ place, weaker place → ∃ later, place ≤ later ∧ property later := by
  cases result with
  | none =>
      constructor
      · exact fun none place found => absurd found (none place)
      · rintro covered place found
        obtain ⟨later, -, kept⟩ := covered place found
        exact last later kept
  | some index =>
      constructor
      · exact fun greatest place found => ⟨index, greatest.2 found, last.1⟩
      · intro covered
        refine ⟨implied index last.1, fun place found => ?_⟩
        obtain ⟨later, behind, kept⟩ := covered place found
        exact behind.trans (last.2 kept)

-----------------------------------------------------------------------------------------
-- Places of a pattern
-----------------------------------------------------------------------------------------

section Places

variable {α β : Type} (fold : α → β)

/-- The pattern stands in the text at a place. -/
def OccursAt (pattern text : List α) (place : ℕ) : Prop :=
  pattern.map fold <+: (text.drop place).map fold

instance [DecidableEq β] (pattern text : List α) (place : ℕ)
    : Decidable (OccursAt fold pattern text place) :=
  inferInstanceAs (Decidable (_ <+: _))

variable {fold} {pattern text : List α} {place : ℕ}

/-- A pattern that stands somewhere ends in the text. -/
theorem OccursAt.length_le (occurs : OccursAt fold pattern text place)
    : pattern.length ≤ text.length - place := by
  have bound := List.IsPrefix.length_le occurs
  simpa using bound

/-- A pattern that stands somewhere stands there for every coarser comparison. -/
theorem OccursAt.coarsen (occurs : OccursAt id pattern text place)
    : OccursAt fold pattern text place := by
  rw [OccursAt, List.map_id, List.map_id] at occurs
  exact occurs.map fold

/-- A place behind the first element is a place of the rest. -/
theorem occursAt_cons_succ {first : α}
    : OccursAt fold pattern (first :: text) (place + 1) ↔ OccursAt fold pattern text place :=
  Iff.rfl

/-- At the start, the first elements agree and the rest of the pattern stands at the start of the
rest.
-/
theorem occursAt_cons_zero {first head : α}
    : OccursAt fold (head :: pattern) (first :: text) 0
      ↔ fold head = fold first ∧ OccursAt fold pattern text 0 := by
  simp [OccursAt, List.cons_prefix_cons]

/-- A pattern with an element does not stand in an empty text. -/
theorem not_occursAt_nil {head : α}
    : ¬OccursAt fold (head :: pattern) [] place := by
  simp [OccursAt]

/-- Places in the rest of a text are places behind its start. -/
theorem occursAt_drop {start : ℕ}
    : OccursAt fold pattern (text.drop start) place ↔ OccursAt fold pattern text (start + place) := by
  rw [OccursAt, OccursAt, List.drop_drop]

/-- A text splits where the pattern stands in it. -/
theorem OccursAt.split {text : List α} {place : ℕ} (occurs : OccursAt fold pattern text place)
    : text.map fold = (text.take place).map fold ++ pattern.map fold
        ++ (text.drop (place + pattern.length)).map fold := by
  obtain ⟨rest, split⟩ := occurs
  have behind : (text.drop (place + pattern.length)).map fold = rest := by
    have dropped := congrArg (List.drop pattern.length) split
    rw [← List.map_drop, List.drop_drop] at dropped
    rw [← dropped]
    have front : pattern.length = (pattern.map fold).length := (List.length_map fold).symm
    rw [front, List.drop_left]
  rw [behind, List.append_assoc, split, ← List.map_append, List.take_append_drop]

/-- A single element stands where the text has it. -/
theorem occursAt_singleton {element : α}
    : OccursAt id [element] text place ↔ text[place]? = some element := by
  rw [OccursAt, List.map_id, List.map_id, ← List.head?_drop]
  cases text.drop place with
  | nil => simp
  | cons first rest => simp [List.cons_prefix_cons, eq_comm]

end Places

end Occurrences
