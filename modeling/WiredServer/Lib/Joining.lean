import Mathlib

/-! Texts that are joined by a separator and split at it again, also when the joined text is cut at
a terminator in between.
-/

namespace Joining

variable {α : Type} {separator terminator : α}

/-- What a text of a list contains is in the joined text. -/
theorem mem_intercalate {parts : List (List α)} {part : List α} (mem : part ∈ parts) {element : α}
    (inside : element ∈ part)
    : element ∈ [separator].intercalate parts := by
  induction parts with
  | nil => cases mem
  | cons first rest ih =>
      cases rest with
      | nil =>
          rw [List.mem_singleton] at mem
          rw [List.intercalate_singleton, ← mem]
          exact inside
      | cons second others =>
          rw [List.intercalate_cons_cons, List.mem_append, List.mem_append]
          rcases List.mem_cons.mp mem with rfl | later
          · exact .inl (.inl inside)
          · exact .inr (ih later)

/-- The joined text contains the separator and what the texts contain. -/
theorem mem_of_mem_intercalate {parts : List (List α)} {element : α}
    (mem : element ∈ [separator].intercalate parts)
    : element = separator ∨ ∃ part ∈ parts, element ∈ part := by
  induction parts with
  | nil => simp at mem
  | cons first rest ih =>
      cases rest with
      | nil => exact .inr ⟨first, List.mem_cons_self, by simpa using mem⟩
      | cons second others =>
          rw [List.intercalate_cons_cons, List.mem_append, List.mem_append,
            List.mem_singleton] at mem
          rcases mem with (here | same) | later
          · exact .inr ⟨first, List.mem_cons_self, here⟩
          · exact .inl same
          · rcases ih later with same | ⟨part, isPart, inside⟩
            · exact .inl same
            · exact .inr ⟨part, List.mem_cons_of_mem _ isPart, inside⟩

variable [DecidableEq α]

/-- A split text has no separator. -/
theorem separator_notMem_of_mem_splitOn {text part : List α} (mem : part ∈ text.splitOn separator)
    : separator ∉ part := by
  induction text generalizing part with
  | nil =>
      rw [List.splitOn_nil, List.mem_singleton] at mem
      simp [mem]
  | cons first rest ih =>
      rw [List.splitOn_cons_eq_if_modifyHead] at mem
      split at mem
      · rcases List.mem_cons.mp mem with rfl | later
        · exact List.not_mem_nil
        · exact ih later
      · rename_i differ
        cases parts : rest.splitOn separator with
        | nil => exact absurd parts (List.splitOn_ne_nil separator rest)
        | cons head tail =>
            rw [parts] at mem ih
            rcases List.mem_cons.mp mem with rfl | later
            · rw [List.mem_cons, not_or]
              exact ⟨fun same => differ (beq_iff_eq.mpr same.symm), ih List.mem_cons_self⟩
            · exact ih (List.mem_cons_of_mem _ later)

/-- What a split text contains is in the text. -/
theorem mem_of_mem_splitOn {text part : List α} (mem : part ∈ text.splitOn separator) {element : α}
    (inside : element ∈ part)
    : element ∈ text := by
  have joined : [separator].intercalate (text.splitOn separator) = text :=
    List.intercalate_splitOn separator
  rw [← joined]
  exact mem_intercalate mem inside

/-- Splitting a joined text that was cut at a terminator gives the texts back just when there are
some and none contains the separator or the terminator.
-/
theorem splitOn_takeWhile_intercalate_iff (differ : separator ≠ terminator)
    (parts : List (List α))
    : (([separator].intercalate parts).takeWhile (· ≠ terminator)).splitOn separator = parts
      ↔ parts ≠ [] ∧ ∀ part ∈ parts, separator ∉ part ∧ terminator ∉ part := by
  constructor
  · intro same
    refine ⟨fun none => List.splitOn_ne_nil _ _ (same.trans none), fun part mem => ?_⟩
    rw [← same] at mem
    refine ⟨separator_notMem_of_mem_splitOn mem, fun inside => ?_⟩
    have kept := List.mem_takeWhile_imp (mem_of_mem_splitOn mem inside)
    simp at kept
  · rintro ⟨some, plain⟩
    have whole : ([separator].intercalate parts).takeWhile (· ≠ terminator)
        = [separator].intercalate parts := by
      rw [List.takeWhile_eq_self_iff]
      intro element mem
      rw [decide_eq_true_eq]
      rintro rfl
      rcases mem_of_mem_intercalate mem with same | ⟨part, isPart, inside⟩
      · exact differ same.symm
      · exact (plain part isPart).2 inside
    rw [whole, List.splitOn_intercalate separator (fun part mem => (plain part mem).1) some]

end Joining
