import Mathlib

/-! Paths as texts between separators: their components, whether components climb above the place
where they start, and the path that is left when `.` and `..` are worked out.
-/

namespace PathComponents

section Components

variable {α : Type} [DecidableEq α] (separator : α)

/-- The texts between separators that are not empty. -/
def components (path : List α) : List (List α) :=
  (path.splitOn separator).filter (· ≠ [])

/-- The empty path has no components. -/
@[simp]
theorem components_nil
    : components separator [] = [] := by
  rfl

/-- A separator divides components. -/
theorem components_append_cons (path rest : List α)
    : components separator (path ++ separator :: rest)
      = components separator path ++ components separator rest := by
  rw [components, List.splitOn_append_cons_self, List.filter_append]
  rfl

/-- A leading separator adds no component. -/
@[simp]
theorem components_cons_self (path : List α)
    : components separator (separator :: path) = components separator path :=
  components_append_cons separator [] path

/-- A trailing separator adds no component. -/
theorem components_append_singleton (path : List α)
    : components separator (path ++ [separator]) = components separator path := by
  rw [components_append_cons, components_nil, List.append_nil]

/-- A text without a separator is one component. -/
theorem components_of_notMem {text : List α} (nonempty : text ≠ [])
    (inside : separator ∉ text)
    : components separator text = [text] := by
  rw [components, List.splitOn_eq_singleton inside]
  simp [nonempty]

/-- Two paths meet between two components. -/
def MeetsBetween (path rest : List α) : Prop :=
  path = [] ∨ path.getLast? = some separator ∨ rest = [] ∨ rest.head? = some separator

instance (path rest : List α) : Decidable (MeetsBetween separator path rest) :=
  inferInstanceAs (Decidable (_ ∨ _))

/-- The components of two paths that meet between components. -/
theorem components_append {path rest : List α} (meet : MeetsBetween separator path rest)
    : components separator (path ++ rest)
      = components separator path ++ components separator rest := by
  rcases meet with rfl | last | rfl | first
  · rfl
  · obtain ⟨path, rfl⟩ := List.getLast?_eq_some_iff.mp last
    rw [components_append_singleton, List.append_assoc]
    exact components_append_cons separator path rest
  · rw [List.append_nil, components_nil, List.append_nil]
  · obtain ⟨rest, rfl⟩ := List.head?_eq_some_iff.mp first
    rw [components_append_cons, components_cons_self]

/-- The last component of a path that ends inside one. -/
theorem exists_components_append_last {path : List α} (nonempty : path ≠ [])
    (last : path.getLast? ≠ some separator)
    : ∃ start text, text ≠ [] ∧ separator ∉ text ∧ (start = [] ∨ start.getLast? = some separator)
      ∧ path = start ++ text := by
  induction path using List.reverseRecOn with
  | nil => exact absurd rfl nonempty
  | append_singleton path char ih =>
      rw [List.getLast?_concat] at last
      have other : char ≠ separator := fun same => last (congrArg some same)
      by_cases inside : path ≠ [] ∧ path.getLast? ≠ some separator
      · obtain ⟨start, text, -, outside, ends, rfl⟩ := ih inside.1 inside.2
        refine ⟨start, text ++ [char], by simp, ?_, ends, by simp⟩
        simp [outside, other.symm]
      · refine ⟨path, [char], by simp, by simp [other.symm], ?_, rfl⟩
        by_contra neither
        exact inside ⟨fun empty => neither (.inl empty), fun ends => neither (.inr ends)⟩

/-- What follows the separators of a path up to the next one is part of its first component. -/
theorem exists_components_append_first {text rest : List α} (outside : separator ∉ text)
    (nonempty : rest ≠ []) (first : rest.head? ≠ some separator)
    : ∃ word others, word ≠ [] ∧ components separator (text ++ rest) = (text ++ word) :: others := by
  obtain ⟨head, tail, rfl⟩ := List.exists_cons_of_ne_nil nonempty
  have other : head ≠ separator := fun same => first (congrArg some same)
  let word := (head :: tail).takeWhile (· ≠ separator)
  let remainder := (head :: tail).dropWhile (· ≠ separator)
  have cut : head :: tail = word ++ remainder := (List.takeWhile_append_dropWhile).symm
  have wordNonempty : word ≠ [] := by simp [word, other]
  have wordOutside : separator ∉ word := by
    intro member
    simpa using List.mem_takeWhile_imp member
  have meet : MeetsBetween separator (text ++ word) remainder := by
    cases ends : remainder with
    | nil => exact .inr (.inr (.inl rfl))
    | cons next _ =>
        refine .inr (.inr (.inr ?_))
        have stops := List.head?_dropWhile_not (fun char => decide (char ≠ separator)) (head :: tail)
        rw [show (head :: tail).dropWhile (fun char => decide (char ≠ separator)) = next :: _ from ends]
          at stops
        simpa using stops
  refine ⟨word, components separator remainder, wordNonempty, ?_⟩
  rw [cut, ← List.append_assoc, components_append separator meet,
    components_of_notMem separator (by simp [wordNonempty]) (by simp [outside, wordOutside])]
  rfl

/-- The components of a path begin those of a longer one only if the longer one goes on between two
components.
-/
theorem components_prefix_append_iff {path rest : List α}
    : components separator path <+: components separator (path ++ rest)
      ↔ MeetsBetween separator path rest := by
  constructor
  · intro starts
    by_contra apart
    simp only [MeetsBetween, not_or] at apart
    obtain ⟨pathNonempty, last, restNonempty, first⟩ := apart
    obtain ⟨start, text, textNonempty, outside, ends, rfl⟩ :=
      exists_components_append_last separator pathNonempty last
    have meet : ∀ rest, MeetsBetween separator start rest := fun rest =>
      ends.elim .inl fun ends => .inr (.inl ends)
    obtain ⟨word, others, wordNonempty, same⟩ :=
      exists_components_append_first separator outside restNonempty first
    rw [List.append_assoc, components_append separator (meet text),
      components_append separator (meet (text ++ rest)), same,
      components_of_notMem separator textNonempty outside,
      List.prefix_append_right_inj] at starts
    exact wordNonempty (by simpa using (List.cons_prefix_cons.mp starts).1)
  · intro meet
    rw [components_append separator meet]
    exact List.prefix_append _ _

end Components

section Climbing

variable {κ : Type} [DecidableEq κ] (here up : κ)

/-- Components that never climb above the place where they start, when it is so deep. -/
def descends : ℕ → List κ → Bool
  | _, [] => true
  | depth, component :: rest =>
      if component = here then descends depth rest
      else if component = up then
        match depth with
        | 0 => false
        | depth + 1 => descends depth rest
      else descends (depth + 1) rest

end Climbing

section Below

variable {α : Type} [DecidableEq α] (separator : α) (here up : List α)

/-- A path is at or below another by its components, and does not climb out of it. -/
def Below (root path : List α) : Prop :=
  ∃ rest, components separator path = components separator root ++ rest
    ∧ descends here up 0 rest = true

/-- A path that a longer one starts with. The longer one is below it if it goes on between two
components and does not climb.
-/
theorem below_append_iff {root rest : List α}
    : Below separator here up root (root ++ rest)
      ↔ MeetsBetween separator root rest
        ∧ descends here up 0 (components separator rest) = true := by
  constructor
  · rintro ⟨others, same, stays⟩
    have meet : MeetsBetween separator root rest :=
      (components_prefix_append_iff separator).mp ⟨others, same.symm⟩
    rw [components_append separator meet, List.append_cancel_left_eq] at same
    exact ⟨meet, same ▸ stays⟩
  · rintro ⟨meet, stays⟩
    exact ⟨_, components_append separator meet, stays⟩

end Below

end PathComponents
