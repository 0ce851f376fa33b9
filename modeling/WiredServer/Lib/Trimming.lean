import Mathlib

/-! Texts without the blanks around them. -/

namespace Trimming

variable {α : Type} (blank : α → Bool)

/-- The text without the blanks at its start and at its end. -/
def trim (text : List α) : List α :=
  (text.dropWhile blank).rdropWhile blank

/-- The text neither starts nor ends with a blank. -/
def IsTrimmed (text : List α) : Prop :=
  (∀ first, text.head? = some first → blank first = false)
    ∧ ∀ last, text.getLast? = some last → blank last = false

instance (text : List α) : Decidable (IsTrimmed blank text) :=
  inferInstanceAs (Decidable (_ ∧ _))

variable {blank} {text : List α}

/-- A trimmed text is left alone. -/
theorem trim_eq_self (trimmed : IsTrimmed blank text) : trim blank text = text := by
  have kept : text.dropWhile blank = text := by
    cases text with
    | nil => rfl
    | cons first rest => simp [trimmed.1 first rfl]
  rw [trim, kept, List.rdropWhile_eq_self_iff]
  intro nonempty
  simp [trimmed.2 _ (List.getLast?_eq_some_getLast nonempty)]

/-- What is left of a text is at its end or in front of blanks. -/
theorem trim_infix : trim blank text <:+: text :=
  (List.rdropWhile_prefix _ _).isInfix.trans (List.dropWhile_suffix _).isInfix

/-- What is left of a text is trimmed. -/
theorem isTrimmed_trim : IsTrimmed blank (trim blank text) := by
  constructor
  · intro first head
    obtain ⟨rest, whole⟩ : trim blank text <+: text.dropWhile blank := List.rdropWhile_prefix _ _
    have start : (text.dropWhile blank).head? = some first := by
      rw [← whole, List.head?_append, head, Option.some_or]
    have dropped := List.head?_dropWhile_not blank text
    rw [start] at dropped
    simpa using dropped
  · intro last final
    have nonempty : trim blank text ≠ [] := by
      intro empty
      rw [empty] at final
      cases final
    have kept := List.rdropWhile_last_not blank (text.dropWhile blank) nonempty
    rw [List.getLast?_eq_some_getLast nonempty] at final
    cases final
    exact eq_false_of_ne_true kept

/-- A blank in front of a text goes. -/
@[simp]
theorem trim_cons_blank {first : α} (isBlank : blank first = true)
    : trim blank (first :: text) = trim blank text := by
  rw [trim, List.dropWhile_cons_of_pos isBlank, trim]

/-- A blank behind a text goes. -/
@[simp]
theorem trim_concat_blank {last : α} (isBlank : blank last = true)
    : trim blank (text ++ [last]) = trim blank text := by
  by_cases all : ∀ item ∈ text, blank item = true
  · have behind : (text ++ [last]).dropWhile blank = [] := by
      rw [List.dropWhile_eq_nil_iff]
      intro item mem
      rcases List.mem_append.mp mem with inside | same
      · exact all item inside
      · rw [List.mem_singleton.mp same]
        exact isBlank
    rw [trim, trim, behind, List.dropWhile_eq_nil_iff.mpr all]
  · have left : text.dropWhile blank ≠ [] := by
      rw [Ne, List.dropWhile_eq_nil_iff]
      exact all
    have split : (text ++ [last]).dropWhile blank = text.dropWhile blank ++ [last] := by
      rw [List.dropWhile_append, if_neg (by simpa using left)]
    rw [trim, split, List.rdropWhile_concat_pos _ _ _ isBlank, trim]

end Trimming
