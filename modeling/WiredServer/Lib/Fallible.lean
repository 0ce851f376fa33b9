import Mathlib

/-! Rules for programs that stop at their first failure.
A successful run splits into the successful runs of its parts, and a loop keeps what each of
its rounds keeps.
-/

namespace Fallible

variable {ε α β σ : Type}

/-- A program that is known to succeed has a result. -/
theorem exists_ok_of_isOk {program : Except ε α} (succeeds : program.isOk = true)
    : ∃ result, program = .ok result := by
  cases program with
  | ok result => exact ⟨result, rfl⟩
  | error failure => cases succeeds

/-- A sequence succeeds iff its first part does and the rest succeeds on its result. -/
theorem bind_eq_ok {first : Except ε α} {rest : α → Except ε β} {result : β}
    : first >>= rest = .ok result ↔ ∃ value, first = .ok value ∧ rest value = .ok result := by
  cases first with
  | error failure => simp [bind, Except.bind]
  | ok value => simp [bind, Except.bind]

/-- A sequence fails iff its first part fails or the rest fails on its result. -/
theorem bind_eq_error {first : Except ε α} {rest : α → Except ε β} {failure : ε}
    : first >>= rest = .error failure
      ↔ first = .error failure ∨ ∃ value, first = .ok value ∧ rest value = .error failure := by
  cases first with
  | error other => simp [bind, Except.bind]
  | ok value => simp [bind, Except.bind]

/-- A loop over a list preserves what each of its rounds preserves, by list induction. -/
theorem foldlM_preserves {step : σ → α → Except ε σ} (kept : σ → Prop) {items : List α}
    (round : ∀ {state item next}, item ∈ items → kept state → step state item = .ok next
      → kept next)
    {init result : σ} (start : kept init) (run : items.foldlM step init = .ok result)
    : kept result := by
  induction items generalizing init with
  | nil =>
      cases run
      exact start
  | cons item rest ih =>
      rw [List.foldlM_cons, bind_eq_ok] at run
      obtain ⟨next, stepped, remaining⟩ := run
      exact ih (fun member => round (.tail _ member)) (round (.head _) start stepped) remaining

/-- Checking all items of a list succeeds iff checking each of them does. -/
theorem forM_eq_ok {check : α → Except ε Unit} {items : List α}
    : items.forM check = .ok () ↔ ∀ item ∈ items, check item = .ok () := by
  induction items with
  | nil => exact iff_of_true rfl nofun
  | cons item items ih =>
      rw [List.forall_mem_cons, ← ih]
      refine bind_eq_ok.trans ?_
      exact ⟨fun ⟨(), first, rest⟩ => ⟨first, rest⟩, fun both => ⟨(), both⟩⟩

/-- A loop that succeeds has taken a round for each of its items, and goes on from there. -/
theorem foldlM_visits {step : σ → α → Except ε σ} {items : List α} {init result : σ}
    (run : items.foldlM step init = .ok result) {item : α} (mem : item ∈ items)
    : ∃ before after rest, step before item = .ok after ∧ rest ⊆ items
      ∧ rest.foldlM step after = .ok result := by
  induction items generalizing init with
  | nil => cases mem
  | cons first items ih =>
      rw [List.foldlM_cons, bind_eq_ok] at run
      obtain ⟨next, stepped, remaining⟩ := run
      rcases List.mem_cons.mp mem with rfl | mem
      · exact ⟨init, next, items, stepped, List.subset_cons_self _ _, remaining⟩
      · obtain ⟨before, after, rest, here, some, later⟩ := ih remaining mem
        exact ⟨before, after, rest, here, List.subset_cons_of_subset _ some, later⟩

end Fallible
