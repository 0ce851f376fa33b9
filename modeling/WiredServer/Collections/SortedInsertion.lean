import Mathlib
import WiredServer.Collections.ArrayContents
import WiredServer.Lib.StableSorting

/-! Adding data to a sorted array: it goes behind the last entry that it does not precede, so entries
that compare equal stand in the order in which they were added.
-/

namespace WiredServer.Collections

open Loop StableSorting

variable {α : Type}

-----------------------------------------------------------------------------------------
-- Comparisons
-----------------------------------------------------------------------------------------

/-- A comparison function (`wi_compare_func_t`) that is a total preorder. -/
structure IsComparison (compare : Option α → Option α → ℤ) : Prop where
  trans : ∀ a b c, compare a b ≤ 0 → compare b c ≤ 0 → compare a c ≤ 0
  reverse : ∀ a b, compare a b < 0 ↔ 0 < compare b a

/-- An entry does not come behind another one. -/
def atMost (compare : Option α → Option α → ℤ) (a b : Option α) : Bool :=
  compare a b ≤ 0

variable {compare : Option α → Option α → ℤ}

/-- A comparison orders the entries. -/
theorem IsComparison.isOrder (comparison : IsComparison compare) : IsOrder (atMost compare) where
  trans a b c first second := by
    have below := comparison.trans a b c (of_decide_eq_true first) (of_decide_eq_true second)
    exact decide_eq_true below
  total a b := by
    rw [Bool.or_eq_true, atMost, atMost, decide_eq_true_eq, decide_eq_true_eq]
    rcases le_or_gt (compare a b) 0 with below | above
    · exact .inl below
    · exact .inr ((comparison.reverse b a).mpr above).le

/-- What the loop looks for is the first entry that the data does not come behind. -/
theorem IsComparison.not_lt_eq_atMost (comparison : IsComparison compare) (data : Option α)
    : (fun other => decide ¬compare data other < 0) = (atMost compare · data) := by
  funext other
  rw [atMost, decide_eq_decide, comparison.reverse, not_lt]

-----------------------------------------------------------------------------------------
-- Insertion
-----------------------------------------------------------------------------------------

namespace WiArray

variable {array : WiArray α} {contents : List (Option α)} {callbacks : ArrayCallbacks α}

/-- Sorted insertion puts the data behind the last entry that does not come behind it. -/
theorem Sound.mutableAddDataSorted (sound : array.Sound contents)
    (comparison : IsComparison compare) {data : Option α}
    (present : callbacks.retains = true → data ≠ none)
    : ∃ next, array.mutableAddDataSorted callbacks data compare = .ok (some next)
      ∧ next.Sound (insertBehind (atMost compare) data contents) := by
  obtain ⟨nodes, holds⟩ := sound
  obtain ⟨item, made, created, beside, read, -, -⟩ := holds.createItem data
  obtain ⟨next, added, own⟩ := @HoldsBeside.addItemSorted α made nodes item data compare [] contents
    beside read
  have guard : (callbacks.retains && data.isNone) = false := by
    rw [Bool.and_eq_false_iff]
    cases retains : callbacks.retains with
    | false => exact .inl rfl
    | true => exact .inr (Option.isNone_eq_false_iff.mpr (Option.isSome_iff_ne_none.mpr (present retains)))
  refine ⟨next, ?_, ?_⟩
  · rw [List.length_nil, ← List.range_eq_range', ← beside.dataCount_eq] at added
    rw [WiArray.mutableAddDataSorted, guard]
    simp only [Bool.false_eq_true, if_false, created, bind, Except.bind, added]
  · rwa [comparison.not_lt_eq_atMost] at own

/-- Data that is added by sorted insertion, one after the other. -/
def addAllSorted (callbacks : ArrayCallbacks α) (compare : Option α → Option α → ℤ)
    : List (Option α) → WiArray α → Access (Option (WiArray α))
  | [], array => .ok (some array)
  | data :: inserted, array => do
      match ← array.mutableAddDataSorted callbacks data compare with
      | none => .ok none
      | some array => addAllSorted callbacks compare inserted array

/-- Insertions put the data in its places one by one, by induction on it. -/
theorem Sound.addAllSorted (sound : array.Sound contents) (comparison : IsComparison compare)
    {inserted : List (Option α)}
    (present : ∀ data ∈ inserted, callbacks.retains = true → data ≠ none)
    : ∃ next, WiArray.addAllSorted callbacks compare inserted array = .ok (some next)
      ∧ next.Sound (inserted.foldl
        (fun sorted data => insertBehind (atMost compare) data sorted) contents) := by
  induction inserted generalizing array contents with
  | nil => exact ⟨array, rfl, sound⟩
  | cons data inserted ih =>
      obtain ⟨next, added, soundNext⟩ :=
        sound.mutableAddDataSorted comparison (present data List.mem_cons_self)
      obtain ⟨last, ran, soundLast⟩ := ih soundNext fun other mem =>
        present other (List.mem_cons_of_mem data mem)
      refine ⟨last, ?_, soundLast⟩
      rw [WiArray.addAllSorted, added]
      exact ran

/-- Sorted insertion in a sorted array leaves it sorted, with the new entry behind those that compare
equal to it, and from an empty array on any sequence of insertions comes to the stable sort of what is
inserted.
-/
theorem sortedInsertion_sorts (callbacks : ArrayCallbacks α) (comparison : IsComparison compare)
    : (∀ {array : WiArray α} {contents : List (Option α)} {data : Option α},
        array.Sound contents → contents.Pairwise (compare · · ≤ 0) →
        (callbacks.retains = true → data ≠ none) →
        ∃ next before behind, array.mutableAddDataSorted callbacks data compare = .ok (some next)
          ∧ next.Sound (before ++ data :: behind)
          ∧ contents = before ++ behind
          ∧ (before ++ data :: behind).Pairwise (compare · · ≤ 0)
          ∧ (∀ other ∈ before, compare other data ≤ 0)
          ∧ ∀ other ∈ behind, compare data other < 0)
      ∧ ∀ (capacity : ℕ) {inserted : List (Option α)},
        (∀ data ∈ inserted, callbacks.retains = true → data ≠ none) →
        ∃ array sorted,
          addAllSorted callbacks compare inserted (initWithCapacity capacity) = .ok (some array)
          ∧ array.Sound sorted
          ∧ SortsStably (atMost compare) sorted inserted := by
  have order := comparison.isOrder
  refine ⟨fun {array contents data} sound ordered present => ?_,
    fun capacity {inserted} present => ?_⟩
  · have ordered' : contents.Pairwise fun a b => atMost compare a b :=
      ordered.imp decide_eq_true
    obtain ⟨next, added, own⟩ := sound.mutableAddDataSorted comparison present
    refine ⟨next, _, _, added, own, List.takeWhile_append_dropWhile.symm,
      (ordered_insertBehind order ordered' data).imp of_decide_eq_true, fun other mem => ?_,
      fun other mem => ?_⟩
    · exact of_decide_eq_true (List.mem_takeWhile_imp (p := (atMost compare · data)) mem)
    · have above := of_decide_eq_false (not_le_of_mem_dropWhile order ordered' mem)
      exact (comparison.reverse data other).mpr (not_le.mp above)
  · obtain ⟨array, ran, own⟩ := @Sound.addAllSorted α compare (initWithCapacity capacity) []
      callbacks ⟨[], holds_init capacity⟩ comparison inserted present
    refine ⟨array, _, ran, own, ?_⟩
    rw [foldl_insertBehind_eq_mergeSort order]
    exact sortsStably_mergeSort order inserted

/-- Numbers that are compared by their tens. -/
def compareTens (a b : Option ℕ) : ℤ :=
  (a.getD 0 / 10 : ℕ) - (b.getD 0 / 10 : ℕ)

theorem isComparison_compareTens : IsComparison compareTens where
  trans a b c first second := by
    rw [compareTens] at first second ⊢
    omega
  reverse a b := by
    rw [compareTens, compareTens]
    omega

/-- Four numbers, two pairs of which compare equal. -/
theorem sortedInsertion_sorts_tens
    : ∃ array sorted,
      addAllSorted ⟨false, false, fun a b => a == b⟩ compareTens
          [some 21, some 12, some 25, some 11] (initWithCapacity 0)
        = .ok (some array)
      ∧ array.Sound sorted
      ∧ SortsStably (atMost compareTens) sorted [some 21, some 12, some 25, some 11] :=
  (sortedInsertion_sorts _ isComparison_compareTens).2 0 nofun

end WiArray

end WiredServer.Collections
