import Mathlib

/-! Bags: collections that count how often they contain an element, or plain ones that contain it once
or not at all.
-/

/-- A multiset, or a set, which contains no element twice. -/
structure Bag (Q : Type) where
  counted : Bool
  all : Multiset Q
  plain : counted = false → all.Nodup

namespace Bag

variable {Q : Type}

/-- Bags of the same kind with the same elements are the same. -/
theorem ext_all {bag other : Bag Q} (counted : bag.counted = other.counted) (all : bag.all = other.all)
    : bag = other := by
  cases bag
  cases other
  simp_all

/-- A bag without elements. -/
def empty (counted : Bool) : Bag Q where
  counted := counted
  all := 0
  plain _ := Multiset.nodup_zero

variable [DecidableEq Q]

/-- One more of an element, or the element once. -/
def add (bag : Bag Q) (element : Q) : Bag Q where
  counted := bag.counted
  all := if bag.counted then element ::ₘ bag.all else bag.all.ndinsert element
  plain isPlain := by
    rw [if_neg (by simp [isPlain])]
    exact (bag.plain isPlain).ndinsert element

/-- One less of an element, if there is one. -/
def remove (bag : Bag Q) (element : Q) : Bag Q where
  counted := bag.counted
  all := bag.all.erase element
  plain isPlain := (bag.plain isPlain).erase element

/-- The elements of another bag, as often as there or once. -/
def setTo (bag other : Bag Q) : Bag Q where
  counted := bag.counted
  all := if bag.counted then other.all else other.all.dedup
  plain isPlain := by
    rw [if_neg (by simp [isPlain])]
    exact Multiset.nodup_dedup other.all

/-- Counted bags are the same if all their counts agree, other ones if they have the same elements. -/
def sameAs (bag other : Bag Q) : Bool :=
  if bag.counted ∧ other.counted then decide (bag.all = other.all)
  else decide (bag.all.toFinset = other.all.toFinset)

/-- A plain bag contains an element at most once. -/
theorem count_le_one {bag : Bag Q} (isPlain : bag.counted = false) (element : Q)
    : bag.all.count element ≤ 1 :=
  Multiset.nodup_iff_count_le_one.mp (bag.plain isPlain) element

/-- An element that is added to a counted bag is one more. -/
theorem all_add_of_counted {bag : Bag Q} (counted : bag.counted = true) (element : Q)
    : (bag.add element).all = element ::ₘ bag.all :=
  if_pos counted

/-- An element that is added to a plain bag is in it. -/
theorem all_add_of_plain {bag : Bag Q} (isPlain : bag.counted = false) (element : Q)
    : (bag.add element).all = bag.all.ndinsert element :=
  if_neg (by simp [isPlain])

/-- How often a bag contains an element after an addition. -/
theorem count_add (bag : Bag Q) (element other : Q)
    : (bag.add element).all.count other
      = if other = element then (if bag.counted then bag.all.count element + 1 else 1)
        else bag.all.count other := by
  rcases Bool.eq_false_or_eq_true bag.counted with counted | isPlain
  · rw [all_add_of_counted counted, if_pos counted, Multiset.count_cons]
    split
    · rename_i same
      rw [same]
    · rfl
  · have unique := (bag.plain isPlain).ndinsert element
    have notCounted : ¬bag.counted = true := by simp [isPlain]
    rw [all_add_of_plain isPlain, if_neg notCounted]
    split
    · rename_i same
      rw [same]
      exact Multiset.count_eq_one_of_mem unique (Multiset.mem_ndinsert_self _ _)
    · rename_i different
      by_cases present : element ∈ bag.all
      · rw [Multiset.ndinsert_of_mem present]
      · rw [Multiset.ndinsert_of_notMem present, Multiset.count_cons_of_ne different]

/-- How often a bag contains an element after a removal. -/
theorem count_remove (bag : Bag Q) (element other : Q)
    : (bag.remove element).all.count other
      = if other = element then bag.all.count element - 1 else bag.all.count other := by
  rw [remove]
  split
  · rename_i same
    rw [same, Multiset.count_erase_self]
  · rename_i different
    exact Multiset.count_erase_of_ne different bag.all

/-- A bag with an element added several times. -/
def addTimes (bag : Bag Q) (element : Q) : ℕ → Bag Q
  | 0 => bag
  | times + 1 => (bag.add element).addTimes element times

/-- It is of the same kind. -/
theorem counted_addTimes (bag : Bag Q) (element : Q) (times : ℕ)
    : (bag.addTimes element times).counted = bag.counted := by
  induction times generalizing bag with
  | zero => rfl
  | succ times ih => exact ih (bag.add element)

/-- It contains the element that often, or once. -/
theorem count_addTimes (bag : Bag Q) (element other : Q) (times : ℕ)
    : (bag.addTimes element (times + 1)).all.count other
      = if other = element then (if bag.counted then bag.all.count element + (times + 1) else 1)
        else bag.all.count other := by
  induction times generalizing bag with
  | zero => exact count_add bag element other
  | succ times ih =>
      rw [addTimes, ih, count_add, count_add, if_pos rfl]
      change (if other = element then (if bag.counted then _ else 1) else _) = _
      split
      · split <;> omega
      · rfl

/-- The elements of another bag are counted as there or once. -/
theorem count_setTo (bag other : Bag Q) (element : Q)
    : (bag.setTo other).all.count element
      = if bag.counted then other.all.count element
        else if element ∈ other.all then 1 else 0 := by
  rw [setTo]
  split
  · rfl
  · exact Multiset.count_dedup other.all element

end Bag
