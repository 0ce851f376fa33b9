import Mathlib

/-! Stable sorting: the elements that are tied keep their order. A list has one stable sort, and inserting
elements one by one, each behind the last one that it does not precede, comes to it.
-/

namespace StableSorting

variable {α : Type}

/-- An order of elements, some of which may be tied. -/
structure IsOrder (le : α → α → Bool) : Prop where
  trans : ∀ a b c, le a b → le b c → le a c
  total : ∀ a b, le a b || le b a

/-- Neither of two elements precedes the other. -/
def tied (le : α → α → Bool) (a b : α) : Bool :=
  le a b && le b a

/-- The elements of a list in order, where the elements that are tied keep theirs. -/
structure SortsStably (le : α → α → Bool) (sorted list : List α) : Prop where
  ordered : sorted.Pairwise fun a b => le a b
  perm : sorted.Perm list
  stable : ∀ a, sorted.filter (tied le a) = list.filter (tied le a)

/-- An element behind the last one that it does not precede. -/
def insertBehind (le : α → α → Bool) (a : α) (list : List α) : List α :=
  list.takeWhile (le · a) ++ a :: list.dropWhile (le · a)

variable {le : α → α → Bool} (order : IsOrder le)

section Order

include order

/-- An element is tied with itself. -/
theorem IsOrder.tied_self (a : α)
    : tied le a a = true := by
  have self := order.total a a
  rw [Bool.or_self] at self
  rw [tied, self]
  rfl

/-- What is tied with an element that another one is tied with is tied with the other one. -/
theorem IsOrder.tied_trans {a b c : α} (first : tied le a b = true) (second : tied le b c = true)
    : tied le a c = true := by
  obtain ⟨ab, ba⟩ := Bool.and_eq_true_iff.mp first
  obtain ⟨bc, cb⟩ := Bool.and_eq_true_iff.mp second
  rw [tied, order.trans a b c ab bc, order.trans c b a cb ba]
  rfl

/-- Lists with the same elements tied with each element have the same elements. -/
theorem mem_of_filter_tied {list other : List α}
    (same : ∀ a, list.filter (tied le a) = other.filter (tied le a)) {a : α} (mem : a ∈ list)
    : a ∈ other := by
  have kept : a ∈ list.filter (tied le a) := List.mem_filter.mpr ⟨mem, order.tied_self a⟩
  rw [same] at kept
  exact (List.mem_filter.mp kept).1

/-- Lists in order, with the same elements tied with each element in the same order, are equal. -/
theorem eq_of_filter_tied {list other : List α} (ordered : list.Pairwise fun a b => le a b)
    (ordered' : other.Pairwise fun a b => le a b)
    (same : ∀ a, list.filter (tied le a) = other.filter (tied le a))
    : list = other := by
  induction list generalizing other with
  | nil =>
      rcases other with _ | ⟨first', rest'⟩
      · rfl
      · cases mem_of_filter_tied order (fun a => (same a).symm) (List.mem_cons_self : first' ∈ first' :: rest')
  | cons first rest ih =>
      rcases other with _ | ⟨first', rest'⟩
      · cases mem_of_filter_tied order same (List.mem_cons_self : first ∈ first :: rest)
      · obtain ⟨least, ordered⟩ := List.pairwise_cons.mp ordered
        obtain ⟨least', behind'⟩ := List.pairwise_cons.mp ordered'
        -- each head is in the other list, so neither precedes the other
        have below : le first first' = true := by
          rcases List.mem_cons.mp (mem_of_filter_tied order (fun a => (same a).symm) List.mem_cons_self)
            with equal | mem
          · rw [equal]
            exact (Bool.and_eq_true_iff.mp (order.tied_self first)).1
          · exact least first' mem
        have above : le first' first = true := by
          rcases List.mem_cons.mp (mem_of_filter_tied order same List.mem_cons_self) with equal | mem
          · rw [equal]
            exact (Bool.and_eq_true_iff.mp (order.tied_self first')).1
          · exact least' first mem
        have both : tied le first first' = true := Bool.and_eq_true_iff.mpr ⟨below, above⟩
        have heads := same first
        rw [List.filter_cons_of_pos (order.tied_self first), List.filter_cons_of_pos both] at heads
        obtain ⟨rfl, -⟩ := List.cons.inj heads
        refine congrArg (first :: ·) (ih ordered behind' fun a => ?_)
        have filters := same a
        by_cases isTied : tied le a first = true
        · rw [List.filter_cons_of_pos isTied, List.filter_cons_of_pos isTied] at filters
          exact (List.cons.inj filters).2
        · rw [List.filter_cons_of_neg isTied, List.filter_cons_of_neg isTied] at filters
          exact filters

/-- A list has one stable sort. -/
theorem SortsStably.unique {sorted sorted' list : List α} (sorts : SortsStably le sorted list)
    (sorts' : SortsStably le sorted' list)
    : sorted = sorted' :=
  eq_of_filter_tied order sorts.ordered sorts'.ordered fun a =>
    (sorts.stable a).trans (sorts'.stable a).symm

/-- The merge sort of a list is stable. -/
theorem sortsStably_mergeSort (list : List α)
    : SortsStably le (list.mergeSort le) list where
  ordered := List.pairwise_mergeSort order.trans order.total list
  perm := List.mergeSort_perm list le
  stable a := by
    have ordered : (list.filter (tied le a)).Pairwise fun b c => le b c := by
      refine List.pairwise_of_forall_mem_list fun b memB c memC => ?_
      have first := (Bool.and_eq_true_iff.mp (List.mem_filter.mp memB).2).2
      have second := (Bool.and_eq_true_iff.mp (List.mem_filter.mp memC).2).1
      exact order.trans b a c first second
    have part := (List.sublist_mergeSort order.trans order.total ordered
      List.filter_sublist).filter (tied le a)
    rw [List.filter_filter] at part
    simp only [Bool.and_self] at part
    exact (part.eq_of_length ((List.mergeSort_perm list le).symm.filter _).length_eq).symm

/-- The elements behind the place of an inserted one are those that it precedes. -/
theorem not_le_of_mem_dropWhile {list : List α} (ordered : list.Pairwise fun a b => le a b) {a b : α}
    (mem : b ∈ list.dropWhile (le · a))
    : le b a = false := by
  rw [← Bool.not_eq_true]
  intro below
  cases behind : list.dropWhile (le · a) with
  | nil =>
      rw [behind] at mem
      cases mem
  | cons first rest =>
      have stops : le first a = false := by
        have head := List.head?_dropWhile_not (le · a) list
        rw [behind] at head
        simpa using head
      rw [behind] at mem
      rcases List.mem_cons.mp mem with rfl | later
      · rw [stops] at below
        cases below
      · have sub := ordered.sublist (List.dropWhile_sublist (le · a))
        rw [behind] at sub
        have least := (List.pairwise_cons.mp sub).1 b later
        rw [order.trans first b a least below] at stops
        cases stops

/-- An element that is inserted in a list in order leaves it in order. -/
theorem ordered_insertBehind {list : List α} (ordered : list.Pairwise fun a b => le a b) (a : α)
    : (insertBehind le a list).Pairwise fun a b => le a b := by
  have before : ∀ b ∈ list.takeWhile (le · a), le b a = true := fun b mem =>
    List.mem_takeWhile_imp (p := (le · a)) mem
  have behind : ∀ b ∈ list.dropWhile (le · a), le a b = true := by
    intro b mem
    have either := order.total a b
    rw [not_le_of_mem_dropWhile order ordered mem, Bool.or_false] at either
    exact either
  refine List.pairwise_append.mpr ⟨ordered.sublist (List.takeWhile_sublist _),
    List.pairwise_cons.mpr ⟨behind, ordered.sublist (List.dropWhile_sublist _)⟩, ?_⟩
  intro b memB c memC
  rcases List.mem_cons.mp memC with rfl | later
  · exact before b memB
  · exact order.trans b a c (before b memB) (behind c later)

omit order in
/-- An element that is inserted is added to the others. -/
theorem perm_insertBehind (a : α) (list : List α)
    : (insertBehind le a list).Perm (a :: list) := by
  refine List.perm_middle.trans (List.Perm.cons a ?_)
  rw [List.takeWhile_append_dropWhile]

/-- An element that is inserted last stands last among those that it is tied with. -/
theorem SortsStably.insertBehind {sorted list : List α} (sorts : SortsStably le sorted list) (a : α)
    : SortsStably le (insertBehind le a sorted) (list ++ [a]) where
  ordered := ordered_insertBehind order sorts.ordered a
  perm := (perm_insertBehind a sorted).trans
    ((sorts.perm.cons a).trans (List.perm_append_singleton a list).symm)
  stable b := by
    have whole := sorts.stable b
    rw [← List.takeWhile_append_dropWhile (p := (le · a)) (l := sorted), List.filter_append] at whole
    rw [StableSorting.insertBehind, List.filter_append, List.filter_append, ← whole]
    by_cases isTied : tied le b a = true
    · -- nothing behind the element is tied with it
      have none : (sorted.dropWhile (le · a)).filter (tied le b) = [] := by
        refine List.filter_eq_nil_iff.mpr fun c mem tiedC => ?_
        have below := order.trans c b a (Bool.and_eq_true_iff.mp tiedC).2
          (Bool.and_eq_true_iff.mp isTied).1
        rw [not_le_of_mem_dropWhile order sorts.ordered mem] at below
        cases below
      rw [List.filter_cons_of_pos isTied, none, List.filter_cons_of_pos isTied, List.append_nil]
      rfl
    · rw [List.filter_cons_of_neg isTied, List.filter_cons_of_neg isTied, List.filter_nil,
        List.append_nil]

/-- Inserting the elements of a list one by one sorts it stably. -/
theorem foldl_insertBehind_eq_mergeSort (list : List α)
    : list.foldl (fun sorted a => StableSorting.insertBehind le a sorted) [] = list.mergeSort le := by
  have sorts : SortsStably le
      (list.foldl (fun sorted a => StableSorting.insertBehind le a sorted) []) list := by
    induction list using List.reverseRecOn with
    | nil => exact ⟨List.Pairwise.nil, List.Perm.refl _, fun _ => rfl⟩
    | append_singleton list a ih =>
        rw [List.foldl_append]
        exact ih.insertBehind order a
  exact sorts.unique order (sortsStably_mergeSort order list)

end Order

end StableSorting
