import Mathlib

/-! Lists in pieces, each of which goes up to an element that ends it, such as the lines of a text. A window of
a list that grows is what is left when whole pieces are dropped at its front.
-/

namespace Pieces

variable {α : Type} (ends : α → Bool)

/-- The pieces of a list, each with the element that ends it. Only the last one may have no such element. -/
def pieces : List α → List (List α)
  | [] => []
  | element :: rest =>
      if ends element then [element] :: pieces rest
      else
        match pieces rest with
        | [] => [[element]]
        | piece :: others => (element :: piece) :: others

/-- The last pieces of a list. -/
def lastPieces (count : ℕ) (list : List α) : List α :=
  ((pieces ends list).drop ((pieces ends list).length - count)).flatten

/-- A list that stops where a piece does. -/
def IsClosed (list : List α) : Prop :=
  ∀ last ∈ list.getLast?, ends last = true

variable {ends} {element : α} {list front back : List α} {count : ℕ}

-----------------------------------------------------------------------------------------
-- Pieces
-----------------------------------------------------------------------------------------

/-- An element that ends a piece is a piece. -/
theorem pieces_cons_of_ends (isEnd : ends element = true) (rest : List α)
    : pieces ends (element :: rest) = [element] :: pieces ends rest :=
  if_pos isEnd

/-- Any other element is at the front of the first piece. -/
theorem pieces_cons_of_not (noEnd : ¬ ends element = true) {piece : List α} {others : List (List α)}
    (rest : pieces ends list = piece :: others)
    : pieces ends (element :: list) = (element :: piece) :: others := by
  rw [pieces, if_neg noEnd, rest]

/-- The pieces are those of the list. -/
theorem flatten_pieces (ends : α → Bool) (list : List α) : (pieces ends list).flatten = list := by
  induction list with
  | nil => rfl
  | cons element rest ih =>
      by_cases isEnd : ends element = true
      · rw [pieces_cons_of_ends isEnd, List.flatten_cons, ih, List.singleton_append]
      · cases found : pieces ends rest with
        | nil =>
            rw [found] at ih
            rw [pieces, if_neg isEnd, found, ← ih]
            rfl
        | cons piece others =>
            rw [found, List.flatten_cons] at ih
            rw [pieces_cons_of_not isEnd found, List.flatten_cons, List.cons_append, ih]

/-- Only the empty list has no pieces. -/
theorem pieces_eq_nil_iff : pieces ends list = [] ↔ list = [] := by
  constructor
  · intro none
    rw [← flatten_pieces ends list, none, List.flatten_nil]
  · rintro rfl
    rfl

/-- No piece is empty. -/
theorem nil_notMem_pieces (list : List α) : [] ∉ pieces ends list := by
  induction list with
  | nil => exact List.not_mem_nil
  | cons element rest ih =>
      by_cases isEnd : ends element = true
      · rw [pieces_cons_of_ends isEnd, List.mem_cons, not_or]
        exact ⟨nofun, ih⟩
      · cases found : pieces ends rest with
        | nil =>
            rw [pieces, if_neg isEnd, found, List.mem_singleton]
            exact nofun
        | cons piece others =>
            rw [found, List.mem_cons, not_or] at ih
            rw [pieces_cons_of_not isEnd found, List.mem_cons, not_or]
            exact ⟨nofun, ih.2⟩

/-- An element that ends no piece adds none to a list. -/
theorem length_pieces_cons (noEnd : ¬ ends element = true) (nonempty : list ≠ [])
    : (pieces ends (element :: list)).length = (pieces ends list).length := by
  cases found : pieces ends list with
  | nil => exact absurd (pieces_eq_nil_iff.mp found) nonempty
  | cons piece others =>
      rw [pieces_cons_of_not noEnd found]
      rfl

/-- The empty list is closed. -/
theorem isClosed_nil : IsClosed ends [] :=
  fun _ mem => nomatch mem

/-- A list is as closed as what its first element stands before. -/
theorem isClosed_cons_iff (nonempty : list ≠ []) : IsClosed ends (element :: list) ↔ IsClosed ends list := by
  rw [IsClosed, IsClosed, List.getLast?_cons_of_ne_nil nonempty]

/-- Closed lists in a row are closed. -/
theorem IsClosed.append (closed : IsClosed ends front) (closed' : IsClosed ends back)
    : IsClosed ends (front ++ back) := by
  intro last mem
  rw [List.getLast?_append, Option.mem_def, Option.or_eq_some_iff] at mem
  rcases mem with isLast | ⟨-, isLast⟩
  · exact closed' last isLast
  · exact closed last isLast

/-- What stands behind a closed list has its own pieces. -/
theorem pieces_append (closed : IsClosed ends front) (back : List α)
    : pieces ends (front ++ back) = pieces ends front ++ pieces ends back := by
  induction front with
  | nil => rfl
  | cons element rest ih =>
      by_cases isEnd : ends element = true
      · have closedRest : IsClosed ends rest := by
          cases rest with
          | nil => exact isClosed_nil
          | cons next others => exact (isClosed_cons_iff (List.cons_ne_nil _ _)).mp closed
        rw [List.cons_append, pieces_cons_of_ends isEnd, pieces_cons_of_ends isEnd, ih closedRest,
          List.cons_append]
      · have nonempty : rest ≠ [] := by
          rintro rfl
          exact isEnd (closed element rfl)
        cases found : pieces ends rest with
        | nil => exact absurd (pieces_eq_nil_iff.mp found) nonempty
        | cons piece others =>
            have both := ih ((isClosed_cons_iff nonempty).mp closed)
            rw [found, List.cons_append] at both
            rw [List.cons_append, pieces_cons_of_not isEnd both, pieces_cons_of_not isEnd found, List.cons_append]

/-- A list that grows has no fewer pieces. -/
theorem length_pieces_le (front back : List α)
    : (pieces ends front).length ≤ (pieces ends (front ++ back)).length := by
  induction front with
  | nil => exact Nat.zero_le _
  | cons element rest ih =>
      by_cases isEnd : ends element = true
      · rw [List.cons_append, pieces_cons_of_ends isEnd, pieces_cons_of_ends isEnd]
        exact Nat.succ_le_succ ih
      · by_cases nothing : rest = []
        · subst nothing
          have some : 0 < (pieces ends (element :: back)).length :=
            List.length_pos_iff.mpr (pieces_eq_nil_iff.not.mpr (List.cons_ne_nil _ _))
          rw [pieces, if_neg isEnd]
          exact some
        · have more : rest ++ back ≠ [] := fun same => nothing (List.append_eq_nil_iff.mp same).1
          rw [List.cons_append, length_pieces_cons isEnd nothing, length_pieces_cons isEnd more]
          exact ih

/-- Dropping pieces at the front leaves the other pieces, behind something closed. -/
theorem drop_pieces (below : count < (pieces ends list).length)
    : IsClosed ends ((pieces ends list).take count).flatten
      ∧ pieces ends ((pieces ends list).drop count).flatten = (pieces ends list).drop count := by
  induction list generalizing count with
  | nil => exact absurd below (Nat.not_lt_zero _)
  | cons element rest ih =>
      cases count with
      | zero => exact ⟨isClosed_nil, by rw [List.drop_zero, flatten_pieces]⟩
      | succ count =>
          by_cases isEnd : ends element = true
          · rw [pieces_cons_of_ends isEnd, List.length_cons] at below
            obtain ⟨closed, same⟩ := ih (Nat.lt_of_succ_lt_succ below)
            have first : IsClosed ends [element] := by
              rintro last ⟨⟩
              exact isEnd
            rw [pieces_cons_of_ends isEnd]
            exact ⟨first.append closed, same⟩
          · cases found : pieces ends rest with
            | nil =>
                rw [pieces, if_neg isEnd, found, List.length_singleton] at below
                omega
            | cons piece others =>
                rw [pieces_cons_of_not isEnd found, List.length_cons] at below
                rw [found, List.length_cons] at ih
                obtain ⟨closed, same⟩ := ih below
                have nonempty : piece ≠ [] := by
                  rintro rfl
                  exact nil_notMem_pieces rest (found ▸ List.mem_cons_self)
                have stays : piece ++ (others.take count).flatten ≠ [] :=
                  fun empty => nonempty (List.append_eq_nil_iff.mp empty).1
                rw [pieces_cons_of_not isEnd found]
                exact ⟨(isClosed_cons_iff stays).mpr closed, same⟩

-----------------------------------------------------------------------------------------
-- The last pieces
-----------------------------------------------------------------------------------------

/-- All pieces are the whole list. -/
theorem lastPieces_of_le (enough : (pieces ends list).length ≤ count) : lastPieces ends count list = list := by
  rw [lastPieces, Nat.sub_eq_zero_of_le enough, List.drop_zero, flatten_pieces]

/-- What stands behind a closed list is made of the last pieces. -/
theorem lastPieces_append (closed : IsClosed ends front) (back : List α)
    : lastPieces ends (pieces ends back).length (front ++ back) = back := by
  rw [lastPieces, pieces_append closed, List.length_append, Nat.add_sub_cancel, List.drop_left, flatten_pieces]

/-- The last pieces stand behind something closed. -/
theorem lastPieces_spec (ends : α → Bool) (positive : 0 < count) (list : List α)
    : ∃ front, list = front ++ lastPieces ends count list ∧ IsClosed ends front
      ∧ (pieces ends (lastPieces ends count list)).length = min count (pieces ends list).length := by
  by_cases enough : (pieces ends list).length ≤ count
  · refine ⟨[], ?_, isClosed_nil, ?_⟩
    · rw [lastPieces_of_le enough, List.nil_append]
    · rw [lastPieces_of_le enough, Nat.min_eq_right enough]
  · have inside : (pieces ends list).length - count < (pieces ends list).length := by omega
    obtain ⟨closed, same⟩ := drop_pieces inside
    refine ⟨_, ?_, closed, ?_⟩
    · rw [lastPieces, ← List.flatten_append, List.take_append_drop, flatten_pieces]
    · rw [lastPieces, same, List.length_drop]
      omega

-----------------------------------------------------------------------------------------
-- Windows
-----------------------------------------------------------------------------------------

/-- A window of a list: if anything is gone, it is whole pieces at the front, and not the last so many. -/
structure IsWindow (ends : α → Bool) (least : ℕ) (history window : List α) : Prop where
  gone : ∃ front, history = front ++ window ∧ IsClosed ends front
    ∧ (front = [] ∨ least ≤ (pieces ends window).length)

variable {least : ℕ} {history window : List α}

/-- The whole list is a window. -/
theorem IsWindow.refl (list : List α) : IsWindow ends least list list :=
  ⟨[], rfl, isClosed_nil, .inl rfl⟩

/-- A window grows with its list. -/
theorem IsWindow.append (isWindow : IsWindow ends least history window) (back : List α)
    : IsWindow ends least (history ++ back) (window ++ back) := by
  obtain ⟨front, rfl, closed, kept⟩ := isWindow.gone
  exact ⟨front, List.append_assoc _ _ _, closed, kept.imp_right fun enough => enough.trans (length_pieces_le _ _)⟩

/-- A window with so many of its last pieces as it must have is still a window. -/
theorem IsWindow.last (isWindow : IsWindow ends least history window) (positive : 0 < count) (enough : least ≤ count)
    : IsWindow ends least history (lastPieces ends count window) := by
  obtain ⟨front, rfl, closed, kept⟩ := isWindow.gone
  obtain ⟨dropped, split, closed', length⟩ := lastPieces_spec ends positive window
  refine ⟨front ++ dropped, ?_, closed.append closed', ?_⟩
  · rw [List.append_assoc, ← split]
  · by_cases all : (pieces ends window).length ≤ count
    · rw [lastPieces_of_le all] at split ⊢
      have nothing : dropped = [] := List.self_eq_append_left.mp split
      rw [nothing, List.append_nil]
      exact kept
    · right
      rw [length]
      omega

/-- When every element is a piece, there are as many pieces as elements. -/
theorem length_pieces_of_forall (all : ∀ element, ends element = true) (list : List α)
    : (pieces ends list).length = list.length := by
  induction list with
  | nil => rfl
  | cons element rest ih => rw [pieces_cons_of_ends (all element), List.length_cons, List.length_cons, ih]

/-- When every element is a piece, the last pieces are the last elements. -/
theorem lastPieces_of_forall (all : ∀ element, ends element = true) (count : ℕ) (list : List α)
    : lastPieces ends count list = list.drop (list.length - count) := by
  have closed (front : List α) : IsClosed ends front := fun last _ => all last
  by_cases enough : list.length ≤ count
  · rw [lastPieces_of_le (by rwa [length_pieces_of_forall all]), Nat.sub_eq_zero_of_le enough, List.drop_zero]
  · have isCount : (pieces ends (list.drop (list.length - count))).length = count := by
      rw [length_pieces_of_forall all, List.length_drop]
      omega
    have last := lastPieces_append (closed (list.take (list.length - count))) (list.drop (list.length - count))
    rwa [isCount, List.take_append_drop] at last

end Pieces
