import Mathlib
import WiredServer.Lib.Rewriting

/-! Cutting a text behind each occurrence of a separator, from left to right. What is cut does not depend
on the parts in which the text comes.
-/

namespace Cutting

open Occurrences Rewriting

variable {α : Type} [DecidableEq α] (separator : List α)

/-- The pieces of a text that end with the separator, each cut behind the first one that it has, and the
rest behind them. The elements since the last cut stand in front of the text.
-/
def cut : List α → List α → List (List α) × List α
  | front, [] => ([], front)
  | front, first :: text =>
      if separator <:+ front ++ [first] then
        ((front ++ [first]) :: (cut [] text).1, (cut [] text).2)
      else cut (front ++ [first]) text

variable {separator}

-----------------------------------------------------------------------------------------
-- Parts
-----------------------------------------------------------------------------------------

/-- A text is cut part by part: the rest of one part stands in front of the next one. By induction on the
first part.
-/
theorem cut_append (front text more : List α)
    : cut separator front (text ++ more)
      = ((cut separator front text).1 ++ (cut separator (cut separator front text).2 more).1,
        (cut separator (cut separator front text).2 more).2) := by
  induction text generalizing front with
  | nil => rfl
  | cons first text ih =>
      rw [List.cons_append, cut, cut]
      by_cases ends : separator <:+ front ++ [first]
      · rw [if_pos ends, if_pos ends, ih]
        rfl
      · rw [if_neg ends, if_neg ends, ih]

/-- The pieces and the rest make up the text, by induction on it. -/
theorem flatten_cut (front text : List α)
    : (cut separator front text).1.flatten ++ (cut separator front text).2 = front ++ text := by
  induction text generalizing front with
  | nil => simp [cut]
  | cons first text ih =>
      rw [cut]
      by_cases ends : separator <:+ front ++ [first]
      · rw [if_pos ends, List.flatten_cons, List.append_assoc, ih]
        simp
      · rw [if_neg ends, ih]
        simp

/-- What stands in front is no longer than the pieces and the rest may be, by induction on the text. -/
theorem length_front_le {front text : List α} {bound : ℕ}
    (pieces : ∀ piece ∈ (cut separator front text).1, piece.length ≤ bound)
    (rest : (cut separator front text).2.length ≤ bound)
    : front.length ≤ bound := by
  induction text generalizing front with
  | nil => exact rest
  | cons first text ih =>
      have longer : front.length ≤ (front ++ [first]).length := by simp
      rw [cut] at pieces rest
      by_cases ends : separator <:+ front ++ [first]
      · rw [if_pos ends] at pieces
        exact longer.trans (pieces _ List.mem_cons_self)
      · rw [if_neg ends] at pieces rest
        exact longer.trans (ih pieces rest)

-----------------------------------------------------------------------------------------
-- Places
-----------------------------------------------------------------------------------------

omit [DecidableEq α] in
/-- The first so many elements of a text end with the separator iff it occurs where it would begin. -/
theorem suffix_take_iff {text : List α} {count : ℕ} (inside : count ≤ text.length)
    : separator <:+ text.take count
      ↔ separator.length ≤ count ∧ OccursAt id separator text (count - separator.length) := by
  constructor
  · rintro ⟨before, split⟩
    have lengths := congrArg List.length split
    rw [List.length_append, List.length_take_of_le inside] at lengths
    refine ⟨by omega, ?_⟩
    have start : count - separator.length = before.length := by omega
    rw [OccursAt, List.map_id, List.map_id, start]
    refine ⟨text.drop count, ?_⟩
    have whole := List.take_append_drop count text
    rw [← split, List.append_assoc] at whole
    rw [← whole, List.drop_left]
    simp [← lengths]
  · rintro ⟨fits, rest, split⟩
    rw [List.map_id, List.map_id] at split
    refine ⟨text.take (count - separator.length), ?_⟩
    have whole := List.take_append_drop (count - separator.length) text
    rw [← split, ← List.append_assoc] at whole
    have front : (text.take (count - separator.length) ++ separator).length = count := by
      rw [List.length_append, List.length_take]
      omega
    conv_rhs => rw [← whole]
    exact (List.take_left' front).symm

/-- Nothing is cut from a text of which no first elements end with the separator, by induction on it. -/
theorem cut_of_forall {front text : List α}
    (uncut : ∀ count, 0 < count → count ≤ text.length → ¬separator <:+ front ++ text.take count)
    : cut separator front text = ([], front ++ text) := by
  induction text generalizing front with
  | nil => rw [cut, List.append_nil]
  | cons first text ih =>
      have here : ¬separator <:+ front ++ [first] := uncut 1 one_pos (by simp)
      rw [cut, if_neg here, ih, List.append_assoc]
      · rfl
      · intro count some inside
        have later := uncut (count + 1) (Nat.succ_pos count) (Nat.succ_le_succ inside)
        rwa [List.take_succ_cons, ← List.singleton_append, ← List.append_assoc] at later

/-- A text without the separator is not cut. -/
theorem cut_of_none (nonempty : separator ≠ []) {text : List α}
    (clean : firstPlace id separator text = none)
    : cut separator [] text = ([], text) := by
  have none := @firstPlace_isFirst _ _ _ id separator nonempty text
  rw [clean] at none
  refine cut_of_forall fun count _ inside ends => ?_
  rw [List.nil_append] at ends
  exact none _ ((suffix_take_iff inside).mp ends).2

/-- A text is cut behind the first place of the separator. -/
theorem cut_of_some (nonempty : separator ≠ []) {text : List α} {place : ℕ}
    (found : firstPlace id separator text = some place)
    : cut separator [] text
      = (text.take (place + separator.length)
          :: (cut separator [] (text.drop (place + separator.length))).1,
        (cut separator [] (text.drop (place + separator.length))).2) := by
  have first := @firstPlace_isFirst _ _ _ id separator nonempty text
  rw [found] at first
  have long := List.length_pos_of_ne_nil nonempty
  have bound := OccursAt.length_le first.1
  obtain ⟨last, ends⟩ : ∃ last, place + separator.length = last + 1 :=
    Nat.exists_eq_add_of_lt (by omega : 0 < place + separator.length) |>.imp fun _ => by omega
  have within : last < text.length := by omega
  -- no shorter front of the text ends with the separator
  have front : cut separator [] (text.take last) = ([], text.take last) := by
    refine cut_of_forall fun count _ inside ends' => ?_
    rw [List.length_take_of_le within.le] at inside
    rw [List.nil_append, List.take_take, Nat.min_eq_left inside] at ends'
    obtain ⟨fits, occurs⟩ := (suffix_take_iff (by omega)).mp ends'
    have least := first.2 occurs
    omega
  have piece : text.take last ++ [text[last]] = text.take (last + 1) :=
    List.take_append_getElem within
  have isSuffix : separator <:+ text.take last ++ [text[last]] := by
    rw [piece, suffix_take_iff (by omega)]
    refine ⟨by omega, ?_⟩
    rw [show last + 1 - separator.length = place by omega]
    exact first.1
  have split : text = text.take last ++ text[last] :: text.drop (last + 1) := by
    rw [List.getElem_cons_drop, List.take_append_drop]
  conv_lhs => rw [split, cut_append, front]
  rw [cut, if_pos isSuffix, piece, ends]
  rfl

/-- A text that goes on is cut behind the first place of the separator. -/
theorem cut_append_of_some (nonempty : separator ≠ []) {text : List α} {place : ℕ}
    (found : firstPlace id separator text = some place) (more : List α)
    : cut separator [] (text ++ more)
      = (text.take (place + separator.length)
          :: (cut separator [] (text.drop (place + separator.length) ++ more)).1,
        (cut separator [] (text.drop (place + separator.length) ++ more)).2) := by
  rw [cut_append, cut_of_some nonempty found, cut_append]
  rfl

/-- A text without the separator stands in front of what comes behind it. -/
theorem cut_append_of_none (nonempty : separator ≠ []) {text : List α}
    (clean : firstPlace id separator text = none) (more : List α)
    : cut separator [] (text ++ more) = cut separator text more := by
  rw [cut_append, cut_of_none nonempty clean]
  rfl

/-- Each piece has the separator at its end and nowhere in front of it, and the rest has it nowhere. By
induction on a bound of the length of the text.
-/
theorem firstPlace_of_cut (nonempty : separator ≠ []) (text : List α)
    : (∀ piece ∈ (cut separator [] text).1, ∃ front,
        piece = front ++ separator ∧ firstPlace id separator piece = some front.length)
      ∧ firstPlace id separator (cut separator [] text).2 = none := by
  induction bound : text.length using Nat.strong_induction_on generalizing text with
  | _ bound ih =>
      cases found : firstPlace id separator text with
      | none =>
          rw [cut_of_none nonempty found]
          exact ⟨nofun, found⟩
      | some place =>
          have first := @firstPlace_isFirst _ _ _ id separator nonempty text
          rw [found] at first
          have long := List.length_pos_of_ne_nil nonempty
          have inside := OccursAt.length_le first.1
          obtain ⟨later, rest⟩ := ih (text.drop (place + separator.length)).length
            (by rw [List.length_drop]; omega) _ rfl
          rw [cut_of_some nonempty found]
          refine ⟨?_, rest⟩
          intro piece mem
          rcases List.mem_cons.mp mem with rfl | mem
          · have fits : place + separator.length ≤ text.length := by omega
            have ends : separator <:+ text.take (place + separator.length) := by
              rw [suffix_take_iff fits, Nat.add_sub_cancel]
              exact ⟨Nat.le_add_left _ _, first.1⟩
            obtain ⟨front, split⟩ := ends
            have length : front.length = place := by
              have lengths := congrArg List.length split
              rw [List.length_append, List.length_take_of_le fits] at lengths
              omega
            refine ⟨front, split.symm, ?_⟩
            have own := @firstPlace_isFirst _ _ _ id separator nonempty
              (text.take (place + separator.length))
            refine own.unique ⟨?_, fun other occurs => ?_⟩
            · have here : OccursAt id separator (front ++ separator) front.length := by
                rw [OccursAt, List.drop_left]
              rwa [split] at here
            · rw [length]
              refine first.2 ?_
              have earlier : OccursAt id separator (text.take (place + separator.length)) other := occurs
              rw [OccursAt, List.map_id, List.map_id, List.drop_take] at earlier
              show OccursAt id separator text other
              rw [OccursAt, List.map_id, List.map_id]
              exact earlier.trans (List.take_prefix _ _)
          · exact later piece mem

end Cutting
