import Mathlib
import WiredServer.Data.StringRoom
import WiredServer.Data.TextLists

/-! Edits of a text as a list of bytes, and that the functions on strings in memory make them.
-/

namespace WiredServer.Data

open Bytes Loop

-----------------------------------------------------------------------------------------
-- Edits
-----------------------------------------------------------------------------------------

/-- `wi_mutable_string_delete_characters_in_range` on the bytes of a string. An assertion that does
not hold ends the process, and there is no result.
-/
def deleteCharacters (string : Block) (location length : ℕ) : Option Block :=
  if location ≤ string.length ∧ location + length ≤ string.length then
    some (string.take location ++ string.drop (location + length))
  else none

/-- `wi_mutable_string_insert_string_at_index` on the bytes of a string. -/
def insertString (string otherstring : Block) (index : ℕ) : Option Block :=
  if index ≤ string.length then
    some (string.take index ++ cstring otherstring ++ string.drop index)
  else none

/-- `wi_mutable_string_replace_characters_in_range_with_string` on the bytes of a string. -/
def replaceCharacters (string : Block) (location length : ℕ) (replacement : Block) : Option Block :=
  (deleteCharacters string location length).bind fun string =>
    insertString string replacement location

/-- What replaces a range inside a string stands in its place. -/
theorem replaceCharacters_eq {string replacement : Block} {location length : ℕ}
    (inside : location + length ≤ string.length) (zeroFree : 0 ∉ replacement)
    : replaceCharacters string location length replacement
      = some (string.take location ++ replacement ++ string.drop (location + length)) := by
  have front : (string.take location).length = location := by
    rw [List.length_take]
    omega
  rw [replaceCharacters, deleteCharacters, if_pos ⟨by omega, inside⟩, Option.bind_some, insertString,
    if_pos (by rw [List.length_append]; omega), cstring_of_zero_notMem zeroFree,
    List.take_append_of_le_length (by omega), List.drop_append_of_le_length (by omega),
    List.take_of_length_le (by omega), List.drop_eq_nil_of_le (by omega), List.nil_append]

-----------------------------------------------------------------------------------------
-- In memory
-----------------------------------------------------------------------------------------

namespace WiString

variable {string : WiString}

/-- A sound string has as many bytes in use as its length says. -/
theorem Sound.length_contents (sound : string.Sound)
    : string.contents.length = string.length := by
  have room := sound.room
  rw [contents, List.length_take, sound.allocated]
  omega

/-- Closing a gap moves the bytes behind it to its place. -/
theorem Sound.take_closeGap (sound : string.Sound) {location length : ℕ}
    (within : location + length ≤ string.length) {block : Block}
    (closed : string.closeGap location length = .ok block)
    : block.take (string.length - length)
      = string.contents.take location ++ string.contents.drop (location + length) := by
  have room := sound.room
  unfold closeGap at closed
  split at closed
  · obtain ⟨tail, read, stored⟩ := Fallible.bind_eq_ok.mp closed
    have written := overwrite_take (inside_eq_ok.mp stored)
    have moved := (slice_eq_some.mp (inside_eq_ok.mp read)).2.1
    have tail_eq : tail = string.contents.drop (location + length) := by
      have same := inside_eq_ok.mp read
      unfold slice at same
      split at same
      · rw [contents, List.drop_take, ← Option.some.inj same, Nat.sub_sub]
      · cases same
    rw [show location + tail.length = string.length - length by omega] at written
    rw [written, tail_eq, contents, List.take_take, min_eq_left (by omega)]
  · cases closed
    rw [List.drop_eq_nil_of_le (by rw [sound.length_contents]; omega), List.append_nil, contents,
      List.take_take, min_eq_left (by omega), show string.length - length = location by omega]

/-- Deleting a range of a sound string deletes it from its bytes. -/
theorem Sound.contents_deleteCharactersInRange (sound : string.Sound) {location length : ℕ}
    (within : location ≤ string.length ∧ location + length ≤ string.length)
    : ∃ next, string.deleteCharactersInRange location length = .ok (some next) ∧ next.Sound
      ∧ deleteCharacters string.contents location length = some next.contents := by
  obtain ⟨next, ran, soundNext⟩ := sound.deleteCharactersInRange within
  refine ⟨next, ran, soundNext, ?_⟩
  unfold WiString.deleteCharactersInRange at ran
  rw [if_pos within] at ran
  obtain ⟨block, closed, ran⟩ := Fallible.bind_eq_ok.mp ran
  obtain ⟨after, terminated, ran⟩ := Fallible.bind_eq_ok.mp ran
  cases ran
  rw [deleteCharacters, if_pos (by rw [sound.length_contents]; exact within)]
  congr 1
  rw [← sound.take_closeGap within.2 closed]
  exact (overwrite_take_before (inside_eq_ok.mp terminated) le_rfl).symm

/-- Inserting bytes into a sound string that can take them, with room behind them for as many as it
has, inserts them into its bytes.
-/
theorem Sound.contents_insertCstringAtIndex {junk : UInt8} (sound : string.Sound) {bytes : Block}
    (zeroFree : 0 ∉ bytes) {index : ℕ} (within : index ≤ string.length)
    (admits : string.length + bytes.length < string.roomFor bytes.length)
    (kept : ¬string.Loses bytes.length)
    (tailFits : index + bytes.length + string.length ≤ string.roomFor bytes.length)
    : ∃ next, string.insertCstringAtIndex junk bytes false index = .ok (some next) ∧ next.Sound
      ∧ insertString string.contents bytes index = some next.contents := by
  have others : ¬string.Frees false bytes.length := by simp [Frees]
  obtain ⟨next, ran, soundNext, right⟩ :=
    (@Sound.insert_iff junk string sound bytes false index within nofun).mpr
      ⟨⟨others, admits⟩, kept, tailFits⟩
  refine ⟨next, ran, soundNext, ?_⟩
  rw [insertString, if_pos (by rw [sound.length_contents]; exact within),
    cstring_of_zero_notMem zeroFree, right]
  rfl

end WiString

end WiredServer.Data
