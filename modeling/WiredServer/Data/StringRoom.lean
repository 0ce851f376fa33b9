import Mathlib
import WiredServer.Data.Strings

/-! When the functions that write strings stay inside the capacity, leave a zero byte behind the bytes in
use, and insert what they should. Growing makes room for the bytes but not always for the zero byte,
and an insertion moves as many bytes as the whole string has.
-/

namespace WiredServer.Data

open Bytes Loop

-----------------------------------------------------------------------------------------
-- Capacities
-----------------------------------------------------------------------------------------

/-- A number of bytes that is one less than a power of two from 512 on. -/
def Tight (length : ℕ) : Prop :=
  ∃ k, 9 ≤ k ∧ length + 1 = 2 ^ k

instance (length : ℕ) : Decidable (Tight length) :=
  decidable_of_iff (9 ≤ Nat.log2 (length + 1) ∧ length + 1 = 2 ^ Nat.log2 (length + 1))
    ⟨fun same => ⟨_, same⟩, fun ⟨k, same⟩ => by
      have power : Nat.log2 (length + 1) = k := by rw [same.2, Nat.log2_two_pow]
      rwa [power]⟩

/-- A capacity for so many bytes, fewer than 2^31, has room for a zero byte behind them exactly when
their number is not tight.
-/
theorem lt_capacityFor_iff {length : ℕ} (short : length < 2 ^ 31)
    : length < capacityFor length ↔ ¬Tight length := by
  have high := lt_two_pow_log2 length
  have small : log2 length + 1 < 32 := by
    by_cases none : length = 0
    · subst none
      rw [log2_eq]
      decide
    · rw [log2_eq]
      have := (Nat.log2_lt none).mpr short
      omega
  unfold capacityFor stringMinSize
  rw [exp2m1, Nat.mod_eq_of_lt small, lt_max_iff]
  constructor
  · rintro room ⟨k, large, same⟩
    have many : 2 ^ 9 ≤ 2 ^ k := Nat.pow_le_pow_right (by decide) large
    rcases room with room | room
    · have same' : 2 ^ k < 2 ^ (log2 length + 1) := by omega
      have less := (Nat.pow_lt_pow_iff_right (by decide)).mp same'
      have low : 2 ^ log2 length ≤ length := by
        rw [log2_eq]
        exact Nat.log2_self_le (by omega)
      have more : 2 ^ k ≤ 2 ^ log2 length := Nat.pow_le_pow_right (by decide) (by omega)
      omega
    · omega
  · intro apart
    by_cases few : length < 256
    · exact .inr few
    · refine .inl ?_
      have large : 9 ≤ log2 length + 1 := by
        rw [log2_eq]
        have : 8 ≤ length.log2 := (Nat.le_log2 (by omega)).mpr (by omega)
        omega
      have other : length + 1 ≠ 2 ^ (log2 length + 1) := fun same => apart ⟨_, large, same⟩
      omega

namespace WiString

-----------------------------------------------------------------------------------------
-- Sound strings
-----------------------------------------------------------------------------------------

/-- The block has the capacity of the string, and a zero byte inside it follows the bytes in use. -/
structure Sound (string : WiString) : Prop where
  allocated : string.block.length = string.capacity
  room : string.length < string.capacity
  terminated : string.block[string.length]? = some 0

instance (string : WiString) : Decidable string.Sound :=
  decidable_of_iff (string.block.length = string.capacity ∧ string.length < string.capacity
      ∧ string.block[string.length]? = some 0)
    ⟨fun ⟨allocated, room, terminated⟩ => ⟨allocated, room, terminated⟩,
      fun sound => ⟨sound.allocated, sound.room, sound.terminated⟩⟩

/-- A new string is sound. -/
theorem sound_initWithCapacity (capacity : ℕ) : (initWithCapacity capacity).Sound where
  allocated := List.length_replicate
  room := lt_of_lt_of_le (by decide : 0 < stringMinSize) (le_max_right _ _)
  terminated := by
    have room : 0 < capacityFor capacity :=
      lt_of_lt_of_le (by decide : 0 < stringMinSize) (le_max_right _ _)
    simp [initWithCapacity, room]

section Sound

variable {junk : UInt8} {string : WiString}

/-- A sound string has bytes for C. -/
theorem Sound.cstring_eq (sound : string.Sound)
    : string.cstring = .ok (string.block.takeWhile (· ≠ 0)) :=
  if_pos (List.mem_of_getElem? sound.terminated)

/-- The bytes that C reads are among those in use. -/
theorem Sound.length_takeWhile_le (sound : string.Sound)
    : (string.block.takeWhile (· ≠ 0)).length ≤ string.length := by
  by_contra longer
  have inside : string.length < (string.block.takeWhile (· ≠ 0)).length := not_le.mp longer
  have same : (string.block.takeWhile (· ≠ 0))[string.length]? = some 0 := by
    obtain ⟨rest, split⟩ := @List.takeWhile_prefix _ string.block (fun byte => byte ≠ 0)
    have here := @List.getElem?_append_left _ _ rest _ inside
    rw [split, sound.terminated] at here
    exact here.symm
  have member := List.mem_of_getElem? same
  have differs := List.mem_takeWhile_imp member
  simp at differs

/-- The capacity that a string has after it has made room. -/
def roomFor (string : WiString) (count : ℕ) : ℕ :=
  if string.Grows count then capacityFor (string.length + count) else string.capacity

/-- Making room for more bytes keeps the length and allocates the capacity. -/
theorem Sound.withRoom (sound : string.Sound) (count : ℕ)
    : (string.withRoom junk count).block.length = string.roomFor count
      ∧ (string.withRoom junk count).capacity = string.roomFor count
      ∧ (string.withRoom junk count).length = string.length := by
  unfold WiString.withRoom roomFor grow
  split_ifs
  · exact ⟨Slots.length_resize _ _ _, rfl, rfl⟩
  · exact ⟨List.length_replicate, rfl, rfl⟩
  · exact ⟨sound.allocated, rfl, rfl⟩

/-- There is a zero byte behind the bytes after one has been stored there. -/
theorem sound_of_terminated {block after : Block} {length capacity : ℕ} {free : Bool}
    (allocated : block.length = capacity) (written : overwrite block length [0] = some after)
    : (⟨after, length, capacity, free⟩ : WiString).Sound := by
  obtain ⟨same, inside⟩ := overwrite_length written
  refine ⟨same.trans allocated, ?_, ?_⟩
  · rw [List.length_singleton] at inside
    change length < capacity
    omega
  · have stands := overwrite_standsAt written 0 (by simp)
    simpa using stands

/-- Bytes are appended, and a zero byte, exactly when there is room for both. -/
theorem Sound.appendBytes_iff (sound : string.Sound) (bytes : Block) (own : Bool)
    : (∃ next, string.appendBytes junk bytes own = .ok next ∧ next.Sound)
      ↔ ¬string.Frees own bytes.length
        ∧ string.length + bytes.length < string.roomFor bytes.length := by
  obtain ⟨allocated, capacity, length⟩ := @Sound.withRoom junk string sound bytes.length
  unfold WiString.appendBytes
  constructor
  · rintro ⟨next, ran, -⟩
    split at ran
    · cases ran
    · rename_i kept
      obtain ⟨block, stored, ran⟩ := Fallible.bind_eq_ok.mp ran
      obtain ⟨after, terminated, -⟩ := Fallible.bind_eq_ok.mp ran
      obtain ⟨same, -⟩ := overwrite_length (inside_eq_ok.mp stored)
      obtain ⟨-, room⟩ := overwrite_length (inside_eq_ok.mp terminated)
      rw [List.length_singleton, same, allocated, length] at room
      exact ⟨kept, room⟩
  · rintro ⟨kept, room⟩
    rw [if_neg kept]
    have fits : (string.withRoom junk bytes.length).length + bytes.length
        ≤ (string.withRoom junk bytes.length).block.length := by omega
    obtain ⟨block, stored⟩ := overwrite_inside fits
    obtain ⟨same, -⟩ := overwrite_length stored
    have fits' : (string.withRoom junk bytes.length).length + bytes.length + [(0 : UInt8)].length
        ≤ block.length := by
      rw [List.length_singleton]
      omega
    obtain ⟨after, terminated⟩ := overwrite_inside fits'
    refine ⟨⟨after, (string.withRoom junk bytes.length).length + bytes.length,
      (string.withRoom junk bytes.length).capacity, (string.withRoom junk bytes.length).free⟩, ?_,
      sound_of_terminated (same.trans (allocated.trans capacity.symm)) terminated⟩
    simp only [stored, terminated, inside_some, bind, Except.bind]

/-- Removing a range keeps a string sound. -/
theorem Sound.deleteCharactersInRange (sound : string.Sound) {location length : ℕ}
    (within : location ≤ string.length ∧ location + length ≤ string.length)
    : ∃ next, string.deleteCharactersInRange location length = .ok (some next) ∧ next.Sound := by
  have room := sound.room
  obtain ⟨block, closed, same⟩ : ∃ block, string.closeGap location length = .ok block
      ∧ block.length = string.capacity := by
    unfold closeGap
    split
    · have tailFits : location + length + (string.length - location - length)
          ≤ string.block.length := by
        rw [sound.allocated]
        omega
      obtain ⟨tail, read⟩ := slice_inside tailFits
      have moved : tail.length = string.length - location - length := (slice_eq_some.mp read).2.1
      have fits : location + tail.length ≤ string.block.length := by
        rw [sound.allocated]
        omega
      obtain ⟨block, stored⟩ := overwrite_inside fits
      refine ⟨block, ?_, (overwrite_length stored).1.trans sound.allocated⟩
      simp only [read, stored, inside_some, bind, Except.bind]
    · exact ⟨string.block, rfl, sound.allocated⟩
  have fits : string.length - length + [(0 : UInt8)].length ≤ block.length := by
    rw [List.length_singleton]
    omega
  obtain ⟨after, terminated⟩ := overwrite_inside fits
  refine ⟨⟨after, string.length - length, string.capacity, string.free⟩, ?_,
    sound_of_terminated same terminated⟩
  simp only [WiString.deleteCharactersInRange, within, and_self, if_true, closed, terminated,
    inside_some, bind, Except.bind]

/-- Changing the bytes in use one by one keeps a string sound. -/
theorem Sound.changeCase (sound : string.Sound) (change : UInt8 → UInt8)
    : ∃ next, string.changeCase change = .ok next ∧ next.Sound := by
  have room := sound.room
  have inside' : 0 + string.length ≤ string.block.length := by
    rw [sound.allocated]
    omega
  obtain ⟨bytes, read⟩ := slice_inside inside'
  have length : bytes.length = string.length := (slice_eq_some.mp read).2.1
  have fits : 0 + (bytes.map change).length ≤ string.block.length := by
    rw [List.length_map, length]
    exact inside'
  obtain ⟨block, stored⟩ := overwrite_inside fits
  refine ⟨{ string with block }, ?_, (overwrite_length stored).1.trans sound.allocated, sound.room,
    ?_⟩
  · simp only [WiString.changeCase, read, stored, inside_some, bind, Except.bind]
  · rw [← sound.terminated]
    unfold overwrite at stored
    rw [if_pos fits] at stored
    cases stored
    rw [List.take_zero, List.nil_append, List.getElem?_append_right (by simp [length]),
      List.length_map, length, Nat.sub_self, List.getElem?_drop, Nat.zero_add, Nat.add_zero]

/-- Setting bytes stays inside the capacity exactly when a string that holds nothing has room for them. -/
theorem Sound.setCstring_iff (sound : string.Sound) (bytes : Block) (own : Bool)
    : (∃ next, string.setCstring junk bytes own = .ok next ∧ next.Sound)
      ↔ own = true ∨ bytes.length < { string with length := 0 }.roomFor bytes.length := by
  cases own with
  | true => exact iff_of_true ⟨string, rfl, sound⟩ (.inl rfl)
  | false =>
      have room := sound.room
      have fits : 0 + [(0 : UInt8)].length ≤ string.block.length := by
        rw [List.length_singleton, sound.allocated]
        omega
      obtain ⟨block, stored⟩ := overwrite_inside fits
      have emptied : ({ string with block, length := 0 } : WiString).Sound :=
        sound_of_terminated sound.allocated stored
      have appended := @Sound.appendBytes_iff junk _ emptied bytes false
      have kept : ¬({ string with block, length := 0 } : WiString).Frees false bytes.length :=
        fun frees => absurd frees.1 (by decide)
      rw [and_iff_right kept, Nat.zero_add] at appended
      simp only [WiString.setCstring, stored, inside_some, bind, Except.bind, Bool.false_eq_true,
        if_false, false_or]
      exact appended

/-- Bytes are copied into a new string exactly when the capacity for them is larger than they are. -/
theorem initWithBytes_iff (bytes : Block)
    : (∃ next, initWithBytes junk bytes = .ok next ∧ next.Sound)
      ↔ bytes.length < capacityFor bytes.length := by
  have appended := @Sound.appendBytes_iff junk _ (sound_initWithCapacity bytes.length) bytes false
  have kept : ¬(initWithCapacity bytes.length).Frees false bytes.length :=
    fun frees => absurd frees.1 (by decide)
  have same : (initWithCapacity bytes.length).roomFor bytes.length = capacityFor bytes.length := by
    unfold roomFor
    split
    · simp [initWithCapacity]
    · rfl
  have start : (initWithCapacity bytes.length).length + bytes.length = bytes.length :=
    Nat.zero_add _
  rw [and_iff_right kept, same, start] at appended
  exact appended

/-- Random bytes leave a zero byte behind them exactly when the capacity for them is larger than they
are.
-/
theorem initWithRandomBytes_iff (bytes : Block)
    : (∃ next, initWithRandomBytes bytes = .ok next ∧ next.Sound)
      ↔ bytes.length < capacityFor bytes.length := by
  constructor
  · rintro ⟨next, ran, sound⟩
    obtain ⟨block, stored, ran⟩ := Fallible.bind_eq_ok.mp ran
    cases ran
    exact sound.room
  · intro room
    have allocated : (initWithCapacity bytes.length).block.length = capacityFor bytes.length :=
      List.length_replicate
    have fits : 0 + bytes.length ≤ (initWithCapacity bytes.length).block.length := by omega
    obtain ⟨block, stored⟩ := overwrite_inside fits
    refine ⟨{ initWithCapacity bytes.length with block, length := bytes.length }, ?_,
      (overwrite_length stored).1.trans allocated, room, ?_⟩
    · simp only [WiString.initWithRandomBytes, stored, inside_some, bind, Except.bind]
    · unfold overwrite at stored
      rw [if_pos fits] at stored
      cases stored
      rw [List.take_zero, List.nil_append, List.getElem?_append_right le_rfl, Nat.sub_self,
        List.getElem?_drop, Nat.zero_add, Nat.add_zero]
      exact List.getElem?_replicate_of_lt room

/-- A buffer that is not copied makes a sound string exactly when a zero byte follows in it. -/
theorem initNoCopy_iff (buffer : Block) (size : ℕ) (free : Bool)
    : (initNoCopy buffer size free).Sound ↔ buffer[size]? = some 0 := by
  have same : (buffer.take (size + 1))[size]? = buffer[size]? :=
    List.getElem?_take_of_lt (Nat.lt_succ_self size)
  constructor
  · intro sound
    rw [← same]
    exact sound.terminated
  · intro terminated
    have within := (List.getElem?_eq_some_iff.mp terminated).1
    exact ⟨by simp [initNoCopy]; omega, Nat.lt_succ_self size, same.trans terminated⟩

-----------------------------------------------------------------------------------------
-- Insertions
-----------------------------------------------------------------------------------------

/-- Growing loses bytes of a string whose block it may not free. -/
def Loses (string : WiString) (count : ℕ) : Prop :=
  string.free = false ∧ string.Grows count ∧ ∃ byte ∈ string.contents, byte ≠ 0

instance (string : WiString) (count : ℕ) : Decidable (string.Loses count) :=
  inferInstanceAs (Decidable (_ ∧ _))

/-- After making room a string still has its bytes, unless growing loses them. -/
theorem Sound.contents_withRoom_iff (sound : string.Sound) {count : ℕ}
    (room : string.length ≤ string.roomFor count)
    : (string.withRoom junk count).contents = string.contents ↔ ¬string.Loses count := by
  have inBlock : string.length ≤ string.block.length := by
    rw [sound.allocated]
    exact sound.room.le
  unfold WiString.withRoom
  split
  · rename_i grows
    rw [roomFor, if_pos grows] at room
    unfold grow
    split
    · rename_i owned
      have kept : ¬string.Loses count := fun loses => by
        have shared := loses.1
        rw [owned] at shared
        cases shared
      refine iff_of_true ?_ kept
      simp only [contents, Slots.resize]
      rw [List.take_append_of_le_length (by simp; omega), List.take_take, min_eq_left room]
    · rename_i shared
      simp only [contents]
      rw [List.take_replicate, min_eq_left room]
      have length : string.contents.length = string.length := by
        rw [contents, List.length_take, min_eq_left inBlock]
      constructor
      · rintro same ⟨-, -, byte, member, differs⟩
        change byte ∈ string.block.take string.length at member
        rw [← same] at member
        exact differs (List.eq_of_mem_replicate member)
      · intro kept
        refine (List.eq_replicate_iff.mpr ⟨length, fun byte member => ?_⟩).symm
        by_contra differs
        exact kept ⟨by simpa using shared, grows, byte, member, differs⟩
  · rename_i enough
    exact iff_of_true rfl fun loses => enough loses.2.1

/-- An insertion that stays inside the capacity moves the tail of the bytes behind those inserted. -/
theorem Sound.insert_spec (sound : string.Sound) {bytes : Block} {own : Bool} {index : ℕ}
    (within : index ≤ string.length) (kept : ¬string.Frees own bytes.length)
    (ownBytes : own = true → bytes = string.block.take bytes.length)
    (tailFits : index + bytes.length + string.length ≤ string.roomFor bytes.length)
    (fits : string.length + bytes.length < string.roomFor bytes.length)
    : ∃ next, string.insertCstringAtIndex junk bytes own index = .ok (some next) ∧ next.Sound
      ∧ next.contents = (string.withRoom junk bytes.length).contents.take index ++ bytes
        ++ (string.withRoom junk bytes.length).contents.drop index := by
  obtain ⟨allocated, capacity, length⟩ := @Sound.withRoom junk string sound bytes.length
  generalize grown : string.withRoom junk bytes.length = room at allocated capacity length
  have read : slice room.block index room.length
      = some ((room.block.drop index).take room.length) := if_pos (by omega)
  have moved : ((room.block.drop index).take room.length).length = room.length := by
    rw [List.length_take, List.length_drop]
    omega
  have stored : overwrite room.block (index + bytes.length) ((room.block.drop index).take room.length)
      = some (room.block.take (index + bytes.length) ++ (room.block.drop index).take room.length
        ++ room.block.drop (index + bytes.length + room.length)) := by
    rw [overwrite, if_pos (by omega), moved]
  generalize tailed : room.block.take (index + bytes.length) ++ (room.block.drop index).take room.length
    ++ room.block.drop (index + bytes.length + room.length) = block at stored
  obtain ⟨sameLength, -⟩ := overwrite_length stored
  have again : insertedBytes block bytes (own && !decide (string.Grows bytes.length)) = .ok bytes := by
    unfold insertedBytes
    split
    · rename_i reads
      rw [Bool.and_eq_true, Bool.not_eq_true', decide_eq_false_iff_not] at reads
      have unchanged : room = string := by rw [← grown, WiString.withRoom, if_neg reads.2]
      have front : block.take bytes.length = bytes := by
        rw [← tailed, List.append_assoc, List.take_append_of_le_length (by simp; omega),
          List.take_take, min_eq_left (by omega), unchanged, ← ownBytes reads.1]
      rw [slice, if_pos (by omega), List.drop_zero, front]
      rfl
    · rfl
  obtain ⟨block', stored'⟩ := @overwrite_inside block index bytes (by omega)
  obtain ⟨sameLength', -⟩ := overwrite_length stored'
  obtain ⟨after, terminated⟩ := @overwrite_inside block' (room.length + bytes.length) [0]
    (by rw [List.length_singleton]; omega)
  refine ⟨⟨after, room.length + bytes.length, room.capacity, room.free⟩, ?_,
    sound_of_terminated (by omega) terminated, ?_⟩
  · simp only [WiString.insertCstringAtIndex, within, if_true, kept, if_false, grown, read, stored,
      again, stored', terminated, inside_some, bind, Except.bind]
  · have frontLength : (room.block.take (index + bytes.length)).length = index + bytes.length := by
      rw [List.length_take]
      omega
    have front : block.take index = room.contents.take index := by
      rw [← tailed, List.append_assoc, List.take_append_of_le_length (by omega), List.take_take,
        WiString.contents, List.take_take, min_eq_left (by omega), min_eq_left (by omega)]
    have behind : (block.drop (index + bytes.length)).take (room.length - index)
        = room.contents.drop index := by
      rw [← tailed, List.append_assoc, List.drop_left' frontLength,
        List.take_append_of_le_length (by omega), List.take_take, min_eq_left (by omega),
        WiString.contents, List.drop_take]
    have split : room.length + bytes.length
        = (block.take index ++ bytes).length + (room.length - index) := by
      rw [List.length_append, List.length_take]
      omega
    change after.take (room.length + bytes.length) = _
    rw [overwrite_take_before terminated le_rfl, overwrite_eq stored', split, List.take_length_add_append,
      front, behind]

/-- The bytes of a string with others inserted at an index. -/
def withInserted (string : WiString) (bytes : Block) (index : ℕ) : Block :=
  string.contents.take index ++ bytes ++ string.contents.drop index

/-- Bytes that are read again are as many as before. -/
theorem length_insertedBytes {block bytes bytes' : Block} {again : Bool}
    (read : insertedBytes block bytes again = .ok bytes')
    : bytes'.length = bytes.length := by
  unfold insertedBytes at read
  split at read
  · exact (slice_eq_some.mp (inside_eq_ok.mp read)).2.1
  · cases read
    rfl

/-- An insertion that returned had room for the bytes, and for as many behind them as the string has. -/
theorem Sound.fits_of_insert (sound : string.Sound) {bytes : Block} {own : Bool} {index : ℕ}
    (within : index ≤ string.length) {next : WiString}
    (ran : string.insertCstringAtIndex junk bytes own index = .ok (some next))
    : ¬string.Frees own bytes.length
      ∧ index + bytes.length + string.length ≤ string.roomFor bytes.length
      ∧ string.length + bytes.length < string.roomFor bytes.length := by
  obtain ⟨allocated, capacity, length⟩ := @Sound.withRoom junk string sound bytes.length
  unfold insertCstringAtIndex at ran
  rw [if_pos within] at ran
  split at ran
  · cases ran
  · rename_i kept
    obtain ⟨tail, read, ran⟩ := Fallible.bind_eq_ok.mp ran
    obtain ⟨block, moved, ran⟩ := Fallible.bind_eq_ok.mp ran
    obtain ⟨bytes', again, ran⟩ := Fallible.bind_eq_ok.mp ran
    obtain ⟨block', stored, ran⟩ := Fallible.bind_eq_ok.mp ran
    obtain ⟨after, terminated, -⟩ := Fallible.bind_eq_ok.mp ran
    have tailLength := (slice_eq_some.mp (inside_eq_ok.mp read)).2.1
    have sameBytes := length_insertedBytes again
    obtain ⟨same, tailFits⟩ := overwrite_length (inside_eq_ok.mp moved)
    obtain ⟨same', -⟩ := overwrite_length (inside_eq_ok.mp stored)
    obtain ⟨-, fits⟩ := overwrite_length (inside_eq_ok.mp terminated)
    rw [List.length_singleton] at fits
    exact ⟨kept, by omega, by omega⟩

/-- Bytes are inserted where they should be exactly when nothing is freed or lost on the way and there is
room for as many bytes behind them as the string has.
-/
theorem Sound.insert_iff (sound : string.Sound) {bytes : Block} {own : Bool} {index : ℕ}
    (within : index ≤ string.length)
    (ownBytes : own = true → bytes = string.block.take bytes.length)
    : (∃ next, string.insertCstringAtIndex junk bytes own index = .ok (some next) ∧ next.Sound
        ∧ next.contents = string.withInserted bytes index)
      ↔ (¬string.Frees own bytes.length
        ∧ string.length + bytes.length < string.roomFor bytes.length)
        ∧ ¬string.Loses bytes.length
        ∧ index + bytes.length + string.length ≤ string.roomFor bytes.length := by
  constructor
  · rintro ⟨next, ran, -, right⟩
    obtain ⟨kept, tailFits, fits⟩ := sound.fits_of_insert within ran
    obtain ⟨other, ran', -, contents⟩ := sound.insert_spec within kept ownBytes tailFits fits
    cases ran.symm.trans ran'
    refine ⟨⟨kept, fits⟩, ?_, tailFits⟩
    rw [← @Sound.contents_withRoom_iff junk string sound _ (by omega)]
    obtain ⟨allocated, -, length⟩ := @Sound.withRoom junk string sound bytes.length
    have inBlock := sound.allocated
    have short := sound.room
    have sameLength : ((string.withRoom junk bytes.length).contents.take index).length
        = (string.contents.take index).length := by
      simp only [WiString.contents, List.length_take]
      omega
    rw [contents, withInserted, List.append_assoc, List.append_assoc] at right
    obtain ⟨front, rest⟩ := List.append_inj right sameLength
    have behind := List.append_cancel_left rest
    rw [← List.take_append_drop index (string.withRoom junk bytes.length).contents, front, behind,
      List.take_append_drop]
  · rintro ⟨⟨kept, fits⟩, loses, tailFits⟩
    obtain ⟨next, ran, soundNext, contents⟩ := sound.insert_spec within kept ownBytes tailFits fits
    refine ⟨next, ran, soundNext, ?_⟩
    rw [contents, (sound.contents_withRoom_iff (by omega)).mpr loses, withInserted]

/-- A string can take so many more bytes, its own or others: none of them is freed when it grows, and if
it does the new length is not tight.
-/
def Admits (string : WiString) (own : Bool) (count : ℕ) : Prop :=
  ¬string.Frees own count ∧ (string.Grows count → ¬Tight (string.length + count))

instance (string : WiString) (own : Bool) (count : ℕ) : Decidable (string.Admits own count) :=
  inferInstanceAs (Decidable (_ ∧ (_ → _)))

/-- A string can take bytes, up to a length below 2^31, exactly when there is room for them and a zero
byte.
-/
theorem admits_iff {own : Bool} {count : ℕ} (short : string.length + count < 2 ^ 31)
    : string.Admits own count
      ↔ ¬string.Frees own count ∧ string.length + count < string.roomFor count := by
  refine and_congr_right fun _ => ?_
  unfold roomFor
  split
  · rename_i grows
    rw [lt_capacityFor_iff short]
    exact ⟨fun apart => apart grows, fun apart _ => apart⟩
  · rename_i enough
    exact iff_of_true (fun grows => absurd grows enough) (not_le.mp enough)

end Sound

end WiString

end WiredServer.Data
