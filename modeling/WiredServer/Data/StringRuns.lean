import Mathlib
import WiredServer.Data.StringRoom

/-! Runs of calls on strings: from new strings, every call stays inside the capacity and leaves a zero
byte behind the bytes in use exactly when none of the calls meets a length, a buffer or an index for
which it has no room.
-/

namespace WiredServer.Data

open Bytes Loop

namespace Source

/-- The bytes that a source gives. -/
def given (strings : Strings) : Source → Block
  | .bytes given => given
  | .string number => (strings number).block.takeWhile (· ≠ 0)

/-- Sources can be read while all strings are sound. -/
theorem read_eq {strings : Strings} (sound : ∀ number, (strings number).Sound) (source : Source)
    : source.read strings = .ok (source.given strings) := by
  cases source with
  | bytes given => rfl
  | string number => exact (sound number).cstring_eq

/-- Bytes of the string itself are the first ones of its block. -/
theorem given_of_isOwn {strings : Strings} {target : ℕ} {source : Source}
    (own : source.isOwn target = true)
    : source.given strings
      = (strings target).block.take (source.given strings).length := by
  cases source with
  | bytes given => cases own
  | string number =>
      obtain rfl : number = target := by simpa [isOwn] using own
      obtain ⟨rest, split⟩ :=
        @List.takeWhile_prefix _ (strings number).block (fun byte => byte ≠ 0)
      change (strings number).block.takeWhile _ = _
      conv_rhs => rw [← split]
      exact List.take_left.symm

end Source

namespace StringCall

-----------------------------------------------------------------------------------------
-- What a call should do
-----------------------------------------------------------------------------------------

/-- The length that a call makes room for. -/
def wanted (strings : Strings) (target : ℕ) : StringCall → ℕ
  | .initWithCapacity capacity => capacity
  | .initWithBytes source => (source.given strings).length
  | .initNoCopy _ size _ => size
  | .initWithRandomBytes bytes => bytes.length
  | .append source => (strings target).length + (source.given strings).length
  | .insert source _ => (strings target).length + (source.given strings).length
  | .delete _ _ => (strings target).length
  | .set source => (source.given strings).length
  | .changeCase _ => (strings target).length

/-- The index or range of a call is inside the string, as its assertion demands. -/
def InRange (strings : Strings) (target : ℕ) : StringCall → Prop
  | .insert _ index => index ≤ (strings target).length
  | .delete location length =>
      location ≤ (strings target).length ∧ location + length ≤ (strings target).length
  | _ => True

instance (strings : Strings) (target : ℕ) : (call : StringCall)
    → Decidable (call.InRange strings target)
  | .initWithCapacity _ => .isTrue trivial
  | .initWithBytes _ => .isTrue trivial
  | .initNoCopy _ _ _ => .isTrue trivial
  | .initWithRandomBytes _ => .isTrue trivial
  | .append _ => .isTrue trivial
  | .insert _ _ => inferInstanceAs (Decidable (_ ≤ _))
  | .delete _ _ => inferInstanceAs (Decidable (_ ∧ _))
  | .set _ => .isTrue trivial
  | .changeCase _ => .isTrue trivial

/-- A call keeps its assertion and makes room for fewer than 2^31 bytes. -/
def Allowed (call : ℕ × StringCall) (strings : Strings) : Prop :=
  call.2.InRange strings call.1 ∧ call.2.wanted strings call.1 < 2 ^ 31

instance (call : ℕ × StringCall) (strings : Strings) : Decidable (Allowed call strings) :=
  inferInstanceAs (Decidable (_ ∧ _))

/-- A string after an insertion is the bytes in front of the index, the inserted ones and the rest. -/
def Inserts (strings : Strings) (target : ℕ) (next : WiString) : StringCall → Prop
  | .insert source index =>
      next.contents = (strings target).withInserted (source.given strings) index
  | _ => True

/-- There is room for what a call stores in a string and a zero byte behind it: a new length is not tight
where the call makes room for it, a buffer that is not copied has the zero byte, no bytes are freed or
lost on the way, and behind inserted bytes there is room for as many as the string has.
-/
def RoomIn (strings : Strings) (target : ℕ) : StringCall → Prop
  | .initWithBytes source => ¬Tight (source.given strings).length
  | .initNoCopy buffer size _ => buffer[size]? = some 0
  | .initWithRandomBytes bytes => ¬Tight bytes.length
  | .append source =>
      (strings target).Admits (source.isOwn target) (source.given strings).length
  | .insert source index =>
      (strings target).Admits (source.isOwn target) (source.given strings).length
        ∧ ¬(strings target).Loses (source.given strings).length
        ∧ index + (source.given strings).length + (strings target).length
          ≤ (strings target).roomFor (source.given strings).length
  | .set source =>
      source.isOwn target = true
        ∨ { strings target with length := 0 }.Admits false (source.given strings).length
  | _ => True

instance (strings : Strings) (target : ℕ) : (call : StringCall)
    → Decidable (call.RoomIn strings target)
  | .initWithCapacity _ => .isTrue trivial
  | .initWithBytes _ => inferInstanceAs (Decidable (¬_))
  | .initNoCopy _ _ _ => inferInstanceAs (Decidable (_ = _))
  | .initWithRandomBytes _ => inferInstanceAs (Decidable (¬_))
  | .append _ => inferInstanceAs (Decidable (WiString.Admits _ _ _))
  | .insert _ _ => inferInstanceAs (Decidable (_ ∧ ¬_ ∧ _ ≤ _))
  | .delete _ _ => .isTrue trivial
  | .set _ => inferInstanceAs (Decidable (_ ∨ _))
  | .changeCase _ => .isTrue trivial

/-- A call has room in its string. -/
def HasRoom (call : ℕ × StringCall) (strings : Strings) : Prop :=
  call.2.RoomIn strings call.1

instance (call : ℕ × StringCall) (strings : Strings) : Decidable (HasRoom call strings) :=
  inferInstanceAs (Decidable (RoomIn _ _ _))

-----------------------------------------------------------------------------------------
-- What a call does
-----------------------------------------------------------------------------------------

/-- A call whose function returns a string that it makes from bytes. -/
theorem ok_some_iff {made : Access WiString} {good : WiString → Prop}
    : (∃ next, (do let next ← made; Except.ok (some next) : Access (Option WiString))
        = .ok (some next) ∧ good next)
      ↔ ∃ next, made = .ok next ∧ good next := by
  constructor
  · rintro ⟨next, ran, right⟩
    obtain ⟨other, ran, same⟩ := Fallible.bind_eq_ok.mp ran
    cases same
    exact ⟨next, ran, right⟩
  · rintro ⟨next, ran, right⟩
    exact ⟨next, by rw [ran]; rfl, right⟩

/-- A call makes a sound string, with inserted bytes where they should be, exactly when it has room. -/
theorem onString_iff {junk : UInt8} {strings : Strings}
    (sound : ∀ number, (strings number).Sound) {call : ℕ × StringCall}
    (allowed : Allowed call strings)
    : (∃ next, call.2.onString junk strings call.1 = .ok (some next) ∧ next.Sound
        ∧ call.2.Inserts strings call.1 next)
      ↔ HasRoom call strings := by
  obtain ⟨target, call⟩ := call
  obtain ⟨inRange, short⟩ := allowed
  cases call with
  | initWithCapacity capacity =>
      exact iff_of_true ⟨_, rfl, WiString.sound_initWithCapacity capacity, trivial⟩ trivial
  | initWithBytes source =>
      simp only [onString, source.read_eq sound, bind, Except.bind, Inserts, and_true, HasRoom, RoomIn]
      exact ok_some_iff.trans ((WiString.initWithBytes_iff _).trans (lt_capacityFor_iff short))
  | initNoCopy buffer size free =>
      simp only [onString, Inserts, and_true, HasRoom, RoomIn]
      rw [← WiString.initNoCopy_iff buffer size free]
      exact ⟨fun ⟨next, ran, sound⟩ => by cases ran; exact sound, fun sound => ⟨_, rfl, sound⟩⟩
  | initWithRandomBytes bytes =>
      simp only [onString, Inserts, and_true, HasRoom, RoomIn]
      exact ok_some_iff.trans
        ((WiString.initWithRandomBytes_iff _).trans (lt_capacityFor_iff short))
  | append source =>
      simp only [onString, source.read_eq sound, bind, Except.bind, Inserts, and_true, HasRoom, RoomIn]
      rw [WiString.admits_iff short]
      exact ok_some_iff.trans ((sound target).appendBytes_iff _ _)
  | insert source index =>
      simp only [onString, source.read_eq sound, bind, Except.bind, Inserts, HasRoom, RoomIn]
      rw [WiString.admits_iff short]
      exact (sound target).insert_iff inRange Source.given_of_isOwn
  | delete location length =>
      simp only [onString, Inserts, and_true, HasRoom, RoomIn, iff_true]
      exact (sound target).deleteCharactersInRange inRange
  | set source =>
      simp only [onString, source.read_eq sound, bind, Except.bind, Inserts, and_true, HasRoom, RoomIn]
      have start : ({ strings target with length := 0 } : WiString).length
          + (source.given strings).length < 2 ^ 31 := by
        rw [Nat.zero_add]
        exact short
      have kept : ¬({ strings target with length := 0 } : WiString).Frees false
          (source.given strings).length :=
        fun frees => absurd frees.1 (by decide)
      rw [WiString.admits_iff start, and_iff_right kept, Nat.zero_add]
      exact ok_some_iff.trans ((sound target).setCstring_iff _ _)
  | changeCase change =>
      simp only [onString, Inserts, and_true, HasRoom, RoomIn, iff_true]
      exact ok_some_iff.mpr ((sound target).changeCase change)

/-- All strings are sound. -/
def AllSound (strings : Strings) : Prop :=
  ∀ number, (strings number).Sound

/-- A call on one of the strings leaves all of them sound, and bytes that it inserted where they should
be, exactly when it has room.
-/
theorem step_iff {junk : UInt8} {call : ℕ × StringCall} {strings : Strings}
    (sound : AllSound strings) (allowed : Allowed call strings)
    : (∃ next, step junk call strings = some next ∧ AllSound next
        ∧ call.2.Inserts strings call.1 (next call.1))
      ↔ HasRoom call strings := by
  rw [← @onString_iff junk strings sound call allowed]
  unfold step
  constructor
  · rintro ⟨next, stepped, soundNext, inserts⟩
    split at stepped
    · rename_i made ran
      cases stepped
      refine ⟨made, ran, ?_, ?_⟩
      · have here := soundNext call.1
        rwa [Function.update_self] at here
      · rwa [Function.update_self] at inserts
    · cases stepped
  · rintro ⟨made, ran, soundMade, inserts⟩
    refine ⟨Function.update strings call.1 made, by rw [ran], fun number => ?_, ?_⟩
    · by_cases same : number = call.1
      · rw [same, Function.update_self]
        exact soundMade
      · rw [Function.update_of_ne same]
        exact sound number
    · rwa [Function.update_self]

end StringCall

-----------------------------------------------------------------------------------------
-- What a run does
-----------------------------------------------------------------------------------------

namespace StringOperation

/-- Strings that hold nothing yet. -/
def newStrings : Strings :=
  fun _ => WiString.initWithCapacity 0

/-- Every call of a run of operations stays inside the capacity, leaves a zero byte behind the bytes in use
of all strings, and inserts bytes where they should be.
-/
def SoundThroughout (junk : UInt8) (calls : List (ℕ × StringCall)) : Prop :=
  ∀ seen call rest, calls = seen ++ call :: rest → ∃ middle next,
    Machine.run (StringCall.step junk) seen newStrings = some middle
    ∧ StringCall.step junk call middle = some next ∧ StringCall.AllSound next
    ∧ call.2.Inserts middle call.1 (next call.1)

/-- From new strings, every call of a run of operations does what it should exactly when all of them have
room.
-/
theorem soundThroughout_iff (junk : UInt8) (operations : List StringOperation)
    (allowed : Machine.Meets (StringCall.step junk) StringCall.Allowed
      (trace junk operations newStrings) newStrings)
    : SoundThroughout junk (trace junk operations newStrings)
      ↔ Machine.Meets (StringCall.step junk) StringCall.HasRoom
        (trace junk operations newStrings) newStrings := by
  have new : StringCall.AllSound newStrings := fun _ => WiString.sound_initWithCapacity 0
  exact Machine.does_throughout_iff
    (fun call strings sound allows => StringCall.step_iff sound allows) new allowed

/-- A string that is made, inserted into and appended to. -/
def editedString : List StringOperation :=
  [
    .direct 0 (.initWithBytes (.bytes [97, 98])),
    .direct 0 (.insert (.bytes [46]) 1),
    .appendFormat 0 [.bytes [99]]
  ]

set_option maxRecDepth 20000 in
theorem soundThroughout_editedString : SoundThroughout 7 (trace 7 editedString newStrings) :=
  (soundThroughout_iff 7 editedString (by decide +kernel)).mpr (by decide +kernel)

/-- If the operations of a run are done right, a run of one call for each of two of them is possible. -/
theorem SoundThroughout.run_pair {junk : UInt8} {first second : ℕ × StringCall}
    (possible : (Machine.run (StringCall.step junk) [first] newStrings).isSome = true)
    (sound : SoundThroughout junk
      (trace junk [.direct first.1 first.2, .direct second.1 second.2] newStrings))
    : (Machine.run (StringCall.step junk) [first, second] newStrings).isSome = true := by
  obtain ⟨middle, ran⟩ := Option.isSome_iff_exists.mp possible
  have split : trace junk [.direct first.1 first.2, .direct second.1 second.2] newStrings
      = [first] ++ trace junk [.direct second.1 second.2] middle := by
    have alone : Machine.run (StringCall.step junk)
        ((StringOperation.direct first.1 first.2).calls newStrings) newStrings = some middle := ran
    rw [trace, alone]
    rfl
  obtain ⟨between, last, ran', stepped, -⟩ := sound [first] second _ split
  exact Option.isSome_iff_exists.mpr
    ⟨last, @Machine.run_append _ _ _ [first] [second] _ _ |>.mpr
      ⟨between, ran', Machine.run_cons.mpr ⟨last, stepped, rfl⟩⟩⟩

set_option maxRecDepth 20000 in
/-- A string of 511 bytes has no room for the zero byte, and an insertion into the middle of a string of
200 bytes moves 200 bytes, past the capacity of 256.
-/
theorem not_soundThroughout_tight
    : ¬SoundThroughout 0
        (trace 0 [.direct 0 (.initWithBytes (.bytes (List.replicate 511 97)))] newStrings)
      ∧ ¬SoundThroughout 0
        (trace 0
          [
            .direct 0 (.initWithBytes (.bytes (List.replicate 200 97))),
            .direct 0 (.insert (.bytes [98]) 100)
          ]
          newStrings) := by
  constructor
  · intro sound
    obtain ⟨middle, next, ran, stepped, -⟩ := sound [] _ _ rfl
    cases ran
    have stuck : (StringCall.step 0 (0, .initWithBytes (.bytes (List.replicate 511 97)))
        newStrings).isNone = true := by
      decide +kernel
    rw [stepped] at stuck
    cases stuck
  · intro sound
    have possible := @SoundThroughout.run_pair 0
      (0, .initWithBytes (.bytes (List.replicate 200 97))) (0, .insert (.bytes [98]) 100)
      (by decide +kernel) sound
    have stuck : (Machine.run (StringCall.step 0)
        [(0, .initWithBytes (.bytes (List.replicate 200 97))), (0, .insert (.bytes [98]) 100)]
        newStrings).isSome = false := by
      decide +kernel
    exact absurd (stuck.symm.trans possible) (by decide)

end StringOperation

end WiredServer.Data
