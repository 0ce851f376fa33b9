import Mathlib
import WiredServer.P7.ReaderBounds

/-! The element loop of the list getter.
Nothing compares the length of an element with what is left of the field. The loop keeps to its
field exactly when the lengths in it are at least one and announce strings inside the field. A
length just below 2^32 adds up to the offset it stands at, and the loop would read it for ever.
-/

namespace WiredServer.P7

open Loop

-----------------------------------------------------------------------------------------
-- What the loop is meant to do
-----------------------------------------------------------------------------------------

/-- A part of a list field: its offset in the field and its length. -/
structure Part where
  start : ℕ
  count : ℕ
deriving DecidableEq

/-- Between a part and the next one stand the zero byte of the first and the length of the
second.
-/
def Part.Precedes (part next : Part) : Prop :=
  next.start = part.start + part.count + 5

/-- The element loop ends from a state. Its offset grows in every round without a wrap, and the
strings it adds are parts of the field, one behind the other.
-/
structure DecodesFrom (buffer : Bytes.Block) (position : ℕ) (size : UInt32)
    (state : UInt32 × List Bytes.Block) (states : List (UInt32 × List Bytes.Block))
    (list : List Bytes.Block) (parts : List Part)
    : Prop where
  rounds : Rounds (Message.listBody buffer position size) state states list
  grows : (state.1 :: states.map Prod.fst).IsChain (· < ·)
  unwrapped : ∀ offset ∈ state.1 :: states.map Prod.fst, ∀ length, offset < size
    → Bytes.read32 buffer (position + offset.toNat) = some length
    → offset.toNat + 4 + length.toNat < 2 ^ 32
  strings : list.map some = state.2.map some
    ++ parts.map fun part => Bytes.slice buffer (position + part.start) part.count
  inField : ∀ part ∈ parts, part.start + part.count ≤ size.toNat
  first : ∀ part ∈ parts.head?, part.start = state.1.toNat + 4
  consecutive : parts.IsChain Part.Precedes

/-- The list getter returns what the element loop makes of the field from its start on. -/
def Message.DecodesInOrder (message : Message) (name : String) (position : ℕ) (size : UInt32)
    : Prop :=
  ∃ states list parts, message.listForName name = .ok (.ok list)
    ∧ DecodesFrom message.binaryBuffer position size (0, []) states list parts

/-- The lengths in a list field lead from an offset to its end: each is at least one, and the
string it announces, without its zero byte, lies inside the field and inside the buffer.
-/
inductive WellCut (buffer : Bytes.Block) (position size : ℕ) : ℕ → Prop where
  | done {offset : ℕ} (ended : size ≤ offset) : WellCut buffer position size offset
  | next {offset : ℕ} {length : UInt32} (within : offset < size)
      (prefixed : Bytes.read32 buffer (position + offset) = some length)
      (positive : 0 < length)
      (inField : offset + 4 + (length.toNat - 1) ≤ size)
      (inBuffer : position + (offset + 4 + (length.toNat - 1)) ≤ buffer.length)
      (rest : WellCut buffer position size (offset + 4 + length.toNat))
      : WellCut buffer position size offset

-----------------------------------------------------------------------------------------
-- Rounds of the element loop
-----------------------------------------------------------------------------------------

section Rounds

variable {buffer : Bytes.Block} {position : ℕ} {size offset : UInt32} {list : List Bytes.Block}

/-- At the end of the field the loop stops. -/
theorem listBody_ended (ended : size ≤ offset)
    : Message.listBody buffer position size (offset, list) = .ok (.stop list) := by
  simp only [Message.listBody, UInt32.not_lt.mpr ended, if_false]

/-- Inside the field the loop adds the string that stands behind its length. -/
theorem listBody_within {length : UInt32} {item : Bytes.Block} (within : offset < size)
    (prefixed : Bytes.read32 buffer (position + offset.toNat) = some length)
    (found : Bytes.slice buffer (position + (offset + 4).toNat) (length - 1).toNat = some item)
    : Message.listBody buffer position size (offset, list)
      = .ok (.again (offset + 4 + length, list ++ [item])) := by
  simp only [Message.listBody, within, if_true, prefixed, inside_some, bind, Except.bind, found]

/-- A round that goes on has read a length and its string. -/
theorem listBody_again {next : UInt32 × List Bytes.Block}
    (round : Message.listBody buffer position size (offset, list) = .ok (.again next))
    : offset < size ∧ ∃ length item,
      Bytes.read32 buffer (position + offset.toNat) = some length
        ∧ Bytes.slice buffer (position + (offset + 4).toNat) (length - 1).toNat = some item
        ∧ next = (offset + 4 + length, list ++ [item]) := by
  by_cases within : offset < size
  · refine ⟨within, ?_⟩
    simp only [Message.listBody, within, if_true] at round
    obtain ⟨length, prefixed, round⟩ := Fallible.bind_eq_ok.mp round
    obtain ⟨item, found, round⟩ := Fallible.bind_eq_ok.mp round
    cases prefixed' : Bytes.read32 buffer (position + offset.toNat) <;>
      rw [prefixed'] at prefixed <;> cases prefixed
    cases found' : Bytes.slice buffer (position + (offset + 4).toNat) (length - 1).toNat <;>
      rw [found'] at found <;> cases found
    cases round
    exact ⟨length, item, rfl, found', rfl⟩
  · rw [listBody_ended (UInt32.not_lt.mp within)] at round
    cases round

/-- A round that stops has reached the end of the field. -/
theorem listBody_stop {result : List Bytes.Block}
    (round : Message.listBody buffer position size (offset, list) = .ok (.stop result))
    : size ≤ offset ∧ result = list := by
  by_cases within : offset < size
  · simp only [Message.listBody, within, if_true] at round
    obtain ⟨length, -, round⟩ := Fallible.bind_eq_ok.mp round
    obtain ⟨item, -, round⟩ := Fallible.bind_eq_ok.mp round
    cases round
  · rw [listBody_ended (UInt32.not_lt.mp within)] at round
    cases round
    exact ⟨UInt32.not_lt.mp within, rfl⟩

/-- A length of 2^32 - 4 leads the loop back to its offset: with enough memory behind it the
loop reads the same element for ever.
-/
theorem run_listBody_endless {length : UInt32} {item : Bytes.Block} (within : offset < size)
    (prefixed : Bytes.read32 buffer (position + offset.toNat) = some length)
    (found : Bytes.slice buffer (position + (offset + 4).toNat) (length - 1).toNat = some item)
    (wraps : length = -4) (fuel : ℕ)
    : run (Message.listBody buffer position size) fuel (offset, list) = .error .endless := by
  induction fuel generalizing list with
  | zero => rfl
  | succ fuel ih =>
      have back : offset + 4 + length = offset := by
        rw [wraps]
        grind
      rw [run_again (listBody_within within prefixed found), back]
      exact ih

end Rounds

-----------------------------------------------------------------------------------------
-- Well cut fields
-----------------------------------------------------------------------------------------

section Cuts

variable {buffer : Bytes.Block} {position : ℕ} {size : UInt32}

/-- The loop decodes a well cut field in order, by induction on its cuts. -/
theorem WellCut.decodesFrom {offset : ℕ} (cut : WellCut buffer position size.toNat offset)
    (behind : 8 ≤ position) (short : buffer.length < 2 ^ 32) {start : UInt32}
    (here : start.toNat = offset) (list : List Bytes.Block)
    : ∃ states result parts, DecodesFrom buffer position size (start, list) states result parts
      ∧ (states = [] ∨ offset + 4 * states.length ≤ buffer.length) := by
  induction cut generalizing start list with
  | done ended =>
      have stops : size ≤ start := by
        rw [UInt32.le_iff_toNat_le]
        omega
      refine ⟨[], list, [], ?_, .inl rfl⟩
      exact {
        rounds := .stop (listBody_ended stops)
        grows := .singleton _
        unwrapped := by
          intro offset member length within
          rw [List.mem_singleton.mp member] at within
          exact absurd within (UInt32.not_lt.mpr stops)
        strings := by simp
        inField := by simp
        first := by simp
        consecutive := .nil
      }
  | @next offset length within prefixed positive inField inBuffer rest ih =>
      have below : start < size := by
        rw [UInt32.lt_iff_toNat_lt]
        omega
      have atLeast : 1 ≤ length.toNat := UInt32.lt_iff_toNat_lt.mp positive
      have four : (start + 4).toNat = offset + 4 := by
        have : (4 : UInt32).toNat = 4 := rfl
        rw [UInt32.toNat_add, this, here]
        omega
      have less : (length - 1).toNat = length.toNat - 1 :=
        UInt32.toNat_sub_of_le _ _ (UInt32.le_iff_toNat_le.mpr atLeast)
      have after : (start + 4 + length).toNat = offset + 4 + length.toNat := by
        rw [UInt32.toNat_add, four]
        omega
      have read : Bytes.read32 buffer (position + start.toNat) = some length := by
        rw [here]
        exact prefixed
      obtain ⟨item, found⟩ := Bytes.slice_inside
        (show position + (offset + 4) + (length.toNat - 1) ≤ buffer.length by omega)
      have sliced : Bytes.slice buffer (position + (start + 4).toNat) (length - 1).toNat
          = some item := by
        rw [four, less]
        exact found
      obtain ⟨states, result, parts, decodes, bound⟩ := ih after (list ++ [item])
      refine ⟨(start + 4 + length, list ++ [item]) :: states, result, ⟨offset + 4, length.toNat - 1⟩ :: parts, ?_, .inr ?_⟩
      · exact {
          rounds := .again (listBody_within below read sliced) decodes.rounds
          grows := by
            rw [List.map_cons, List.isChain_cons_cons]
            refine ⟨?_, decodes.grows⟩
            change start < start + 4 + length
            rw [UInt32.lt_iff_toNat_lt]
            omega
          unwrapped := by
            intro other member
            rcases List.mem_cons.mp member with rfl | later
            · intro read32 within same
              rw [here, prefixed] at same
              cases same
              omega
            · exact decodes.unwrapped other later
          strings := by
            rw [decodes.strings, List.map_cons, found]
            simp
          inField := by
            intro part member
            rcases List.mem_cons.mp member with rfl | later
            · exact inField
            · exact decodes.inField part later
          first := by simp [here]
          consecutive := by
            rw [List.isChain_cons]
            refine ⟨?_, decodes.consecutive⟩
            intro part member
            have next := decodes.first part member
            simp only [after] at next
            simp only [Part.Precedes]
            omega
        }
      · simp only [List.length_cons]
        rcases bound with rfl | bound
        · simp only [List.length_nil]
          omega
        · omega

/-- The rounds of the loop add to what it has made so far. -/
theorem append_of_rounds {state : UInt32 × List Bytes.Block}
    {states : List (UInt32 × List Bytes.Block)} {list : List Bytes.Block}
    (rounds : Rounds (Message.listBody buffer position size) state states list)
    : ∃ more, list = state.2 ++ more := by
  induction rounds with
  | stop round => exact ⟨[], by simp [(listBody_stop round).2]⟩
  | again round rest ih =>
      obtain ⟨within, length, item, prefixed, found, rfl⟩ := listBody_again round
      obtain ⟨more, rfl⟩ := ih
      exact ⟨item :: more, by simp⟩

/-- A field that the loop decodes in order is well cut, by induction on its rounds. -/
theorem DecodesFrom.wellCut {state : UInt32 × List Bytes.Block}
    {states : List (UInt32 × List Bytes.Block)} {list : List Bytes.Block} {parts : List Part}
    (decodes : DecodesFrom buffer position size state states list parts)
    : WellCut buffer position size.toNat state.1.toNat := by
  induction states generalizing state parts with
  | nil =>
      obtain ⟨offset, made⟩ := state
      cases decodes.rounds with
      | stop round => exact .done (UInt32.le_iff_toNat_le.mp (listBody_stop round).1)
  | cons next states ih =>
      obtain ⟨offset, made⟩ := state
      cases decodes.rounds with
      | again round rest =>
          obtain ⟨within, length, item, prefixed, found, rfl⟩ := listBody_again round
          obtain ⟨more, rfl⟩ := append_of_rounds rest
          have strings := decodes.strings
          simp only [List.map_append, List.append_assoc, List.append_cancel_left_eq,
            List.map_cons, List.singleton_append] at strings
          cases parts with
          | nil => cases strings
          | cons part later =>
              simp only [List.map_cons, List.cons.injEq] at strings
              obtain ⟨same, others⟩ := strings
              have start : part.start = offset.toNat + 4 := decodes.first part rfl
              have inField := decodes.inField part (.head _)
              have unwrapped := decodes.unwrapped offset (.head _) length within prefixed
              -- The part and the string that was read are equally long.
              have whole := (Bytes.slice_eq_some.mp found).2.1
              have shown := Bytes.slice_eq_some.mp same.symm
              have count : (length - 1).toNat = part.count := whole.symm.trans shown.2.1
              have sizeBound := size.toNat_lt
              have one : (1 : UInt32).toNat = 1 := rfl
              have four : (4 : UInt32).toNat = 4 := rfl
              have positive : 0 < length := by
                rw [UInt32.lt_iff_toNat_lt]
                by_contra zero
                have empty : length.toNat = 0 := by
                  change ¬0 < length.toNat at zero
                  omega
                rw [UInt32.toNat_sub, one, empty] at count
                omega
              have less : (length - 1).toNat = length.toNat - 1 :=
                UInt32.toNat_sub_of_le _ _
                  (UInt32.le_iff_toNat_le.mpr (UInt32.lt_iff_toNat_lt.mp positive))
              have after : (offset + 4 + length).toNat = offset.toNat + 4 + length.toNat := by
                rw [UInt32.toNat_add, UInt32.toNat_add, four]
                omega
              have atLeast : 1 ≤ length.toNat := UInt32.lt_iff_toNat_lt.mp positive
              change WellCut buffer position size.toNat offset.toNat
              refine .next (UInt32.lt_iff_toNat_lt.mp within) prefixed positive (by omega)
                (by omega) ?_
              have following : DecodesFrom buffer position size
                  (offset + 4 + length, made ++ [item]) states (made ++ [item] ++ more) later := {
                rounds := rest
                grows := (List.isChain_cons_cons.mp decodes.grows).2
                unwrapped := fun other member => decodes.unwrapped other (.tail _ member)
                strings := by
                  simp only [List.map_append, others]
                inField := fun other member => decodes.inField other (.tail _ member)
                first := by
                  intro other member
                  have next := (List.isChain_cons.mp decodes.consecutive).1 other member
                  simp only [Part.Precedes] at next
                  simp only [after]
                  omega
                consecutive := (List.isChain_cons.mp decodes.consecutive).2
              }
              have cut := ih following
              rwa [after] at cut

end Cuts

-----------------------------------------------------------------------------------------
-- The exact condition
-----------------------------------------------------------------------------------------

namespace Message

/-- The lookup finds values behind the header and a field id, by induction on its rounds. -/
theorem behind_of_run_readingBody {spec : Spec} {buffer : Bytes.Block}
    {messageSize id size : UInt32} {fuel offset position : ℕ}
    (ran : run (readingBody spec buffer messageSize id) fuel offset = .ok (.ok (position, size)))
    : 8 ≤ position := by
  induction fuel generalizing offset with
  | zero => cases ran
  | succ fuel ih =>
      obtain ⟨rest, same, round⟩ := run_eq_ok ran
      cases same
      rcases round with stop | ⟨next, -, ran⟩
      · simp only [readingBody] at stop
        split at stop
        · obtain ⟨fieldId, -, stop⟩ := Fallible.bind_eq_ok.mp stop
          split at stop
          · cases stop
          · split at stop
            · cases stop
            · split at stop
              · obtain ⟨length, -, stop⟩ := Fallible.bind_eq_ok.mp stop
                simp only [bind, Except.bind] at stop
                split at stop
                · cases stop
                · split at stop
                  · cases stop
                    change 8 ≤ 4 + (offset + 4 + 4)
                    omega
                  · split at stop <;> cases stop
              · simp only [bind, Except.bind, Option.isSome_none, Bool.false_eq_true, false_and,
                  if_false] at stop
                split at stop
                · cases stop
                  change 8 ≤ 4 + (offset + 4)
                  omega
                · split at stop <;> cases stop
        · cases stop
      · exact ih ran

/-- The value of a field that the lookup by name finds stands behind the header and an id. -/
theorem readingForName_behind {message : Message} {name : String} {position : ℕ} {size : UInt32}
    (read : message.readingForName name = .ok (.ok (position, size)))
    : 8 ≤ position := by
  unfold readingForName at read
  split at read
  · cases read
  · exact behind_of_run_readingBody read

/-- The field of a name is a list of strings. -/
def ListsStrings (message : Message) (name : String) : Prop :=
  ∃ field listtype, message.spec.fieldWithName name = some field
    ∧ field.listtype = some listtype ∧ listtype.id = P7Type.string.id

/-- For a list of strings that the lookup finds, the list getter runs the element loop. -/
theorem listForName_eq {message : Message} {name : String} {position : ℕ} {size : UInt32}
    (listed : message.ListsStrings name)
    (read : message.readingForName name = .ok (.ok (position, size)))
    : message.listForName name = (do
        let list ← run (listBody message.binaryBuffer position size)
          (message.binaryBuffer.length + 1) (0, [])
        .ok (.ok list)) := by
  obtain ⟨field, listtype, named, listed, strings⟩ := listed
  simp only [listForName, named, listed, strings, ne_eq, not_true_eq_false, if_false, read, bind,
    Except.bind]

/-- The list getter decodes a list of strings in order exactly when the lengths in the field are
at least one and announce strings inside the field.
-/
theorem decodesInOrder_iff {message : Message} {name : String} {position : ℕ} {size : UInt32}
    (short : message.binaryBuffer.length < 2 ^ 32) (listed : message.ListsStrings name)
    (read : message.readingForName name = .ok (.ok (position, size)))
    : message.DecodesInOrder name position size
      ↔ WellCut message.binaryBuffer position size.toNat 0 := by
  constructor
  · rintro ⟨states, list, parts, -, decodes⟩
    exact decodes.wellCut
  · intro cut
    obtain ⟨states, list, parts, decodes, bound⟩ :=
      cut.decodesFrom (readingForName_behind read) short UInt32.toNat_zero []
    refine ⟨states, list, parts, ?_, decodes⟩
    have enough : states.length < message.binaryBuffer.length + 1 := by
      rcases bound with rfl | bound
      · exact Nat.succ_pos _
      · omega
    rw [listForName_eq listed read, decodes.rounds.run_eq enough]
    rfl

end Message

/-- A document whose only field is a list of strings. -/
def trackersDocument : XmlNode :=
  .element "protocol" [("name", "Trackers"), ("version", "1.0")]
    [.element "fields" []
      [.element "field"
        [("name", "wired.settings.trackers"), ("type", "list"), ("listtype", "string"),
          ("id", "10011")]
        []]]

/-- The lookup finds the list of a message at this position and with this size. -/
def findsTrackers (bytes : Bytes.Block) (position : ℕ) (size : UInt32) : Bool :=
  match loadSpec (some builtinSpec) .server trackersDocument with
  | .error _ => false
  | .ok spec =>
      (match spec.fieldWithName "wired.settings.trackers" with
        | none => false
        | some field => field.listtype.any (·.id = P7Type.string.id))
      && match (Message.received spec bytes).readingForName "wired.settings.trackers" with
        | .ok (.ok found) => found = (position, size)
        | _ => false

/-- What the evaluation of the lookup says about a message. -/
theorem exists_of_findsTrackers {bytes : Bytes.Block} {position : ℕ} {size : UInt32}
    (finds : findsTrackers bytes position size = true)
    : ∃ spec, loadSpec (some builtinSpec) .server trackersDocument = .ok spec
      ∧ (Message.received spec bytes).ListsStrings "wired.settings.trackers"
      ∧ (Message.received spec bytes).readingForName "wired.settings.trackers"
        = .ok (.ok (position, size)) := by
  unfold findsTrackers at finds
  split at finds
  · cases finds
  · rename_i spec loaded
    obtain ⟨listed, found⟩ := Bool.and_eq_true_iff.mp finds
    refine ⟨spec, loaded, ?_, ?_⟩
    · split at listed
      · cases listed
      · rename_i field named
        obtain ⟨listtype, same, strings⟩ := (Option.any_eq_true _ _).mp listed
        exact ⟨field, listtype, named, same, of_decide_eq_true strings⟩
    · split at found
      · rename_i value read
        rw [read, of_decide_eq_true found]
      · cases found

/-- A list field of four bytes whose only length is three: the string is taken from the bytes
behind the field.
-/
def overlongTracker : Bytes.Block :=
  [0, 0, 0, 7, 0, 0, 0x27, 0x1b, 0, 0, 0, 4, 0, 0, 0, 3, 0, 0, 0x27, 0x1b, 0, 0, 0, 0]

/-- The list getter returns a string from outside of its field. -/
theorem not_decodesInOrder_overlongTracker
    : ∃ spec, loadSpec (some builtinSpec) .server trackersDocument = .ok spec
      ∧ (Message.received spec overlongTracker).ListsStrings "wired.settings.trackers"
      ∧ (Message.received spec overlongTracker).readingForName "wired.settings.trackers"
        = .ok (.ok (12, 4))
      ∧ ¬(Message.received spec overlongTracker).DecodesInOrder "wired.settings.trackers" 12 4 := by
  have finds : findsTrackers overlongTracker 12 4 = true := by
    unfold findsTrackers builtinSpec
    decide +kernel
  obtain ⟨spec, loaded, listed, read⟩ := exists_of_findsTrackers finds
  refine ⟨spec, loaded, listed, read, ?_⟩
  rintro ⟨states, list, parts, -, decodes⟩
  cases decodes.wellCut with
  | done ended => exact absurd ended (by decide)
  | @next _ length within prefixed positive inField inBuffer rest =>
      have three : length = 3 := by
        have here : Bytes.read32 overlongTracker (12 + 0) = some 3 := by decide
        exact Option.some.inj (prefixed.symm.trans here)
      rw [three] at inField
      exact absurd inField (by decide)

/-- Witness: the condition at the message with the overlong string. -/
theorem decodesInOrder_iff_trackers
    : ∃ spec, loadSpec (some builtinSpec) .server trackersDocument = .ok spec
      ∧ ((Message.received spec overlongTracker).DecodesInOrder "wired.settings.trackers" 12 4
        ↔ WellCut overlongTracker 12 4 0) := by
  have finds : findsTrackers overlongTracker 12 4 = true := by
    unfold findsTrackers builtinSpec
    decide +kernel
  obtain ⟨spec, loaded, listed, read⟩ := exists_of_findsTrackers finds
  have short : overlongTracker.length < 2 ^ 32 := by decide
  exact ⟨spec, loaded, Message.decodesInOrder_iff short listed read⟩

end WiredServer.P7
