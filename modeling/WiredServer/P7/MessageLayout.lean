import Mathlib
import WiredServer.P7.Message

/-! The layout of a message as the loops over its fields see it.
A walk meets known fields and unknown ids one after the other. Whenever the whole walk stays
inside the message, the field lookup finds the first field with its id that stands before
every unknown id.
-/

namespace WiredServer.P7

open Loop

-----------------------------------------------------------------------------------------
-- Walks
-----------------------------------------------------------------------------------------

/-- What a walk meets: an id without a field, or a field with the position and the declared
size of its value.
-/
inductive Item where
  | unknown (id : UInt32)
  | known (field : SpecField) (id : UInt32) (position : ℕ) (size : UInt32)

/-- The item that begins at an offset from the end of the header, when its id and its length
are inside the message.
-/
def itemAt (spec : Spec) (bytes : Bytes.Block) (offset : ℕ) : Option Item := do
  let id ← Bytes.read32 bytes (headerSize + offset)
  match spec.fieldWithId id.toUInt64 with
  | none => some (.unknown id)
  | some field =>
      if field.size.toUInt32 = 0 then do
        let size ← Bytes.read32 bytes (headerSize + (offset + 4))
        some (.known field id (headerSize + (offset + 4 + 4)) size)
      else some (.known field id (headerSize + (offset + 4)) field.size.toUInt32)

/-- The offset at which the walk goes on behind an item. -/
def Item.after (offset : ℕ) : Item → ℕ
  | .unknown _ => offset + 4
  | .known _ _ position size => position - headerSize + size.toNat

/-- The walk from an offset stays inside the message and meets these items. The offset is
compared as a 32-bit number, and the last value may run past the end of the message.
-/
inductive Walk (spec : Spec) (bytes : Bytes.Block) : ℕ → List Item → Prop where
  | done {offset : ℕ} (ended : bytes.length - headerSize ≤ (UInt32.ofNat offset).toNat)
      : Walk spec bytes offset []
  | next {offset : ℕ} {item : Item} {items : List Item}
      (within : (UInt32.ofNat offset).toNat < bytes.length - headerSize)
      (found : itemAt spec bytes offset = some item)
      (rest : Walk spec bytes (item.after offset) items)
      : Walk spec bytes offset (item :: items)

/-- The field lookup on a walk: the first field with the id, unless an unknown id comes first. -/
def lookup (id : UInt32) : List Item → Outcome (ℕ × UInt32)
  | [] => .error none
  | .unknown other :: _ => noFieldForId other
  | .known _ other position size :: rest =>
      if other = id then .ok (position, size) else lookup id rest

section Items

variable {spec : Spec} {bytes : Bytes.Block} {offset : ℕ}

/-- An unknown id is inside the message, and its specification has no field for it. -/
theorem itemAt_unknown {id : UInt32} (found : itemAt spec bytes offset = some (.unknown id))
    : Bytes.read32 bytes (headerSize + offset) = some id
      ∧ spec.fieldWithId id.toUInt64 = none := by
  simp only [itemAt, Option.bind_eq_bind, Option.bind_eq_some_iff] at found
  obtain ⟨read, readId, found⟩ := found
  split at found
  · rename_i missing
    cases found
    exact ⟨readId, missing⟩
  · split at found
    · obtain ⟨_, _, found⟩ := Option.bind_eq_some_iff.mp found
      cases found
    · cases found

/-- A known field has its id inside the message, and its length too when it carries one. -/
theorem itemAt_known {field : SpecField} {id : UInt32} {position : ℕ} {size : UInt32}
    (found : itemAt spec bytes offset = some (.known field id position size))
    : Bytes.read32 bytes (headerSize + offset) = some id
      ∧ spec.fieldWithId id.toUInt64 = some field
      ∧ (field.size.toUInt32 = 0
          ∧ Bytes.read32 bytes (headerSize + (offset + 4)) = some size
          ∧ position = headerSize + (offset + 4 + 4)
        ∨ field.size.toUInt32 ≠ 0 ∧ size = field.size.toUInt32
          ∧ position = headerSize + (offset + 4)) := by
  simp only [itemAt, Option.bind_eq_bind, Option.bind_eq_some_iff] at found
  obtain ⟨read, readId, found⟩ := found
  split at found
  · cases found
  · rename_i other present
    split at found
    · rename_i empty
      obtain ⟨length, readLength, found⟩ := Option.bind_eq_some_iff.mp found
      cases found
      exact ⟨readId, present, .inl ⟨empty, readLength, rfl⟩⟩
    · rename_i fixed
      cases found
      exact ⟨readId, present, .inr ⟨fixed, rfl, rfl⟩⟩

/-- An item begins inside the message, and the walk goes on at least four bytes later. -/
theorem itemAt_advances {item : Item} (found : itemAt spec bytes offset = some item)
    : headerSize + offset + 4 ≤ bytes.length ∧ offset + 4 ≤ item.after offset := by
  cases item with
  | unknown id =>
      have inside := Bytes.read32_inside (itemAt_unknown found).1
      exact ⟨inside, le_rfl⟩
  | known field id position size =>
      obtain ⟨readId, _, ⟨_, _, rfl⟩ | ⟨_, _, rfl⟩⟩ := itemAt_known found
      all_goals
        have inside := Bytes.read32_inside readId
        refine ⟨inside, ?_⟩
        simp only [Item.after]
        omega

/-- A walk has at most one item for every four bytes. -/
theorem Walk.length_le {items : List Item} (walk : Walk spec bytes offset items)
    : items = [] ∨ offset + 4 * items.length ≤ bytes.length := by
  induction walk with
  | done ended => exact .inl rfl
  | next within found rest ih =>
      obtain ⟨inside, advances⟩ := itemAt_advances found
      right
      rcases ih with rfl | bound
      · simp
        omega
      · simp only [List.length_cons]
        omega

/-- The known items of a walk are fields of the specification. -/
theorem Walk.known_found {items : List Item} (walk : Walk spec bytes offset items)
    {field : SpecField} {id : UInt32} {position : ℕ} {size : UInt32}
    (member : .known field id position size ∈ items)
    : spec.fieldWithId id.toUInt64 = some field := by
  induction walk with
  | done ended => cases member
  | next within read rest ih =>
      rcases List.mem_cons.mp member with rfl | later
      · exact (itemAt_known read).2.1
      · exact ih later

/-- A lookup finds values behind the header and their own id only. -/
theorem Walk.lookup_behind {items : List Item} (walk : Walk spec bytes offset items)
    {id : UInt32} {position : ℕ} {size : UInt32} (found : lookup id items = .ok (position, size))
    : headerSize + 4 ≤ position := by
  induction walk with
  | done ended => cases found
  | @next offset item items within read rest ih =>
      cases item with
      | unknown other => cases found
      | known field other position' size' =>
          simp only [lookup] at found
          split at found
          · cases found
            obtain ⟨_, _, ⟨_, _, rfl⟩ | ⟨_, _, rfl⟩⟩ := itemAt_known read <;> omega
          · exact ih found

end Items

-----------------------------------------------------------------------------------------
-- Loops that visit every field
-----------------------------------------------------------------------------------------

section Skimming

variable {spec : Spec} {bytes : Bytes.Block} {messageSize : UInt32} {σ : Type}
  {visit : SpecField → UInt32 → σ → Access σ}

/-- The effect of a visit on an item: unknown ids are skipped. -/
def visitItem (visit : SpecField → UInt32 → σ → Access σ) (made : σ) : Item → Access σ
  | .unknown _ => .ok made
  | .known field id _ _ => visit field id made

/-- A round inside the message reads one item and visits it. -/
theorem skimBody_within (size : messageSize.toNat = bytes.length - headerSize)
    {offset : ℕ} (made : σ) (within : (UInt32.ofNat offset).toNat < bytes.length - headerSize)
    : Message.skimBody spec bytes messageSize visit (offset, made)
      = (do
          let item ← inside (itemAt spec bytes offset)
          let made ← visitItem visit made item
          .ok (.again (item.after offset, made))) := by
  have below : UInt32.ofNat offset < messageSize := by rwa [UInt32.lt_iff_toNat_lt, size]
  simp only [Message.skimBody, below, if_true, itemAt]
  cases Bytes.read32 bytes (headerSize + offset) with
  | none => rfl
  | some id =>
      simp only [inside_some, bind, Except.bind, Option.bind]
      cases spec.fieldWithId id.toUInt64 with
      | none => rfl
      | some field =>
          by_cases empty : field.size.toUInt32 = 0
          · simp only [empty, if_true]
            cases Bytes.read32 bytes (headerSize + (offset + 4)) with
            | none => rfl
            | some length =>
                simp only [inside_some, visitItem, Item.after, Nat.add_sub_cancel_left]
          · simp only [empty, if_false, inside_some, visitItem, Item.after,
              Nat.add_sub_cancel_left]

/-- A round at the end of the message stops. -/
theorem skimBody_ended (size : messageSize.toNat = bytes.length - headerSize)
    {offset : ℕ} {made : σ} (ended : bytes.length - headerSize ≤ (UInt32.ofNat offset).toNat)
    : Message.skimBody spec bytes messageSize visit (offset, made) = .ok (.stop made) := by
  have beyond : ¬UInt32.ofNat offset < messageSize := by
    rw [UInt32.lt_iff_toNat_lt, size]
    omega
  simp only [Message.skimBody, beyond, if_false]

/-- On a walk that stays inside the message, the loop visits its items in order. -/
theorem run_skimBody (size : messageSize.toNat = bytes.length - headerSize)
    {offset fuel : ℕ} {items : List Item} {made : σ} (walk : Walk spec bytes offset items)
    (enough : items.length < fuel)
    : run (Message.skimBody spec bytes messageSize visit) fuel (offset, made)
      = items.foldlM (visitItem visit) made := by
  induction walk generalizing fuel made with
  | done ended =>
      obtain ⟨fuel, rfl⟩ : ∃ rest, fuel = rest + 1 := ⟨fuel - 1, by omega⟩
      exact run_stop (skimBody_ended size ended)
  | @next offset item items within found rest ih =>
      rw [List.length_cons] at enough
      obtain ⟨fuel, rfl⟩ : ∃ rest, fuel = rest + 1 := ⟨fuel - 1, by omega⟩
      have round : Message.skimBody spec bytes messageSize visit (offset, made) = _ :=
        skimBody_within size made within
      rw [found, inside_some] at round
      change _ = visitItem visit made item >>= _ at round
      rw [List.foldlM_cons]
      cases visited : visitItem visit made item with
      | error fault =>
          rw [visited] at round
          exact run_fault round
      | ok following =>
          rw [visited] at round
          rw [run_again round]
          exact ih (by omega)

/-- When the loop returns, the walk stays inside the message. -/
theorem walk_of_skimBody (size : messageSize.toNat = bytes.length - headerSize)
    {offset fuel : ℕ} {made result : σ}
    (ended : run (Message.skimBody spec bytes messageSize visit) fuel (offset, made) = .ok result)
    : ∃ items, Walk spec bytes offset items := by
  induction fuel generalizing offset made with
  | zero => cases ended
  | succ fuel ih =>
      by_cases within : (UInt32.ofNat offset).toNat < bytes.length - headerSize
      · have round : Message.skimBody spec bytes messageSize visit (offset, made) = _ :=
          skimBody_within size made within
        cases read : itemAt spec bytes offset with
        | none =>
            rw [read] at round
            rw [run_fault round] at ended
            cases ended
        | some item =>
            rw [read, inside_some] at round
            change _ = visitItem visit made item >>= _ at round
            cases visited : visitItem visit made item with
            | error fault =>
                rw [visited] at round
                rw [run_fault round] at ended
                cases ended
            | ok following =>
                rw [visited] at round
                rw [run_again round] at ended
                obtain ⟨items, walk⟩ := ih ended
                exact ⟨item :: items, .next within read walk⟩
      · exact ⟨[], .done (not_lt.mp within)⟩

end Skimming

-----------------------------------------------------------------------------------------
-- The field lookup
-----------------------------------------------------------------------------------------

/-- The declared size of a message covers its header and is allocated. -/
structure Message.Framed (message : Message) : Prop where
  header : headerSize ≤ message.binarySize.toNat
  allocated : message.binarySize.toNat ≤ message.binaryBuffer.length

namespace Message

variable {message : Message}

/-- The bytes of a framed message are as many as it declares. -/
theorem Framed.length_bytes (framed : message.Framed)
    : message.bytes.length = message.binarySize.toNat := by
  simp [bytes, framed.allocated]

/-- The loops compare against the number of bytes behind the header. -/
theorem Framed.messageSize (framed : message.Framed)
    : (message.binarySize - .ofNat headerSize).toNat = message.bytes.length - headerSize := by
  rw [framed.length_bytes]
  exact UInt32.toNat_sub_of_le _ _ framed.header

/-- What is read from the bytes of a message is read from its buffer. -/
theorem slice_of_bytes {offset count : ℕ} {found : Bytes.Block}
    (read : Bytes.slice message.bytes offset count = some found)
    : Bytes.slice message.binaryBuffer offset count = some found := by
  obtain ⟨inside, length, stands⟩ := Bytes.slice_eq_some.mp read
  have bound : message.bytes.length ≤ message.binaryBuffer.length := by simp [bytes]
  refine Bytes.slice_eq_some.mpr ⟨by omega, length, ?_⟩
  have grown := stands.grow (message.binaryBuffer.drop message.binarySize.toNat)
  rwa [bytes, List.take_append_drop] at grown

/-- A word of the bytes of a message is a word of its buffer. -/
theorem read32_of_bytes {offset : ℕ} {word : UInt32}
    (read : Bytes.read32 message.bytes offset = some word)
    : Bytes.read32 message.binaryBuffer offset = some word := by
  obtain ⟨found, sliced, rfl⟩ := Option.map_eq_some_iff.mp read
  simp [Bytes.read32, slice_of_bytes sliced]

/-- One round of the field lookup at an item of a walk. The source gives up when a value runs
past the end, and then the walk is over as well.
-/
theorem readingBody_item {offset : ℕ} {item : Item} {items : List Item} (id : UInt32)
    (framed : message.Framed)
    (within : (UInt32.ofNat offset).toNat < message.bytes.length - headerSize)
    (found : itemAt message.spec message.bytes offset = some item)
    (rest : Walk message.spec message.bytes (item.after offset) items)
    : readingBody message.spec message.binaryBuffer (message.binarySize - .ofNat headerSize) id
        offset = .ok (.stop (lookup id (item :: items)))
      ∨ readingBody message.spec message.binaryBuffer (message.binarySize - .ofNat headerSize)
          id offset = .ok (.again (item.after offset))
        ∧ lookup id (item :: items) = lookup id items := by
  have messageSize := framed.messageSize
  have length := framed.length_bytes
  have sizeBound := message.binarySize.toNat_lt
  have advances := (itemAt_advances found).1
  have small : (UInt32.ofNat offset).toNat = offset := by
    rw [UInt32.toNat_ofNat']
    omega
  have below : UInt32.ofNat offset < message.binarySize - .ofNat headerSize := by
    rw [UInt32.lt_iff_toNat_lt, messageSize]
    exact within
  cases item with
  | unknown other =>
      obtain ⟨readId, missing⟩ := itemAt_unknown found
      left
      simp [readingBody, below, read32_of_bytes readId, missing, lookup, bind, Except.bind]
  | known field other position size =>
      obtain ⟨readId, present, shape⟩ := itemAt_known found
      have idInside : ¬(message.binarySize - .ofNat headerSize).toNat
          < (UInt32.ofNat offset).toNat + 4 := by
        rw [messageSize, small]
        omega
      have body : readingBody message.spec message.binaryBuffer
            (message.binarySize - .ofNat headerSize) id offset
          = if other = id then .ok (.stop (.ok (position, size)))
            else if message.binarySize - .ofNat headerSize
              < UInt32.ofNat (position - headerSize) + size then .ok (.stop (.error none))
            else .ok (.again (position - headerSize + size.toNat)) := by
        rcases shape with ⟨empty, readLength, rfl⟩ | ⟨fixed, rfl, rfl⟩
        · have lengthInside := Bytes.read32_inside readLength
          have lengthFits : ¬(message.binarySize - .ofNat headerSize).toNat
              < (UInt32.ofNat (offset + 4)).toNat + 4 := by
            rw [messageSize, UInt32.toNat_ofNat']
            omega
          simp only [readingBody, below, if_true, read32_of_bytes readId, inside_some, bind,
            Except.bind, present, idInside, if_false, empty, read32_of_bytes readLength,
            Option.isSome_some, lengthFits, and_false, Nat.add_sub_cancel_left]
        · simp only [readingBody, below, if_true, read32_of_bytes readId, inside_some, bind,
            Except.bind, present, idInside, if_false, fixed, Option.isSome_none,
            Bool.false_eq_true, false_and, Nat.add_sub_cancel_left]
      by_cases same : other = id
      · left
        simp only [body, same, if_true, lookup]
      · by_cases overrun : message.binarySize - .ofNat headerSize
            < UInt32.ofNat (position - headerSize) + size
        · left
          -- The next offset is past the end as a 32-bit number, so the walk has ended.
          cases rest with
          | done ended => simp only [body, same, overrun, if_false, if_true, lookup]
          | next within =>
              rw [UInt32.lt_iff_toNat_lt, messageSize] at overrun
              simp only [Item.after, UInt32.toNat_add, UInt32.toNat_ofNat'] at within overrun
              have bound := size.toNat_lt
              omega
        · right
          simp only [body, same, overrun, if_false, lookup, Item.after, and_self]

/-- The field lookup from an offset of a walk finds what the walk shows. -/
theorem run_readingBody {offset fuel : ℕ} {items : List Item} (framed : message.Framed)
    (walk : Walk message.spec message.bytes offset items) (id : UInt32)
    (enough : items.length < fuel)
    : run (readingBody message.spec message.binaryBuffer
        (message.binarySize - .ofNat headerSize) id) fuel offset = .ok (lookup id items) := by
  induction walk generalizing fuel with
  | done ended =>
      obtain ⟨rest, rfl⟩ : ∃ rest, fuel = rest + 1 := ⟨fuel - 1, by omega⟩
      refine run_stop ?_
      rw [readingBody, if_neg]
      · rfl
      · rw [UInt32.lt_iff_toNat_lt, framed.messageSize]
        omega
  | next within found rest ih =>
      rw [List.length_cons] at enough
      obtain ⟨fuel, rfl⟩ : ∃ rest, fuel = rest + 1 := ⟨fuel - 1, by omega⟩
      rcases readingBody_item id framed within found rest with stop | ⟨again, same⟩
      · exact run_stop stop
      · rw [run_again again, same]
        exact ih (by omega)

/-- The field lookup of a message whose walk stays inside finds what the walk shows. -/
theorem readingForId_walk {items : List Item} (framed : message.Framed)
    (walk : Walk message.spec message.bytes 0 items) (id : UInt32)
    : message.readingForId id = .ok (lookup id items) := by
  refine run_readingBody framed walk id ?_
  have bound : message.bytes.length ≤ message.binaryBuffer.length := by simp [bytes]
  rcases walk.length_le with rfl | short
  · simp
  · omega

/-- The lookup by name finds what the walk shows for the id of the field. -/
theorem readingForName_walk {items : List Item} (framed : message.Framed)
    (walk : Walk message.spec message.bytes 0 items) (name : String)
    : message.readingForName name
      = .ok (match message.spec.fieldWithName name with
          | none => noIdForField name
          | some field => lookup field.id.toUInt32 items) := by
  unfold readingForName
  cases message.spec.fieldWithName name with
  | none => rfl
  | some field => exact readingForId_walk framed walk _

end Message

-----------------------------------------------------------------------------------------
-- Received messages
-----------------------------------------------------------------------------------------

section Received

variable {bytes : Bytes.Block}

/-- The declared size of a received message is the number of its bytes. -/
theorem Message.received_binarySize (spec : Spec) (short : bytes.length < 2 ^ 32)
    : (Message.received spec bytes).binarySize.toNat = bytes.length := by
  rw [Message.received, UInt32.toNat_ofNat', Nat.mod_eq_of_lt short]

/-- All bytes of a received message belong to it. -/
theorem Message.received_bytes (spec : Spec) (short : bytes.length < 2 ^ 32)
    : (Message.received spec bytes).bytes = bytes := by
  rw [Message.bytes, received_binarySize spec short]
  exact List.take_length

/-- A received message with a whole header is framed. -/
theorem Message.received_framed (spec : Spec) (header : headerSize ≤ bytes.length)
    (short : bytes.length < 2 ^ 32)
    : (Message.received spec bytes).Framed where
  header := by rwa [received_binarySize spec short]
  allocated := (received_binarySize spec short).le

end Received

end WiredServer.P7
