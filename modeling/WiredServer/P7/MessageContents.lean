import Mathlib
import WiredServer.P7.ReaderBounds

/-! What a message holds, apart from its bytes: fields with values.
The bytes of a message represent its contents when they are the encodings of the entries one
after the other. The field lookup and the typed getters then return what the contents say.
-/

namespace WiredServer.P7

open Loop

-----------------------------------------------------------------------------------------
-- Values
-----------------------------------------------------------------------------------------

/-- The bytes that the setter of a value stores behind the id and the length of its field. -/
def P7Value.payload : P7Value → Bytes.Block
  | .bool value => [if value then 1 else 0]
  | .enum value | .uint32 value => Bytes.be32 value
  | .int32 value => Bytes.be32 value.toUInt32
  | .int64 value => Bytes.be64 value.toUInt64
  | .uint64 value | .oobdata value => Bytes.be64 value
  | .double value | .date value => writeDoubleToIeee754 value
  | .string bytes => bytes ++ [0]
  | .uuid id => id.bytes
  | .data bytes => bytes
  | .list strings =>
      strings.flatMap fun bytes => Bytes.be32 (.ofNat (bytes.length + 1)) ++ (bytes ++ [0])

/-- The value of a double that is stored and read back: a NaN becomes infinity, and a negative
zero becomes zero.
-/
def canonicalValue : Binary64.Value → Binary64.Value
  | .nan => .infinite false
  | .infinite negative => .infinite negative
  | .finite negative magnitude =>
      if magnitude = 0 then .finite false 0 else .finite negative magnitude

/-- What the getter of a stored value returns. -/
def P7Value.readBack : P7Value → P7Value
  | .double value => .double (canonicalValue value)
  | .date interval => .date (canonicalValue interval)
  | value => value

/-- Doubles and dates are values of 64-bit patterns. -/
def P7Value.IsPattern : P7Value → Prop
  | .double value | .date value => ∃ bits, value = Binary64.decode bits
  | _ => True

/-- The payload of a type of fixed size has that size. -/
theorem P7Value.payload_length {value : P7Value} (fixed : value.type.width ≠ 0)
    : value.payload.length = value.type.width := by
  cases value with
  | uuid id => exact id.size
  | string bytes => exact absurd rfl fixed
  | data bytes => exact absurd rfl fixed
  | list strings => exact absurd rfl fixed
  | _ => rfl

/-- A field of the type of a value, as the protocol defines that type. The id goes into four
bytes, and a list is a list of strings.
-/
structure SpecField.Holds (field : SpecField) (value : P7Value) : Prop where
  wireId : field.id.toNat < 2 ^ 32
  typed : field.type.id = value.type.id
  sized : field.size.toNat = value.type.width
  listed : value.type = .list
    → ∃ element, field.listtype = some element ∧ element.id = P7Type.string.id
  pattern : value.IsPattern

namespace SpecField.Holds

variable {field : SpecField} {value : P7Value}

/-- The four bytes of an id stand for the id. -/
theorem toUInt64_id (holds : field.Holds value) : field.id.toUInt32.toUInt64 = field.id := by
  have small := holds.wireId
  apply UInt64.toNat_inj.mp
  rw [UInt32.toNat_toUInt64, UInt64.toNat_toUInt32]
  omega

/-- The declared size of a field as a 32-bit number. -/
theorem toNat_size (holds : field.Holds value)
    : field.size.toUInt32.toNat = value.type.width := by
  have small : value.type.width < 2 ^ 32 := by
    generalize value.type = type
    cases type <;> decide
  rw [UInt64.toNat_toUInt32, holds.sized]
  omega

/-- A field carries its length exactly when its type has no fixed size. -/
theorem size_eq_zero (holds : field.Holds value)
    : field.size.toUInt32 = 0 ↔ value.type.width = 0 := by
  rw [← UInt32.toNat_inj, holds.toNat_size, UInt32.toNat_zero]

end SpecField.Holds

-----------------------------------------------------------------------------------------
-- Entries
-----------------------------------------------------------------------------------------

/-- A field with the value that was set for it. -/
structure Entry where
  field : SpecField
  value : P7Value

namespace Entry

/-- The id of the field as the message carries it. -/
def wireId (entry : Entry) : UInt32 :=
  entry.field.id.toUInt32

/-- The id of a field, and the length of its value when the field has no fixed size. -/
def front (entry : Entry) : Bytes.Block :=
  if entry.field.size.toUInt32 = 0 then
    Bytes.be32 entry.wireId ++ Bytes.be32 (.ofNat entry.value.payload.length)
  else Bytes.be32 entry.wireId

/-- The bytes of a field in a message. -/
def encode (entry : Entry) : Bytes.Block :=
  entry.front ++ entry.value.payload

/-- The field is one of the specification, and it holds its value. -/
structure Sound (spec : Spec) (entry : Entry) : Prop where
  known : spec.fieldWithId entry.field.id = some entry.field
  named : spec.fieldWithName entry.field.name = some entry.field
  holds : entry.field.Holds entry.value

/-- The item that a walk meets for an encoded entry. -/
def item (entry : Entry) (offset : ℕ) : Item :=
  .known entry.field entry.wireId (headerSize + (offset + entry.front.length))
    (.ofNat entry.value.payload.length)

end Entry

/-- The encodings of entries one after the other. -/
def encodeAll (entries : List Entry) : Bytes.Block :=
  entries.flatMap Entry.encode

/-- The items that a walk meets for encoded entries. -/
def itemsOf (offset : ℕ) : List Entry → List Item
  | [] => []
  | entry :: rest => entry.item offset :: itemsOf (offset + entry.encode.length) rest

section Layout

variable {spec : Spec} {bytes : Bytes.Block} {offset : ℕ} {entry : Entry} {entries : List Entry}

/-- A walk meets an encoded entry as its item. -/
theorem itemAt_entry (sound : entry.Sound spec)
    (stands : Bytes.StandsAt bytes (headerSize + offset) entry.encode)
    (inside : headerSize + offset + entry.encode.length ≤ bytes.length)
    : itemAt spec bytes offset = some (entry.item offset) := by
  have holds := sound.holds
  obtain ⟨front, _⟩ := Bytes.standsAt_append.mp stands
  have total : entry.encode.length = entry.front.length + entry.value.payload.length := by
    simp [Entry.encode]
  have same : entry.wireId.toUInt64 = entry.field.id := holds.toUInt64_id
  by_cases prefixed : entry.field.size.toUInt32 = 0
  · have shape : entry.front
        = Bytes.be32 entry.wireId ++ Bytes.be32 (.ofNat entry.value.payload.length) :=
      if_pos prefixed
    have eight : entry.front.length = 8 := by simp [shape]
    rw [shape, Bytes.standsAt_append, Bytes.be32_length] at front
    have readId := front.1.read32 (by omega)
    have readLength := front.2.read32 (by omega)
    rw [Nat.add_assoc headerSize] at readLength
    simp only [itemAt, readId, readLength, Option.bind_eq_bind, Option.bind_some, same,
      sound.known, prefixed, if_true, Entry.item, eight]
  · have shape : entry.front = Bytes.be32 entry.wireId := if_neg prefixed
    have four : entry.front.length = 4 := by simp [shape]
    rw [shape] at front
    have readId := front.read32 (by omega)
    have size : entry.field.size.toUInt32 = .ofNat entry.value.payload.length := by
      have width := holds.toNat_size
      rw [P7Value.payload_length (mt holds.size_eq_zero.mpr prefixed), ← width]
      exact (UInt32.ofNat_toNat).symm
    simp only [itemAt, readId, Option.bind_eq_bind, Option.bind_some, same, sound.known, prefixed,
      if_false, Entry.item, four]
    rw [size]

/-- The walk goes on behind the encoding of an entry. -/
theorem after_item (short : entry.encode.length < 2 ^ 32)
    : (entry.item offset).after offset = offset + entry.encode.length := by
  have total : entry.encode.length = entry.front.length + entry.value.payload.length := by
    simp [Entry.encode]
  simp only [Entry.item, Item.after]
  rw [UInt32.toNat_ofNat', Nat.mod_eq_of_lt (by omega), Nat.add_sub_cancel_left]
  omega

/-- The walk over encoded entries meets their items, by list induction. -/
theorem walk_itemsOf (sound : ∀ entry ∈ entries, entry.Sound spec)
    (stands : Bytes.StandsAt bytes (headerSize + offset) (encodeAll entries))
    (ends : headerSize + offset + (encodeAll entries).length = bytes.length)
    (short : bytes.length < 2 ^ 32)
    : Walk spec bytes offset (itemsOf offset entries) := by
  induction entries generalizing offset with
  | nil =>
      refine .done ?_
      rw [UInt32.toNat_ofNat']
      simp [encodeAll] at ends
      omega
  | cons entry rest ih =>
      rw [encodeAll, List.flatMap_cons] at stands ends
      rw [List.length_append] at ends
      obtain ⟨first, others⟩ := Bytes.standsAt_append.mp stands
      have positive : 4 ≤ entry.encode.length := by
        simp only [Entry.encode, Entry.front, List.length_append]
        split <;> simp
        omega
      refine .next ?_ (itemAt_entry (sound entry (.head _)) first (by omega)) ?_
      · rw [UInt32.toNat_ofNat']
        omega
      · rw [after_item (by omega)]
        rw [Nat.add_assoc headerSize] at others
        refine ih (fun other member => sound other (.tail _ member)) others ?_
        change headerSize + (offset + entry.encode.length) + (rest.flatMap Entry.encode).length = _
        omega

/-- An id that no entry carries is not found. -/
theorem lookup_absent {id : UInt32} (absent : id ∉ entries.map Entry.wireId)
    : lookup id (itemsOf offset entries) = .error none := by
  induction entries generalizing offset with
  | nil => rfl
  | cons entry rest ih =>
      rw [List.map_cons, List.mem_cons, not_or] at absent
      rw [itemsOf, Entry.item, lookup, if_neg (Ne.symm absent.1)]
      exact ih absent.2

/-- The id of an entry is found at the payload of the entry. -/
theorem lookup_entry (distinct : (entries.map Entry.wireId).Nodup)
    (stands : Bytes.StandsAt bytes (headerSize + offset) (encodeAll entries))
    (member : entry ∈ entries)
    : ∃ position, lookup entry.wireId (itemsOf offset entries)
        = .ok (position, .ofNat entry.value.payload.length)
      ∧ headerSize ≤ position
      ∧ position + entry.value.payload.length ≤ headerSize + offset + (encodeAll entries).length
      ∧ Bytes.StandsAt bytes position entry.value.payload := by
  induction entries generalizing offset with
  | nil => cases member
  | cons first rest ih =>
      have total : (encodeAll (first :: rest)).length
          = first.encode.length + (encodeAll rest).length := by
        simp [encodeAll]
      rw [encodeAll, List.flatMap_cons] at stands
      obtain ⟨here, others⟩ := Bytes.standsAt_append.mp stands
      rw [List.map_cons, List.nodup_cons] at distinct
      rcases List.mem_cons.mp member with rfl | later
      · have split : entry.encode.length = entry.front.length + entry.value.payload.length := by
          simp [Entry.encode]
        refine ⟨_, if_pos rfl, by omega, by omega, ?_⟩
        rw [← Nat.add_assoc]
        exact (Bytes.standsAt_append.mp here).2
      · have differs : first.wireId ≠ entry.wireId := by
          intro same
          exact distinct.1 (same ▸ List.mem_map_of_mem later)
        rw [Nat.add_assoc headerSize] at others
        obtain ⟨position, found, behind, inside, standing⟩ := ih distinct.2 others later
        refine ⟨position, ?_, behind, by omega, standing⟩
        rw [itemsOf, Entry.item, lookup, if_neg differs, found]

end Layout

-----------------------------------------------------------------------------------------
-- Getters
-----------------------------------------------------------------------------------------

/-- Reading a written double canonicalizes it. -/
theorem readDouble_writeDouble (bits : UInt64)
    : readDoubleFromIeee754 (writeDoubleToIeee754 (Binary64.decode bits))
      = canonicalValue (Binary64.decode bits) := by
  have infinite : Binary64.decode 0x7FF0000000000000 = .infinite false := by decide
  have negativeZero : Binary64.decode 0x8000000000000000 = .finite true 0 := by decide +kernel
  have zero : Binary64.decode 0 = .finite false 0 := by decide +kernel
  rw [writeDoubleToIeee754_decode, canonicalDouble]
  by_cases payload : Binary64.decode bits = .nan
  · rw [if_pos payload, readDoubleFromIeee754_be64 (by rw [infinite]; simp), infinite, payload]
    rfl
  · by_cases sign : bits = 0x8000000000000000
    · rw [if_neg payload, if_pos sign, readDoubleFromIeee754_be64 (by rw [zero]; simp), zero, sign,
        negativeZero]
      simp [canonicalValue]
    · rw [if_neg payload, if_neg sign, readDoubleFromIeee754_be64 payload]
      cases value : Binary64.decode bits with
      | nan => exact absurd value payload
      | infinite negative => rfl
      | finite negative magnitude =>
          by_cases blank : magnitude = 0
          · subst blank
            cases negative with
            | false => simp [canonicalValue]
            | true =>
                rw [← negativeZero] at value
                exact absurd (decode_injective payload value) sign
          · simp [canonicalValue, blank]

/-- Stored strings are elements of a list, by list induction. -/
theorem elements_of_stands {buffer : Bytes.Block} {position : ℕ} {size offset : UInt32}
    {strings : List Bytes.Block}
    (stands : Bytes.StandsAt buffer (position + offset.toNat) (P7Value.list strings).payload)
    (ends : offset.toNat + (P7Value.list strings).payload.length = size.toNat)
    (inside : position + size.toNat ≤ buffer.length)
    : Elements buffer position size offset strings := by
  induction strings generalizing offset with
  | nil =>
      refine .done (UInt32.le_iff_toNat_le.mpr ?_)
      simp [P7Value.payload] at ends
      omega
  | cons string rest ih =>
      have bound := size.toNat_lt
      have shape : (P7Value.list (string :: rest)).payload
          = Bytes.be32 (.ofNat (string.length + 1)) ++ (string ++ [0])
            ++ (P7Value.list rest).payload := rfl
      rw [shape, List.length_append, List.length_append, Bytes.be32_length, List.length_append,
        List.length_singleton] at ends
      rw [shape, Bytes.standsAt_append, Bytes.standsAt_append, Bytes.be32_length] at stands
      obtain ⟨⟨prefixed, terminated⟩, others⟩ := stands
      have item := (Bytes.standsAt_append.mp terminated).1
      rw [List.length_append, Bytes.be32_length, List.length_append, List.length_singleton]
        at others
      have length : (UInt32.ofNat (string.length + 1)).toNat = string.length + 1 := by
        rw [UInt32.toNat_ofNat', Nat.mod_eq_of_lt (by omega)]
      have four : (4 : UInt32).toNat = 4 := rfl
      have start : (offset + 4).toNat = offset.toNat + 4 := by
        rw [UInt32.toNat_add, four, Nat.mod_eq_of_lt (by omega)]
      have next : (offset + 4 + UInt32.ofNat (string.length + 1)).toNat
          = offset.toNat + 4 + (string.length + 1) := by
        rw [UInt32.toNat_add, start, length, Nat.mod_eq_of_lt (by omega)]
      have shorter : (UInt32.ofNat (string.length + 1) - 1).toNat = string.length := by
        have one : (1 : UInt32).toNat = 1 := rfl
        rw [UInt32.toNat_sub_of_le _ _ (by rw [UInt32.le_iff_toNat_le, length, one]; omega), length,
          one, Nat.add_sub_cancel]
      refine .next ?_ (prefixed.read32 (by omega)) ?_ (ih ?_ ?_)
      · rw [UInt32.lt_iff_toNat_lt]
        omega
      · rw [start, shorter]
        rw [Nat.add_assoc position] at item
        exact item.slice (by omega)
      · rw [next]
        rwa [← Nat.add_assoc, ← Nat.add_assoc] at others ⊢
      · rw [next]
        omega

section Getters

variable {message : Message} {name : String} {position : ℕ} {size : UInt32} {payload : Bytes.Block}

/-- A getter of fixed size decodes what stands at its field. -/
theorem getField_payload {α : Type} {width : ℕ} {decode : Bytes.Block → α}
    (read : message.readingForName name = .ok (.ok (position, size)))
    (stands : Bytes.StandsAt message.binaryBuffer position payload)
    (inside : position + payload.length ≤ message.binaryBuffer.length)
    (exact : payload.length = width)
    : message.getField name width decode = .ok (.ok (decode payload)) := by
  subst exact
  simp only [Message.getField, read, stands.slice inside, inside_some, bind, Except.bind]

/-- The getter of a type returns the value whose payload stands at its field. Each case is what
the getter of the type makes of the payload.
-/
theorem getForName_payload {field : SpecField} {value : P7Value} (holds : field.Holds value)
    (named : message.spec.fieldWithName name = some field)
    (read : message.readingForName name = .ok (.ok (position, .ofNat value.payload.length)))
    (stands : Bytes.StandsAt message.binaryBuffer position value.payload)
    (inside : position + value.payload.length ≤ message.binaryBuffer.length)
    (behind : 0 < position) (short : message.binaryBuffer.length < 2 ^ 32)
    : message.getForName value.type name = .ok (.ok value.readBack) := by
  have length : (UInt32.ofNat value.payload.length).toNat = value.payload.length := by
    rw [UInt32.toNat_ofNat', Nat.mod_eq_of_lt (by omega)]
  have fixed {α : Type} (width : ℕ) (decode : Bytes.Block → α)
      (exact : value.payload.length = width)
      : message.getField name width decode = .ok (.ok (decode value.payload)) :=
    getField_payload read stands inside exact
  cases value with
  | bool flag =>
      have got := fixed 1 (fun bytes => bytes == [1]) rfl
      simp only [P7Value.type, Message.getForName, Message.getBoolForName, got]
      cases flag <;> rfl
  | enum number =>
      have got := fixed 4 (fun bytes => (Bytes.ofBe32 bytes).toInt32) rfl
      simp only [P7Value.type, Message.getForName, Message.getEnumForName, Message.getUint32ForName,
        Message.getInt32ForName, got]
      simp [P7Value.payload, P7Value.readBack, bind, Except.bind, pure, Except.pure, Except.map]
  | int32 number =>
      have got := fixed 4 (fun bytes => (Bytes.ofBe32 bytes).toInt32) rfl
      simp only [P7Value.type, Message.getForName, Message.getInt32ForName, got]
      simp [P7Value.payload, P7Value.readBack, bind, Except.bind, pure, Except.pure, Except.map]
  | uint32 number =>
      have got := fixed 4 (fun bytes => (Bytes.ofBe32 bytes).toInt32) rfl
      simp only [P7Value.type, Message.getForName, Message.getUint32ForName,
        Message.getInt32ForName, got]
      simp [P7Value.payload, P7Value.readBack, bind, Except.bind, pure, Except.pure, Except.map]
  | int64 number =>
      have got := fixed 8 (fun bytes => (Bytes.ofBe64 bytes).toInt64) rfl
      simp only [P7Value.type, Message.getForName, Message.getInt64ForName, got]
      simp [P7Value.payload, P7Value.readBack, bind, Except.bind, pure, Except.pure, Except.map]
  | uint64 number =>
      have got := fixed 8 (fun bytes => (Bytes.ofBe64 bytes).toInt64) rfl
      simp only [P7Value.type, Message.getForName, Message.getUint64ForName,
        Message.getInt64ForName, got]
      simp [P7Value.payload, P7Value.readBack, bind, Except.bind, pure, Except.pure, Except.map]
  | double number =>
      obtain ⟨bits, rfl⟩ := holds.pattern
      have got := fixed 8 readDoubleFromIeee754 rfl
      simp only [P7Value.type, Message.getForName, Message.getDoubleForName, got,
        P7Value.payload, readDouble_writeDouble]
      rfl
  | string bytes =>
      have last : (P7Value.string bytes).payload.length = bytes.length + 1 := by
        simp [P7Value.payload]
      have shorter : (UInt32.ofNat (P7Value.string bytes).payload.length - 1).toNat
          = bytes.length := by
        have one : (1 : UInt32).toNat = 1 := rfl
        rw [UInt32.toNat_sub_of_le _ _ (by rw [UInt32.le_iff_toNat_le, length, last, one]; omega),
          length, last, one, Nat.add_sub_cancel]
      have item := (Bytes.standsAt_append.mp stands).1.slice (by omega)
      simp only [P7Value.type, Message.getForName, Message.stringForName, read, shorter, item,
        inside_some, bind, Except.bind]
      rfl
  | uuid id =>
      have whole : (P7Value.uuid id).payload.length = 16 := id.size
      have found := stands.slice inside
      rw [whole] at found
      simp only [P7Value.type, Message.getForName, Message.uuidForName, read, found, inside_some,
        bind, Except.bind, whole, dite_true]
      rfl
  | date interval =>
      obtain ⟨bits, rfl⟩ := holds.pattern
      have got := fixed 8 readDoubleFromIeee754 rfl
      simp only [P7Value.type, Message.getForName, Message.dateForName, Message.getDoubleForName,
        got, P7Value.payload, readDouble_writeDouble]
      rfl
  | data bytes =>
      have found := stands.slice inside
      simp only [P7Value.type, Message.getForName, Message.dataForName, read, length, found,
        inside_some, bind, Except.bind]
      rfl
  | oobdata number =>
      have got := fixed 8 Bytes.ofBe64 rfl
      simp only [P7Value.type, Message.getForName, Message.getOobdataForName, got]
      simp [P7Value.payload, P7Value.readBack, bind, Except.bind, pure, Except.pure, Except.map]
  | list strings =>
      obtain ⟨element, listed, ofStrings⟩ := holds.listed rfl
      have zero : (0 : UInt32).toNat = 0 := rfl
      have elements : Elements message.binaryBuffer position
          (.ofNat (P7Value.list strings).payload.length) 0 strings :=
        elements_of_stands (by rwa [zero, Nat.add_zero]) (by rw [zero, length, Nat.zero_add])
          (by rwa [length])
      have enough : strings.length < message.binaryBuffer.length + 1 := by
        rcases elements.length_le behind short with rfl | bound
        · simp
        · omega
      have ran := run_listBody elements enough []
      simp only [P7Value.type, Message.getForName, Message.listForName, named, listed, ofStrings,
        ne_eq, not_true_eq_false, if_false, read, ran, bind, Except.bind]
      rfl

end Getters

-----------------------------------------------------------------------------------------
-- Messages and contents
-----------------------------------------------------------------------------------------

/-- The bytes of a message are its header and the encodings of entries with distinct ids. -/
structure Message.Represents (message : Message) (entries : List Entry) : Prop where
  bytes : message.bytes = Bytes.be32 message.binaryId ++ encodeAll entries
  allocated : message.binaryBuffer.length = message.binaryCapacity.toNat
  fits : message.binarySize ≤ message.binaryCapacity
  distinct : (entries.map Entry.wireId).Nodup
  sound : ∀ entry ∈ entries, entry.Sound message.spec

namespace Message.Represents

variable {message : Message} {entries : List Entry}

/-- The size of a message is the size of its header and its entries. -/
theorem binarySize (represents : message.Represents entries)
    : message.binarySize.toNat = headerSize + (encodeAll entries).length := by
  have fits := UInt32.le_iff_toNat_le.mp represents.fits
  have length := congrArg List.length represents.bytes
  rw [Message.bytes, List.length_take, represents.allocated, Nat.min_eq_left fits,
    List.length_append, Bytes.be32_length] at length
  exact length

/-- A message that represents contents is framed. -/
theorem framed (represents : message.Represents entries) : message.Framed where
  header := by
    rw [represents.binarySize]
    exact Nat.le_add_right _ _
  allocated := by
    rw [represents.allocated]
    exact UInt32.le_iff_toNat_le.mp represents.fits

/-- The encodings of the entries stand behind the header. -/
theorem stands (represents : message.Represents entries)
    : Bytes.StandsAt message.bytes (headerSize + 0) (encodeAll entries) := by
  have whole := Bytes.standsAt_self message.bytes
  rw [represents.bytes] at whole ⊢
  simpa using (Bytes.standsAt_append.mp whole).2

/-- The field lookup finds what the entries say. -/
theorem readingForId (represents : message.Represents entries) (id : UInt32)
    : message.readingForId id = .ok (lookup id (itemsOf 0 entries)) := by
  have framed := represents.framed
  have bound := message.binarySize.toNat_lt
  have length := framed.length_bytes
  refine Message.readingForId_walk framed (walk_itemsOf represents.sound represents.stands ?_ ?_) id
  · rw [length, represents.binarySize]
  · omega

/-- The matching getter of an entry returns its value. -/
theorem getForName (represents : message.Represents entries) {entry : Entry}
    (member : entry ∈ entries)
    : message.getForName entry.value.type entry.field.name = .ok (.ok entry.value.readBack) := by
  have framed := represents.framed
  have sound := represents.sound entry member
  have bound := message.binaryCapacity.toNat_lt
  have length := framed.length_bytes
  obtain ⟨position, found, behind, inside, stands⟩ :=
    lookup_entry represents.distinct represents.stands member
  rw [Nat.add_zero, ← represents.binarySize, ← length] at inside
  have grown := stands.grow (message.binaryBuffer.drop message.binarySize.toNat)
  rw [Message.bytes, List.take_append_drop] at grown
  have read : message.readingForName entry.field.name
      = .ok (.ok (position, .ofNat entry.value.payload.length)) := by
    simp only [Message.readingForName, sound.named]
    rw [represents.readingForId, ← found]
    rfl
  refine getForName_payload sound.holds sound.named read grown ?_ ?_ ?_
  · have allocated := framed.allocated
    omega
  · exact lt_of_lt_of_le (by decide) behind
  · rw [represents.allocated]
    exact bound

end Message.Represents

end WiredServer.P7
