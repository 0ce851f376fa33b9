import Mathlib
import WiredServer.Base.Byteorder
import WiredServer.Lib.Loop
import WiredServer.P7.BuiltinSpec

/-! P7 messages in their binary form: the field lookup, the typed setters and the typed getters.
Every access to the buffer of a message is checked against the allocation, so that an access
outside of it is visible as a fault.
-/

namespace WiredServer.P7

open Loop

-----------------------------------------------------------------------------------------
-- Values
-----------------------------------------------------------------------------------------

/-- The bytes of a `wi_uuid_t`. -/
structure Uuid where
  bytes : Bytes.Block
  size : bytes.length = 16
deriving DecidableEq

/-- A value that a typed getter returns. Strings and data are their bytes, and a date is its
time interval.
-/
inductive P7Value where
  | bool (value : Bool)
  | enum (value : UInt32)
  | int32 (value : Int32)
  | uint32 (value : UInt32)
  | int64 (value : Int64)
  | uint64 (value : UInt64)
  | double (value : Binary64.Value)
  | string (bytes : Bytes.Block)
  | uuid (uuid : Uuid)
  | date (interval : Binary64.Value)
  | data (bytes : Bytes.Block)
  | oobdata (value : UInt64)
  | list (strings : List Bytes.Block)
deriving DecidableEq

/-- The type of a value. -/
def P7Value.type : P7Value → P7Type
  | .bool _ => .bool
  | .enum _ => .enum
  | .int32 _ => .int32
  | .uint32 _ => .uint32
  | .int64 _ => .int64
  | .uint64 _ => .uint64
  | .double _ => .double
  | .string _ => .string
  | .uuid _ => .uuid
  | .date _ => .date
  | .data _ => .data
  | .oobdata _ => .oobdata
  | .list _ => .list

/-- An element of an array that is given to the list setter. -/
inductive Instance where
  | string (bytes : Bytes.Block)
  | other (runtimeId : ℕ) (className : String)
deriving DecidableEq

/-- The runtime id of an element; the one of strings is zero here. -/
def Instance.runtimeId : Instance → ℕ
  | .string _ => 0
  | .other runtimeId _ => runtimeId + 1

/-- The errors of messages and their readers. -/
inductive ErrorCode where
  | unknownMessage | unknownField | invalidMessage
deriving DecidableEq, Repr

/-- A libwired error with its text. -/
structure Failure where
  code : ErrorCode
  text : String
deriving DecidableEq, Repr

/-- A result, or the error that was set, if one was set at all. -/
abbrev Outcome := Except (Option Failure)

/-- The outcome of a lookup that ends at an id without a field. -/
def noFieldForId {α : Type} (id : UInt32) : Outcome α :=
  .error (some ⟨.unknownField, s!"No field found for ID {id}"⟩)

/-- The outcome of an access to a name without a field. -/
def noIdForField {α : Type} (name : String) : Outcome α :=
  .error (some ⟨.unknownField, s!"No id found for field \"{name}\""⟩)

-----------------------------------------------------------------------------------------
-- Messages
-----------------------------------------------------------------------------------------

/-- `WI_P7_MESSAGE_BINARY_HEADER_SIZE`. -/
abbrev headerSize : ℕ := 4

/-- `_WI_P7_MESSAGE_BINARY_BUFFER_INITIAL_SIZE`. -/
def initialSize : ℕ := 8192

/-- A message (`wi_p7_message_t`) in its binary form. The block is the allocation behind
`binary_buffer`.
-/
structure Message where
  spec : Spec
  name : Option String
  binaryBuffer : Bytes.Block
  binaryCapacity : UInt32
  binarySize : UInt32
  binaryId : UInt32

namespace Message

/-- The bytes that belong to the message. -/
def bytes (message : Message) : Bytes.Block :=
  message.binaryBuffer.take message.binarySize.toNat

/-- Stores bytes in the buffer. -/
def store (message : Message) (offset : ℕ) (bytes : Bytes.Block) : Access Message := do
  let binaryBuffer ← inside (Bytes.overwrite message.binaryBuffer offset bytes)
  .ok { message with binaryBuffer }

/-- `wi_p7_message_set_name`. -/
def setName (message : Message) (name : String) : Access (Outcome Unit × Message) := do
  match message.spec.messageWithName name with
  | none =>
      .ok (.error (some ⟨.unknownMessage, s!"No id found for message \"{name}\""⟩), message)
  | some specMessage =>
      let binaryId := specMessage.id.toUInt32
      let message ← { message with binaryId }.store 0 (Bytes.be32 binaryId)
      .ok (.ok (), { message with name := some name })

/-- `wi_p7_message_init_with_name`. -/
def initWithName (name : String) (spec : Spec) : Access (Outcome Message) := do
  let message : Message := {
    spec
    name := none
    binaryBuffer := List.replicate initialSize 0
    binaryCapacity := .ofNat initialSize
    binarySize := .ofNat headerSize
    binaryId := 0
  }
  let (outcome, message) ← message.setName name
  match outcome with
  | .ok () => .ok (.ok message)
  | .error failure => .ok (.error failure)

/-- The message around received bytes, before its id is read: the buffer is exactly as large as
the bytes.
-/
def received (spec : Spec) (bytes : Bytes.Block) : Message where
  spec
  name := none
  binaryBuffer := bytes
  binaryCapacity := .ofNat bytes.length
  binarySize := .ofNat bytes.length
  binaryId := 0

/-- `wi_p7_message_deserialize` for binary messages. -/
def deserialize (message : Message) : Access Message := do
  let binaryId ← inside (Bytes.read32 message.binaryBuffer 0)
  match message.spec.messageWithId binaryId.toUInt64 with
  | none => .ok { message with binaryId }
  | some specMessage => .ok { message with binaryId, name := some specMessage.name }

/-- `wi_p7_message_init_with_bytes`. -/
def initWithBytes (bytes : Bytes.Block) (spec : Spec) : Access (Outcome Message) := do
  let message ← (received spec bytes).deserialize
  if message.name.isNone then .ok (.error (some ⟨.unknownMessage, ""⟩))
  else .ok (.ok message)

-----------------------------------------------------------------------------------------
-- Field lookup
-----------------------------------------------------------------------------------------

/-- One round of `_wi_p7_message_get_binary_buffer_for_reading_for_id`, at an offset from the
end of the header. The offset is compared as a 32-bit number, the sums with a `sizeof` are
64-bit ones.
-/
def readingBody (spec : Spec) (buffer : Bytes.Block) (messageSize inFieldId : UInt32)
    (offset : ℕ)
    : Access (Turn ℕ (Outcome (ℕ × UInt32))) := do
  if UInt32.ofNat offset < messageSize then
    let fieldId ← inside (Bytes.read32 buffer (headerSize + offset))
    match spec.fieldWithId fieldId.toUInt64 with
    | none => .ok (.stop (noFieldForId fieldId))
    | some field =>
        if messageSize.toNat < (UInt32.ofNat offset).toNat + 4 then .ok (.stop (.error none))
        else
          let offset := offset + 4
          let fieldSize := field.size.toUInt32
          let prefixed ←
            if fieldSize = 0 then do
              let length ← inside (Bytes.read32 buffer (headerSize + offset))
              .ok (some length)
            else .ok none
          if prefixed.isSome ∧ messageSize.toNat < (UInt32.ofNat offset).toNat + 4 then
            .ok (.stop (.error none))
          else
            let (offset, fieldSize) :=
              match prefixed with
              | some length => (offset + 4, length)
              | none => (offset, fieldSize)
            if fieldId = inFieldId then .ok (.stop (.ok (headerSize + offset, fieldSize)))
            else if messageSize < UInt32.ofNat offset + fieldSize then .ok (.stop (.error none))
            else .ok (.again (offset + fieldSize.toNat))
  else .ok (.stop (.error none))

/-- `_wi_p7_message_get_binary_buffer_for_reading_for_id`: the position and the size of the
value in the buffer.
-/
def readingForId (message : Message) (inFieldId : UInt32) : Access (Outcome (ℕ × UInt32)) :=
  let messageSize := message.binarySize - .ofNat headerSize
  run (readingBody message.spec message.binaryBuffer messageSize inFieldId)
    (message.binaryBuffer.length + 1) 0

/-- `_wi_p7_message_get_binary_buffer_for_reading_for_name`. -/
def readingForName (message : Message) (fieldName : String)
    : Access (Outcome (ℕ × UInt32)) :=
  match message.spec.fieldWithName fieldName with
  | none => .ok (noIdForField fieldName)
  | some field => message.readingForId field.id.toUInt32

/-- `wi_realloc`: the block with its new size. -/
def resize (block : Bytes.Block) (size : ℕ) : Bytes.Block :=
  block.take size ++ List.replicate (size - block.length) 0

/-- Makes room for a new field of the given size: the buffer grows when the field does not fit. -/
def grow (message : Message) (newSize : UInt32) : Message :=
  if message.binarySize + newSize > message.binaryCapacity then
    {
      message with
      binaryCapacity := message.binarySize + newSize
      binaryBuffer := resize message.binaryBuffer (message.binarySize + newSize).toNat
    }
  else message

/-- `_wi_p7_message_get_binary_buffer_for_writing_for_id`: the position of the new field in the
buffer. The field of the id is followed without a check.
-/
def writingForId (message : Message) (fieldId length : UInt32)
    : Access (Outcome ℕ × Message) := do
  match message.spec.fieldWithId fieldId.toUInt64 with
  | none => .error .nullPointer
  | some field =>
      let fieldSize := field.size.toUInt32
      let newSize : UInt32 := if fieldSize = 0 then 4 + 4 + length else 4 + fieldSize
      match ← message.readingForId fieldId with
      | .ok _ => .ok (.error none, message)
      | .error _ =>
          .ok (.ok message.binarySize.toNat,
            { message.grow newSize with binarySize := message.binarySize + newSize })

/-- `_wi_p7_message_get_binary_buffer_for_writing_for_name`: the position of the new field and
the id to store there.
-/
def writingForName (message : Message) (fieldName : String) (length : UInt32)
    : Access (Outcome (ℕ × UInt32) × Message) := do
  match message.spec.fieldWithName fieldName with
  | none => .ok (noIdForField fieldName, message)
  | some field =>
      let (outcome, message) ← message.writingForId field.id.toUInt32 length
      .ok (outcome.map fun binary => (binary, field.id.toUInt32), message)

-----------------------------------------------------------------------------------------
-- Setters
-----------------------------------------------------------------------------------------

/-- What the setters have in common: they reserve the field, store its id and store the rest
behind it.
-/
def setField (message : Message) (fieldName : String) (length : UInt32) (rest : Bytes.Block)
    : Access (Outcome Unit × Message) := do
  let (outcome, message) ← message.writingForName fieldName length
  match outcome with
  | .error failure => .ok (.error failure, message)
  | .ok (binary, fieldId) =>
      let message ← message.store binary (Bytes.be32 fieldId)
      let message ← message.store (binary + 4) rest
      .ok (.ok (), message)

/-- `wi_p7_message_set_bool_for_name`. -/
def setBoolForName (message : Message) (value : Bool) (fieldName : String)
    : Access (Outcome Unit × Message) :=
  message.setField fieldName 0 [if value then 1 else 0]

/-- `wi_p7_message_set_int32_for_name`. -/
def setInt32ForName (message : Message) (value : Int32) (fieldName : String)
    : Access (Outcome Unit × Message) :=
  message.setField fieldName 0 (Bytes.be32 value.toUInt32)

/-- `wi_p7_message_set_uint32_for_name`. -/
def setUint32ForName (message : Message) (value : UInt32) (fieldName : String)
    : Access (Outcome Unit × Message) :=
  message.setInt32ForName value.toInt32 fieldName

/-- `wi_p7_message_set_enum_for_name`. -/
def setEnumForName (message : Message) (value : UInt32) (fieldName : String)
    : Access (Outcome Unit × Message) :=
  message.setUint32ForName value fieldName

/-- `wi_p7_message_set_int64_for_name`. -/
def setInt64ForName (message : Message) (value : Int64) (fieldName : String)
    : Access (Outcome Unit × Message) :=
  message.setField fieldName 0 (Bytes.be64 value.toUInt64)

/-- `wi_p7_message_set_uint64_for_name`. -/
def setUint64ForName (message : Message) (value : UInt64) (fieldName : String)
    : Access (Outcome Unit × Message) :=
  message.setInt64ForName value.toInt64 fieldName

/-- `wi_p7_message_set_double_for_name`. -/
def setDoubleForName (message : Message) (value : Binary64.Value) (fieldName : String)
    : Access (Outcome Unit × Message) :=
  message.setField fieldName 0 (writeDoubleToIeee754 value)

/-- `wi_p7_message_set_oobdata_for_name`. -/
def setOobdataForName (message : Message) (value : UInt64) (fieldName : String)
    : Access (Outcome Unit × Message) :=
  message.setField fieldName 0 (Bytes.be64 value)

/-- `wi_p7_message_set_string_for_name`: the bytes of the string with the zero byte behind
them.
-/
def setStringForName (message : Message) (string : Bytes.Block) (fieldName : String)
    : Access (Outcome Unit × Message) :=
  let fieldSize := UInt32.ofNat (string.length + 1)
  message.setField fieldName fieldSize
    (Bytes.be32 fieldSize ++ (string ++ [0]).take fieldSize.toNat)

/-- `wi_p7_message_set_data_for_name`. -/
def setDataForName (message : Message) (data : Bytes.Block) (fieldName : String)
    : Access (Outcome Unit × Message) :=
  let fieldSize := UInt32.ofNat data.length
  message.setField fieldName fieldSize (Bytes.be32 fieldSize ++ data.take fieldSize.toNat)

/-- `wi_p7_message_set_uuid_for_name`. -/
def setUuidForName (message : Message) (uuid : Uuid) (fieldName : String)
    : Access (Outcome Unit × Message) :=
  message.setField fieldName 0 uuid.bytes

/-- `wi_p7_message_set_date_for_name`. -/
def setDateForName (message : Message) (interval : Binary64.Value) (fieldName : String)
    : Access (Outcome Unit × Message) :=
  message.setDoubleForName interval fieldName

/-- One round of the first loop of the list setter: it adds up the size of the elements and stops
at an element of another type.
-/
def listSizeStep (firstId : ℕ) (fieldSize : UInt32) (item : Instance) : Outcome UInt32 :=
  if item.runtimeId ≠ firstId then .error (some ⟨.unknownField, "Mixed types in list"⟩)
  else
    match item with
    | .string string => .ok (fieldSize + .ofNat (4 + string.length + 1))
    | .other _ className =>
        .error (some ⟨.unknownField, s!"Unhandled type {className} in list"⟩)

/-- The size that the first loop of the list setter adds up, unless an element stops it. -/
def listFieldSize (list : List Instance) : Outcome UInt32 :=
  let firstId := (list.head?.map Instance.runtimeId).getD 0
  list.foldlM (listSizeStep firstId) 0

/-- The bytes that the second loop of the list setter stores for an element. -/
def listElement : Instance → Bytes.Block
  | .string string =>
      let stringSize := UInt32.ofNat (string.length + 1)
      Bytes.be32 stringSize ++ (string ++ [0]).take stringSize.toNat
  | .other _ _ => []

/-- `wi_p7_message_set_list_for_name`. -/
def setListForName (message : Message) (list : List Instance) (fieldName : String)
    : Access (Outcome Unit × Message) :=
  match listFieldSize list with
  | .error failure => .ok (.error failure, message)
  | .ok fieldSize =>
      message.setField fieldName fieldSize
        (Bytes.be32 fieldSize ++ list.flatMap listElement)

-----------------------------------------------------------------------------------------
-- Getters
-----------------------------------------------------------------------------------------

/-- What the getters of fixed size have in common: they look up the field and decode as many
bytes as their type has, whatever size the field declares.
-/
def getField {α : Type} (message : Message) (fieldName : String) (width : ℕ)
    (decode : Bytes.Block → α)
    : Access (Outcome α) := do
  match ← message.readingForName fieldName with
  | .error failure => .ok (.error failure)
  | .ok (binary, _) =>
      let bytes ← inside (Bytes.slice message.binaryBuffer binary width)
      .ok (.ok (decode bytes))

/-- `wi_p7_message_get_bool_for_name`. -/
def getBoolForName (message : Message) (fieldName : String) : Access (Outcome Bool) :=
  message.getField fieldName 1 fun bytes => bytes == [1]

/-- `wi_p7_message_get_int32_for_name`. -/
def getInt32ForName (message : Message) (fieldName : String) : Access (Outcome Int32) :=
  message.getField fieldName 4 fun bytes => (Bytes.ofBe32 bytes).toInt32

/-- `wi_p7_message_get_uint32_for_name`. -/
def getUint32ForName (message : Message) (fieldName : String) : Access (Outcome UInt32) := do
  let outcome ← message.getInt32ForName fieldName
  .ok (outcome.map Int32.toUInt32)

/-- `wi_p7_message_get_enum_for_name`. -/
def getEnumForName (message : Message) (fieldName : String) : Access (Outcome UInt32) :=
  message.getUint32ForName fieldName

/-- `wi_p7_message_get_int64_for_name`. -/
def getInt64ForName (message : Message) (fieldName : String) : Access (Outcome Int64) :=
  message.getField fieldName 8 fun bytes => (Bytes.ofBe64 bytes).toInt64

/-- `wi_p7_message_get_uint64_for_name`. -/
def getUint64ForName (message : Message) (fieldName : String) : Access (Outcome UInt64) := do
  let outcome ← message.getInt64ForName fieldName
  .ok (outcome.map Int64.toUInt64)

/-- `wi_p7_message_get_double_for_name`. -/
def getDoubleForName (message : Message) (fieldName : String)
    : Access (Outcome Binary64.Value) :=
  message.getField fieldName 8 readDoubleFromIeee754

/-- `wi_p7_message_get_oobdata_for_name`. -/
def getOobdataForName (message : Message) (fieldName : String) : Access (Outcome UInt64) :=
  message.getField fieldName 8 Bytes.ofBe64

/-- `wi_p7_message_string_for_name`: all but the last byte of the field. A declared size of
zero becomes the largest 32-bit number.
-/
def stringForName (message : Message) (fieldName : String)
    : Access (Outcome Bytes.Block) := do
  match ← message.readingForName fieldName with
  | .error failure => .ok (.error failure)
  | .ok (binary, fieldSize) =>
      let bytes ← inside (Bytes.slice message.binaryBuffer binary (fieldSize - 1).toNat)
      .ok (.ok bytes)

/-- `wi_p7_message_data_for_name`. -/
def dataForName (message : Message) (fieldName : String) : Access (Outcome Bytes.Block) := do
  match ← message.readingForName fieldName with
  | .error failure => .ok (.error failure)
  | .ok (binary, fieldSize) =>
      let bytes ← inside (Bytes.slice message.binaryBuffer binary fieldSize.toNat)
      .ok (.ok bytes)

/-- `wi_p7_message_uuid_for_name`. -/
def uuidForName (message : Message) (fieldName : String) : Access (Outcome Uuid) := do
  match ← message.readingForName fieldName with
  | .error failure => .ok (.error failure)
  | .ok (binary, _) =>
      let bytes ← inside (Bytes.slice message.binaryBuffer binary 16)
      if size : bytes.length = 16 then .ok (.ok ⟨bytes, size⟩)
      else .error .outside

/-- `wi_p7_message_date_for_name`. -/
def dateForName (message : Message) (fieldName : String) : Access (Outcome Binary64.Value) :=
  message.getDoubleForName fieldName

/-- One round of the element loop of the list getter: the 32-bit offset into the field and the
elements so far.
-/
def listBody (buffer : Bytes.Block) (binary : ℕ) (fieldSize : UInt32)
    (state : UInt32 × List Bytes.Block)
    : Access (Turn (UInt32 × List Bytes.Block) (List Bytes.Block)) := do
  let (listSize, list) := state
  if listSize < fieldSize then
    let stringSize ← inside (Bytes.read32 buffer (binary + listSize.toNat))
    let listSize := listSize + 4
    let item ← inside (Bytes.slice buffer (binary + listSize.toNat) (stringSize - 1).toNat)
    .ok (.again (listSize + stringSize, list ++ [item]))
  else .ok (.stop list)

/-- `wi_p7_message_list_for_name`. The list type of the field is followed without a check. -/
def listForName (message : Message) (fieldName : String)
    : Access (Outcome (List Bytes.Block)) := do
  match message.spec.fieldWithName fieldName with
  | none => .ok (noIdForField fieldName)
  | some field =>
      match field.listtype with
      | none => .error .nullPointer
      | some listtype =>
          if listtype.id ≠ P7Type.string.id then
            .ok (.error (some ⟨.unknownField, s!"Unhandled type {listtype.name} in list"⟩))
          else
            match ← message.readingForName fieldName with
            | .error failure => .ok (.error failure)
            | .ok (binary, fieldSize) =>
                let list ← run (listBody message.binaryBuffer binary fieldSize)
                  (message.binaryBuffer.length + 1) (0, [])
                .ok (.ok list)

-----------------------------------------------------------------------------------------
-- Setters and getters by type
-----------------------------------------------------------------------------------------

/-- The setter that matches the type of a value. -/
def setForName (message : Message) (value : P7Value) (fieldName : String)
    : Access (Outcome Unit × Message) :=
  match value with
  | .bool value => message.setBoolForName value fieldName
  | .enum value => message.setEnumForName value fieldName
  | .int32 value => message.setInt32ForName value fieldName
  | .uint32 value => message.setUint32ForName value fieldName
  | .int64 value => message.setInt64ForName value fieldName
  | .uint64 value => message.setUint64ForName value fieldName
  | .double value => message.setDoubleForName value fieldName
  | .string bytes => message.setStringForName bytes fieldName
  | .uuid uuid => message.setUuidForName uuid fieldName
  | .date interval => message.setDateForName interval fieldName
  | .data bytes => message.setDataForName bytes fieldName
  | .oobdata value => message.setOobdataForName value fieldName
  | .list strings => message.setListForName (strings.map .string) fieldName

/-- The getter that matches a type. -/
def getForName (message : Message) (type : P7Type) (fieldName : String)
    : Access (Outcome P7Value) := do
  match type with
  | .bool => return (← message.getBoolForName fieldName).map .bool
  | .enum => return (← message.getEnumForName fieldName).map .enum
  | .int32 => return (← message.getInt32ForName fieldName).map .int32
  | .uint32 => return (← message.getUint32ForName fieldName).map .uint32
  | .int64 => return (← message.getInt64ForName fieldName).map .int64
  | .uint64 => return (← message.getUint64ForName fieldName).map .uint64
  | .double => return (← message.getDoubleForName fieldName).map .double
  | .string => return (← message.stringForName fieldName).map .string
  | .uuid => return (← message.uuidForName fieldName).map .uuid
  | .date => return (← message.dateForName fieldName).map .date
  | .data => return (← message.dataForName fieldName).map .data
  | .oobdata => return (← message.getOobdataForName fieldName).map .oobdata
  | .list => return (← message.listForName fieldName).map .list

-----------------------------------------------------------------------------------------
-- All fields
-----------------------------------------------------------------------------------------

/-- `_wi_p7_message_field_string_value`, up to the text it makes of the value: the getter for
the type of the field, if its type is one of the protocol.
-/
def fieldValue (message : Message) (field : SpecField) : Access (Option P7Value) := do
  match P7Type.ofId field.type.id with
  | none => .ok none
  | some type => return (← message.getForName type field.name).toOption

/-- One round of the loops that visit every field of a message: the offset from the end of the
header and what the visits have made so far. An id without a field is skipped, and no length
is compared with the size of the message.
-/
def skimBody {σ : Type} (spec : Spec) (buffer : Bytes.Block) (messageSize : UInt32)
    (visit : SpecField → UInt32 → σ → Access σ) (state : ℕ × σ)
    : Access (Turn (ℕ × σ) σ) := do
  let (offset, made) := state
  if UInt32.ofNat offset < messageSize then
    let fieldId ← inside (Bytes.read32 buffer (headerSize + offset))
    let offset := offset + 4
    match spec.fieldWithId fieldId.toUInt64 with
    | none => .ok (.again (offset, made))
    | some field =>
        let fieldSize := field.size.toUInt32
        let (offset, fieldSize) ←
          if fieldSize = 0 then do
            let length ← inside (Bytes.read32 buffer (headerSize + offset))
            .ok (offset + 4, length)
          else .ok (offset, fieldSize)
        let made ← visit field fieldId made
        .ok (.again (offset + fieldSize.toNat, made))
  else .ok (.stop made)

/-- What `wi_p7_message_fields` does with a field: it enters its value under its name. -/
def fieldsVisit (message : Message) (field : SpecField) (_fieldId : UInt32)
    (all : Dictionary String (Option P7Value))
    : Access (Dictionary String (Option P7Value)) := do
  let value ← message.fieldValue field
  .ok (all.insert field.name value)

/-- `wi_p7_message_fields`: the value of every field the walk meets, by field name. -/
def fields (message : Message) : Access (Dictionary String (Option P7Value)) :=
  let messageSize := message.binarySize - .ofNat headerSize
  run (skimBody message.spec message.binaryBuffer messageSize message.fieldsVisit)
    (message.binaryBuffer.length + 1) (0, ∅)

end Message

end WiredServer.P7
