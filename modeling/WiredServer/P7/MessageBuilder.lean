import Mathlib
import WiredServer.P7.MessageContents

/-! Messages that are built with the typed setters.
Every setter extends the contents of a message by an entry or changes nothing, so a message
that was built call by call returns the first value that was set for each field.
-/

namespace WiredServer.P7

open Loop

-----------------------------------------------------------------------------------------
-- One setter
-----------------------------------------------------------------------------------------

/-- The length of a value that its setter passes on, zero for types of fixed size. -/
def P7Value.storedLength (value : P7Value) : UInt32 :=
  if value.type.width = 0 then .ofNat value.payload.length else 0

/-- What a setter stores behind the id of its field. -/
def P7Value.stored (value : P7Value) : Bytes.Block :=
  if value.type.width = 0 then Bytes.be32 (.ofNat value.payload.length) ++ value.payload
  else value.payload

/-- The first loop of the list setter adds up the size of all strings, by list induction. -/
theorem foldlM_listSizeStep (strings : List Bytes.Block) (size : ℕ)
    : (strings.map Instance.string).foldlM (Message.listSizeStep 0) (UInt32.ofNat size)
      = .ok (.ofNat (size + (P7Value.list strings).payload.length)) := by
  induction strings generalizing size with
  | nil => rfl
  | cons string rest ih =>
      have round : Message.listSizeStep 0 (UInt32.ofNat size) (.string string)
          = .ok (.ofNat (size + (4 + string.length + 1))) := by
        rw [UInt32.ofNat_add]
        rfl
      have total : (P7Value.list (string :: rest)).payload.length
          = 4 + string.length + 1 + (P7Value.list rest).payload.length := by
        simp only [P7Value.payload, List.flatMap_cons, List.length_append, Bytes.be32_length,
          List.length_singleton]
        omega
      rw [List.map_cons, List.foldlM_cons, round]
      change List.foldlM _ _ _ = _
      rw [ih, total, Nat.add_assoc size]

/-- The list setter passes on the size of its strings. -/
theorem listFieldSize_strings (strings : List Bytes.Block)
    : Message.listFieldSize (strings.map Instance.string)
      = .ok (.ofNat (P7Value.list strings).payload.length) := by
  have first : ((strings.map Instance.string).head?.map Instance.runtimeId).getD 0 = 0 := by
    cases strings <;> rfl
  have ran := foldlM_listSizeStep strings 0
  rw [Nat.zero_add] at ran
  rw [Message.listFieldSize, first]
  exact ran

/-- Bytes that fit a 32-bit size are stored whole. -/
theorem take_stored {bytes : Bytes.Block} (short : bytes.length < 2 ^ 32)
    : bytes.take (UInt32.ofNat bytes.length).toNat = bytes := by
  rw [UInt32.toNat_ofNat', Nat.mod_eq_of_lt short, List.take_length]

/-- The second loop of the list setter stores the payload, by list induction. -/
theorem flatMap_listElement {strings : List Bytes.Block}
    (short : (P7Value.list strings).payload.length < 2 ^ 32)
    : (strings.map Instance.string).flatMap Message.listElement
      = (P7Value.list strings).payload := by
  induction strings with
  | nil => rfl
  | cons string rest ih =>
      have shape : (P7Value.list (string :: rest)).payload
          = Bytes.be32 (.ofNat (string.length + 1)) ++ (string ++ [0])
            ++ (P7Value.list rest).payload := rfl
      have last : string.length + 1 = (string ++ [0]).length := by simp
      rw [shape, List.length_append, List.length_append] at short
      have element : Message.listElement (.string string)
          = Bytes.be32 (.ofNat (string.length + 1)) ++ (string ++ [0]) := by
        rw [Message.listElement, last, take_stored (by omega)]
      rw [shape, List.map_cons, List.flatMap_cons, element, ih (by omega)]

/-- Every setter reserves a field and stores its value, whose bytes are those of the payload
when they fit a 32-bit size.
-/
theorem setForName_eq (message : Message) (value : P7Value) (name : String)
    : ∃ rest, message.setForName value name = message.setField name value.storedLength rest
      ∧ (value.payload.length < 2 ^ 32 → rest = value.stored) := by
  cases value with
  | string bytes =>
      have last : bytes.length + 1 = (bytes ++ [0]).length := by simp
      refine ⟨Bytes.be32 (.ofNat (bytes ++ [0]).length)
        ++ (bytes ++ [0]).take (UInt32.ofNat (bytes ++ [0]).length).toNat, ?_, fun short => ?_⟩
      · simp only [Message.setForName, Message.setStringForName, last]
        rfl
      · change (bytes ++ [0]).length < 2 ^ 32 at short
        rw [take_stored short]
        rfl
  | data bytes =>
      refine ⟨_, rfl, fun short => ?_⟩
      change bytes.length < 2 ^ 32 at short
      rw [take_stored short]
      rfl
  | list strings =>
      refine ⟨Bytes.be32 (.ofNat (P7Value.list strings).payload.length)
        ++ (strings.map Instance.string).flatMap Message.listElement, ?_, fun short => ?_⟩
      · simp only [Message.setForName, Message.setListForName, listFieldSize_strings]
        rfl
      · rw [flatMap_listElement short]
        rfl
  | enum number =>
      refine ⟨_, rfl, fun short => ?_⟩
      simp [P7Value.stored, P7Value.payload, P7Value.type, P7Type.width]
  | uint32 number =>
      refine ⟨_, rfl, fun short => ?_⟩
      simp [P7Value.stored, P7Value.payload, P7Value.type, P7Type.width]
  | uint64 number =>
      refine ⟨_, rfl, fun short => ?_⟩
      simp [P7Value.stored, P7Value.payload, P7Value.type, P7Type.width]
  | _ => exact ⟨_, rfl, fun short => rfl⟩

section Setter

variable {message : Message} {entries : List Entry} {entry : Entry}

/-- A setter for a name without a field changes nothing. -/
theorem setField_missing {name : String} (missing : message.spec.fieldWithName name = none)
    (length : UInt32) (rest : Bytes.Block)
    : message.setField name length rest = .ok (noIdForField name, message) := by
  simp only [Message.setField, Message.writingForName, missing, bind, Except.bind, noIdForField]

/-- A setter for a field that is set already changes nothing. -/
theorem setField_present (represents : message.Represents entries)
    (sound : entry.Sound message.spec) (present : entry.wireId ∈ entries.map Entry.wireId)
    (length : UInt32) (rest : Bytes.Block)
    : message.setField entry.field.name length rest = .ok (.error none, message) := by
  obtain ⟨other, member, same⟩ := List.mem_map.mp present
  obtain ⟨position, found, _⟩ := lookup_entry represents.distinct represents.stands member
  have read := represents.readingForId entry.wireId
  rw [← same, found, same] at read
  have known : message.spec.fieldWithId entry.wireId.toUInt64 = some entry.field := by
    rw [Entry.wireId, sound.holds.toUInt64_id, sound.known]
  have writing : message.writingForId entry.wireId length = .ok (.error none, message) := by
    simp only [Message.writingForId, known, read, bind, Except.bind]
  simp only [Message.setField, Message.writingForName, sound.named, bind, Except.bind]
  rw [← Entry.wireId, writing]
  rfl

/-- Storing the bytes of an entry behind those of a message appends them. -/
theorem store_append {block : Bytes.Block} {size : ℕ} {front rest : Bytes.Block}
    (inside : size + front.length + rest.length ≤ block.length)
    : ∃ first second, Bytes.overwrite block size front = some first
      ∧ Bytes.overwrite first (size + front.length) rest = some second
      ∧ second.length = block.length
      ∧ second.take (size + front.length + rest.length) = block.take size ++ front ++ rest := by
  obtain ⟨first, stored⟩ := Bytes.overwrite_inside (show size + front.length ≤ block.length by omega)
  have length := (Bytes.overwrite_length stored).1
  obtain ⟨second, storedRest⟩ := Bytes.overwrite_inside
    (show size + front.length + rest.length ≤ first.length by omega)
  refine ⟨first, second, stored, storedRest, ?_, ?_⟩
  · rw [(Bytes.overwrite_length storedRest).1, length]
  · rw [Bytes.overwrite_take storedRest, Bytes.overwrite_take stored]

/-- Growing keeps the bytes of a message and makes room for the new field. -/
theorem grow_represents (represents : message.Represents entries) {newSize : UInt32}
    (short : message.binarySize.toNat + newSize.toNat < 2 ^ 32)
    : (message.grow newSize).spec = message.spec
      ∧ (message.grow newSize).binaryId = message.binaryId
      ∧ (message.grow newSize).binaryBuffer.length = (message.grow newSize).binaryCapacity.toNat
      ∧ message.binarySize + newSize ≤ (message.grow newSize).binaryCapacity
      ∧ (message.grow newSize).binaryBuffer.take message.binarySize.toNat = message.bytes := by
  have sum : (message.binarySize + newSize).toNat = message.binarySize.toNat + newSize.toNat := by
    rw [UInt32.toNat_add, Nat.mod_eq_of_lt short]
  have fits := UInt32.le_iff_toNat_le.mp represents.fits
  have allocated := represents.allocated
  by_cases large : message.binarySize + newSize > message.binaryCapacity
  · have larger := UInt32.lt_iff_toNat_lt.mp large
    simp only [Message.grow, large, if_true]
    refine ⟨trivial, trivial, ?_, UInt32.le_refl _, ?_⟩
    · simp only [Message.resize, List.length_append, List.length_take, List.length_replicate]
      omega
    · rw [Message.resize, List.take_append_of_le_length (by simp; omega), List.take_take,
        Nat.min_eq_left (by omega)]
      rfl
  · simp only [Message.grow, large, if_false]
    exact ⟨trivial, trivial, allocated, UInt32.not_lt.mp large, rfl⟩

/-- The encoding of an entry is its id and what the setter stores behind it. -/
theorem encode_eq (sound : entry.Sound message.spec)
    : entry.encode = Bytes.be32 entry.wireId ++ entry.value.stored := by
  by_cases prefixed : entry.value.type.width = 0
  · rw [Entry.encode, Entry.front, if_pos (sound.holds.size_eq_zero.mpr prefixed),
      P7Value.stored, if_pos prefixed, List.append_assoc]
  · rw [Entry.encode, Entry.front, if_neg (mt sound.holds.size_eq_zero.mp prefixed),
      P7Value.stored, if_neg prefixed]

/-- The size that a setter reserves is the size of the encoding. -/
theorem newSize_toNat (sound : entry.Sound message.spec) (short : entry.encode.length < 2 ^ 32)
    : (if entry.field.size.toUInt32 = 0 then 4 + 4 + entry.value.storedLength
        else 4 + entry.field.size.toUInt32).toNat = entry.encode.length := by
  have four : (4 : UInt32).toNat = 4 := rfl
  have eight : (4 + 4 : UInt32).toNat = 8 := rfl
  have holds := sound.holds
  rw [encode_eq sound] at short ⊢
  by_cases prefixed : entry.value.type.width = 0
  · simp only [P7Value.stored, prefixed, if_true, List.length_append, Bytes.be32_length] at short
    rw [if_pos (holds.size_eq_zero.mpr prefixed)]
    simp only [P7Value.stored, P7Value.storedLength, prefixed, if_true, List.length_append,
      Bytes.be32_length]
    rw [UInt32.toNat_add, eight, UInt32.toNat_ofNat']
    omega
  · have width := P7Value.payload_length prefixed
    simp only [P7Value.stored, prefixed, if_false, List.length_append, Bytes.be32_length] at short
    rw [if_neg (mt holds.size_eq_zero.mp prefixed)]
    simp only [P7Value.stored, prefixed, if_false, List.length_append, Bytes.be32_length]
    rw [UInt32.toNat_add, four, holds.toNat_size]
    omega

/-- A setter for a field that is not set yet appends its entry. -/
theorem setField_new (represents : message.Represents entries) (sound : entry.Sound message.spec)
    (absent : entry.wireId ∉ entries.map Entry.wireId)
    (short : headerSize + (encodeAll entries).length + entry.encode.length < 2 ^ 32)
    : ∃ next, message.setField entry.field.name entry.value.storedLength entry.value.stored
        = .ok (.ok (), next)
      ∧ next.spec = message.spec ∧ next.Represents (entries ++ [entry]) := by
  have read := represents.readingForId entry.wireId
  rw [lookup_absent absent] at read
  have known : message.spec.fieldWithId entry.wireId.toUInt64 = some entry.field := by
    rw [Entry.wireId, sound.holds.toUInt64_id, sound.known]
  have added := newSize_toNat sound (by omega)
  generalize reserved : (if entry.field.size.toUInt32 = 0
    then 4 + 4 + entry.value.storedLength else 4 + entry.field.size.toUInt32) = newSize at added
  have size := represents.binarySize
  have sum : message.binarySize.toNat + newSize.toNat < 2 ^ 32 := by omega
  have total : (message.binarySize + newSize).toNat
      = message.binarySize.toNat + entry.encode.length := by
    rw [UInt32.toNat_add, Nat.mod_eq_of_lt sum, added]
  obtain ⟨sameSpec, sameId, allocated, fits, kept⟩ := grow_represents represents sum
  have shape := congrArg List.length (encode_eq sound)
  rw [List.length_append] at shape
  have inside : message.binarySize.toNat + (Bytes.be32 entry.wireId).length
      + entry.value.stored.length ≤ (message.grow newSize).binaryBuffer.length := by
    have room := UInt32.le_iff_toNat_le.mp fits
    omega
  obtain ⟨first, second, storedId, storedRest, length, whole⟩ := store_append inside
  rw [Bytes.be32_length] at storedRest
  have writing : message.writingForId entry.wireId entry.value.storedLength
      = .ok (.ok message.binarySize.toNat,
        { message.grow newSize with binarySize := message.binarySize + newSize }) := by
    simp only [Message.writingForId, known, read, reserved, bind, Except.bind]
  refine ⟨{ message.grow newSize with
    binarySize := message.binarySize + newSize
    binaryBuffer := second }, ?_, sameSpec, ?_, ?_, fits, ?_, ?_⟩
  · simp only [Message.setField, Message.writingForName, sound.named, bind, Except.bind]
    rw [← Entry.wireId, writing]
    simp only [Except.map, Message.store, storedId, storedRest, inside_some, bind, Except.bind]
  · rw [kept, represents.bytes] at whole
    simp only [Message.bytes, total]
    rw [shape, ← Nat.add_assoc, whole, sameId]
    simp only [encodeAll, List.flatMap_append, List.flatMap_singleton, encode_eq sound,
      List.append_assoc]
  · exact length.trans allocated
  · rw [List.map_append, List.map_singleton, List.nodup_append_comm]
    exact List.nodup_cons.mpr ⟨absent, represents.distinct⟩
  · intro other member
    rw [sameSpec]
    rcases List.mem_append.mp member with old | new
    · exact represents.sound other old
    · cases List.mem_singleton.mp new
      exact sound

end Setter

-----------------------------------------------------------------------------------------
-- Sequences of setters
-----------------------------------------------------------------------------------------

/-- A call of the setter that matches the type of a value. -/
structure Call where
  fieldName : String
  value : P7Value

/-- Makes calls one after the other, whether they succeed or not. -/
def Message.perform (message : Message) (calls : List Call) : Access Message :=
  calls.foldlM
    (fun message call => do
      let (_, next) ← message.setForName call.value call.fieldName
      .ok next)
    message

/-- Creates a message and makes calls on it. -/
def build (spec : Spec) (name : String) (calls : List Call) : Access (Outcome Message) := do
  match ← Message.initWithName name spec with
  | .error failure => .ok (.error failure)
  | .ok message =>
      let message ← message.perform calls
      .ok (.ok message)

/-- A field of a message as its bytes are read: an id and a value. -/
structure WireField where
  id : UInt32
  field : SpecField
  value : Bytes.Block

namespace WireField

/-- The bytes of a field, with its length when the specification declares no size. -/
def bytes (wire : WireField) : Bytes.Block :=
  if wire.field.size.toUInt32 = 0 then
    Bytes.be32 wire.id ++ Bytes.be32 (.ofNat wire.value.length) ++ wire.value
  else Bytes.be32 wire.id ++ wire.value

/-- The id belongs to the field, and the value has the declared length. -/
structure WellFormed (spec : Spec) (wire : WireField) : Prop where
  known : spec.fieldWithId wire.id.toUInt64 = some wire.field
  sized : wire.field.size.toUInt32 = 0 ∧ wire.value.length < 2 ^ 32
    ∨ wire.value.length = wire.field.size.toUInt32.toNat

end WireField

/-- The bytes of a message are its header and well-formed fields with distinct ids, and they
fit into its capacity.
-/
def Message.WellFormed (message : Message) : Prop :=
  message.binarySize ≤ message.binaryCapacity
    ∧ ∃ fields : List WireField,
      message.bytes = Bytes.be32 message.binaryId ++ fields.flatMap WireField.bytes
        ∧ (fields.map WireField.id).Nodup
        ∧ ∀ wire ∈ fields, wire.WellFormed message.spec

/-- Building a message works. At every point its bytes are well formed, and the next setter
succeeds iff its field exists and was not set before, and changes nothing otherwise. At the end
the getter of every field returns what the message keeps of the first value set for it.
-/
structure RoundTrips (spec : Spec) (name : String) (calls : List Call)
    (kept : P7Value → P7Value)
    : Prop where
  layout : ∀ {before}, before <+: calls
    → ∃ message, build spec name before = .ok (.ok message) ∧ message.WellFormed
  setters : ∀ {before call}, before ++ [call] <+: calls
    → ∃ message outcome next, build spec name before = .ok (.ok message)
      ∧ message.setForName call.value call.fieldName = .ok (outcome, next)
      ∧ (outcome = .ok ()
        ↔ (spec.fieldWithName call.fieldName).isSome
          ∧ ∀ earlier ∈ before, earlier.fieldName ≠ call.fieldName)
      ∧ (outcome ≠ .ok () → next = message)
  getters : ∀ {before call after}, calls = before ++ call :: after
    → (spec.fieldWithName call.fieldName).isSome
    → (∀ earlier ∈ before, earlier.fieldName ≠ call.fieldName)
    → ∃ message, build spec name calls = .ok (.ok message)
      ∧ message.getForName call.value.type call.fieldName = .ok (.ok (kept call.value))

/-- The name of a call has no field, or one that holds its value. -/
def Call.Typed (spec : Spec) (call : Call) : Prop :=
  ∀ field, spec.fieldWithName call.fieldName = some field → field.Holds call.value

/-- The entries after a call: a field that exists and is not set yet is appended. -/
def setEntry (spec : Spec) (entries : List Entry) (call : Call) : List Entry :=
  match spec.fieldWithName call.fieldName with
  | none => entries
  | some field =>
      if call.fieldName ∈ entries.map (·.field.name) then entries
      else entries ++ [{ field, value := call.value }]

/-- The entries after calls: each field with the first value that was set for it. -/
def entriesOf (spec : Spec) (calls : List Call) : List Entry :=
  calls.foldl (setEntry spec) []

section Calls

variable {spec : Spec} {entries : List Entry} {calls : List Call} {call : Call}

/-- A last call sets its entry behind those of the calls before it. -/
theorem entriesOf_concat
    : entriesOf spec (calls ++ [call]) = setEntry spec (entriesOf spec calls) call := by
  simp [entriesOf]

/-- A call keeps all entries. -/
theorem prefix_setEntry : entries <+: setEntry spec entries call := by
  unfold setEntry
  split
  · exact List.prefix_rfl
  · split
    · exact List.prefix_rfl
    · exact List.prefix_append ..

/-- Calls keep all entries, by list induction. -/
theorem prefix_foldl_setEntry : entries <+: calls.foldl (setEntry spec) entries := by
  induction calls generalizing entries with
  | nil => exact List.prefix_rfl
  | cons first rest ih => exact prefix_setEntry.trans ih

/-- More calls leave more entries. -/
theorem prefix_entriesOf (spec : Spec) {before : List Call} (earlier : before <+: calls)
    : entriesOf spec before <+: entriesOf spec calls := by
  obtain ⟨after, rfl⟩ := earlier
  rw [entriesOf, entriesOf, List.foldl_append]
  exact prefix_foldl_setEntry

/-- More entries take more bytes. -/
theorem encodeAll_length_le {more : List Entry} (earlier : entries <+: more)
    : (encodeAll entries).length ≤ (encodeAll more).length := by
  obtain ⟨rest, rfl⟩ := earlier
  simp [encodeAll]

/-- A field is set after a call iff it was set before or the call names it. -/
theorem mem_names_setEntry (loaded : spec.Loaded) {name : String}
    (known : (spec.fieldWithName name).isSome)
    : name ∈ (setEntry spec entries call).map (·.field.name)
      ↔ name ∈ entries.map (·.field.name) ∨ call.fieldName = name := by
  unfold setEntry
  cases found : spec.fieldWithName call.fieldName with
  | none =>
      have differs : call.fieldName ≠ name := by
        rintro rfl
        simp [found] at known
      simp [differs]
  | some field =>
      have named := (loaded.fieldWithName found).1
      by_cases present : call.fieldName ∈ entries.map (·.field.name)
      · simp only [present, if_true]
        constructor
        · exact .inl
        · rintro (member | rfl)
          · exact member
          · exact present
      · simp only [present, if_false, List.map_append, List.map_cons, List.map_nil, named,
          List.mem_append, List.mem_singleton]
        tauto

/-- A field is set after calls iff one of them names it, by induction on the last call. -/
theorem mem_names_entriesOf (loaded : spec.Loaded) {name : String}
    (known : (spec.fieldWithName name).isSome)
    : name ∈ (entriesOf spec calls).map (·.field.name)
      ↔ ∃ earlier ∈ calls, earlier.fieldName = name := by
  induction calls using List.reverseRecOn with
  | nil => simp [entriesOf]
  | append_singleton before last ih =>
      rw [entriesOf_concat, mem_names_setEntry loaded known, ih]
      simp [or_and_right, exists_or]

/-- The first call for a field sets its entry. -/
theorem mem_entriesOf (loaded : spec.Loaded) {before after : List Call} {field : SpecField}
    (found : spec.fieldWithName call.fieldName = some field)
    (first : ∀ earlier ∈ before, earlier.fieldName ≠ call.fieldName)
    : { field, value := call.value } ∈ entriesOf spec (before ++ call :: after) := by
  have known : (spec.fieldWithName call.fieldName).isSome := by simp [found]
  have absent : call.fieldName ∉ (entriesOf spec before).map (·.field.name) := by
    rw [mem_names_entriesOf loaded known]
    rintro ⟨earlier, member, same⟩
    exact first earlier member same
  have set : { field, value := call.value } ∈ entriesOf spec (before ++ [call]) := by
    rw [entriesOf_concat, setEntry]
    simp only [found, absent, if_false]
    exact List.mem_append_right _ (.head _)
  refine (prefix_entriesOf spec ?_).subset set
  exact ⟨after, by simp⟩

/-- A typed call for a field of a loaded specification makes a sound entry. -/
theorem Call.Typed.sound (typed : call.Typed spec) (loaded : spec.Loaded) {field : SpecField}
    (found : spec.fieldWithName call.fieldName = some field)
    : ({ field, value := call.value } : Entry).Sound spec := by
  obtain ⟨named, known⟩ := loaded.fieldWithName found
  refine ⟨known, ?_, typed field found⟩
  rwa [← named] at found

/-- A field is set iff its id is: ids determine the fields that sound entries have. -/
theorem mem_wireIds_iff {entry : Entry} (sound : entry.Sound spec)
    (sounds : ∀ other ∈ entries, other.Sound spec)
    : entry.wireId ∈ entries.map Entry.wireId
      ↔ entry.field.name ∈ entries.map (·.field.name) := by
  constructor
  · intro present
    obtain ⟨other, member, same⟩ := List.mem_map.mp present
    have sameId : other.field.id = entry.field.id := by
      rw [← (sounds other member).holds.toUInt64_id, ← sound.holds.toUInt64_id]
      exact congrArg UInt32.toUInt64 same
    have sameField : other.field = entry.field := by
      have known := (sounds other member).known
      rw [sameId, sound.known] at known
      exact (Option.some.inj known).symm
    exact List.mem_map.mpr ⟨other, member, congrArg SpecField.name sameField⟩
  · intro present
    obtain ⟨other, member, same⟩ := List.mem_map.mp present
    have sameField : other.field = entry.field := by
      have named := (sounds other member).named
      rw [same, sound.named] at named
      exact (Option.some.inj named).symm
    exact List.mem_map.mpr ⟨other, member, congrArg (·.id.toUInt32) sameField⟩

end Calls

section Building

variable {message : Message} {entries : List Entry} {call : Call}

/-- A typed call sets its entry or changes nothing. -/
theorem setForName_represents (loaded : message.spec.Loaded)
    (represents : message.Represents entries) (typed : call.Typed message.spec)
    (short : headerSize + (encodeAll (setEntry message.spec entries call)).length < 2 ^ 32)
    : ∃ outcome next, message.setForName call.value call.fieldName = .ok (outcome, next)
      ∧ next.spec = message.spec
      ∧ next.Represents (setEntry message.spec entries call)
      ∧ (outcome = .ok ()
        ↔ (message.spec.fieldWithName call.fieldName).isSome
          ∧ call.fieldName ∉ entries.map (·.field.name))
      ∧ (outcome ≠ .ok () → next = message) := by
  obtain ⟨rest, setter, stored⟩ := setForName_eq message call.value call.fieldName
  rw [setter]
  cases found : message.spec.fieldWithName call.fieldName with
  | none =>
      refine ⟨_, message, setField_missing found _ _, rfl, ?_, by simp [noIdForField], by simp⟩
      rwa [setEntry, found]
  | some field =>
      have sound := typed.sound loaded found
      have named := (loaded.fieldWithName found).1
      by_cases present : call.fieldName ∈ entries.map (·.field.name)
      · have kept : setEntry message.spec entries call = entries := by
          simp only [setEntry, found, present, if_true]
        have set := setField_present represents sound
          ((mem_wireIds_iff sound represents.sound).mpr (by rwa [named])) call.value.storedLength
          rest
        rw [named] at set
        refine ⟨_, message, set, rfl, ?_, by simp [present], by simp⟩
        rwa [kept]
      · have appended : setEntry message.spec entries call
            = entries ++ [{ field, value := call.value }] := by
          simp only [setEntry, found, present, if_false]
        have total : (encodeAll (entries ++ [{ field, value := call.value }])).length
            = (encodeAll entries).length
              + ({ field, value := call.value } : Entry).encode.length := by
          simp [encodeAll]
        rw [appended] at short ⊢
        rw [total] at short
        have payload : call.value.payload.length < 2 ^ 32 := by
          have part : call.value.payload.length
              ≤ ({ field, value := call.value } : Entry).encode.length := by
            simp [Entry.encode]
          omega
        obtain ⟨next, set, sameSpec, represented⟩ := setField_new represents sound
          (mt (mem_wireIds_iff sound represents.sound).mp (by rwa [named])) (by omega)
        rw [stored payload]
        rw [named] at set
        exact ⟨_, next, set, sameSpec, represented, by simp [present], by simp⟩

/-- A message that represents entries is well formed. -/
theorem Message.Represents.wellFormed (represents : message.Represents entries)
    : message.WellFormed := by
  have bound := message.binarySize.toNat_lt
  have size := represents.binarySize
  have short {entry : Entry} (member : entry ∈ entries) : entry.value.payload.length < 2 ^ 32 := by
    have part : entry.encode.length ≤ (encodeAll entries).length :=
      (List.sublist_flatten_of_mem (List.mem_map_of_mem member)).length_le
    have inner : entry.value.payload.length ≤ entry.encode.length := by simp [Entry.encode]
    omega
  refine ⟨represents.fits, entries.map fun entry =>
    { id := entry.wireId, field := entry.field, value := entry.value.payload }, ?_, ?_, ?_⟩
  · rw [represents.bytes, encodeAll, List.flatMap_map]
    congr 2
    funext entry
    simp only [Entry.encode, Entry.front, WireField.bytes]
    split <;> rfl
  · rw [List.map_map]
    exact represents.distinct
  · intro wire member
    obtain ⟨entry, listed, rfl⟩ := List.mem_map.mp member
    have sound := represents.sound entry listed
    refine ⟨?_, ?_⟩
    · rw [Entry.wireId, sound.holds.toUInt64_id]
      exact sound.known
    · by_cases prefixed : entry.field.size.toUInt32 = 0
      · exact .inl ⟨prefixed, short listed⟩
      · right
        rw [sound.holds.toNat_size]
        exact P7Value.payload_length (mt sound.holds.size_eq_zero.mpr prefixed)

variable {spec : Spec} {name : String} {specMessage : SpecMessage}

/-- A new message represents no entries. -/
theorem initWithName_represents (listed : spec.messageWithName name = some specMessage)
    : ∃ message, Message.initWithName name spec = .ok (.ok message)
      ∧ message.spec = spec ∧ message.Represents [] := by
  obtain ⟨after, stored⟩ := Bytes.overwrite_inside
    (show 0 + (Bytes.be32 specMessage.id.toUInt32).length
      ≤ (List.replicate initialSize (0 : UInt8)).length by
        rw [List.length_replicate, Bytes.be32_length]
        decide)
  have length := (Bytes.overwrite_length stored).1
  have front := Bytes.overwrite_take stored
  rw [List.length_replicate] at length
  have fits : UInt32.ofNat headerSize ≤ UInt32.ofNat initialSize := by decide
  refine ⟨{
    spec
    name := some name
    binaryBuffer := after
    binaryCapacity := .ofNat initialSize
    binarySize := .ofNat headerSize
    binaryId := specMessage.id.toUInt32 }, ?_, rfl, ?_, length, fits, by simp, by simp⟩
  · simp only [Message.initWithName, Message.setName, listed, Message.store, stored, inside_some,
      bind, Except.bind]
  · change after.take 4 = _
    simpa [encodeAll] using front

/-- One more call on a built message. -/
theorem build_concat {calls : List Call} {next : Message} {outcome : Outcome Unit}
    (built : build spec name calls = .ok (.ok message))
    (set : message.setForName call.value call.fieldName = .ok (outcome, next))
    : build spec name (calls ++ [call]) = .ok (.ok next) := by
  unfold build at built ⊢
  cases created : Message.initWithName name spec with
  | error fault => simp [created, bind, Except.bind] at built
  | ok result =>
      cases result with
      | error failure => simp [created, bind, Except.bind] at built
      | ok first =>
          simp only [created, Message.perform, Fallible.bind_eq_ok, Except.ok.injEq,
            exists_eq_left'] at built ⊢
          obtain ⟨last, performed, rfl⟩ := built
          refine ⟨next, ?_, rfl⟩
          rw [List.foldlM_append, performed]
          change (do
            let (_, next) ← last.setForName call.value call.fieldName
            .ok next) >>= pure = _
          rw [set]
          rfl

/-- A built message represents the first value set for each field, by induction on the last
call.
-/
theorem build_represents (loaded : spec.Loaded)
    (listed : spec.messageWithName name = some specMessage) {calls : List Call}
    (typed : ∀ call ∈ calls, call.Typed spec)
    (short : headerSize + (encodeAll (entriesOf spec calls)).length < 2 ^ 32)
    : ∃ message, build spec name calls = .ok (.ok message)
      ∧ message.spec = spec ∧ message.Represents (entriesOf spec calls) := by
  induction calls using List.reverseRecOn with
  | nil =>
      obtain ⟨message, created, same, represents⟩ := initWithName_represents listed
      refine ⟨message, ?_, same, represents⟩
      simp only [build, created, bind, Except.bind]
      rfl
  | append_singleton before last ih =>
      have grows := encodeAll_length_le
        (prefix_entriesOf spec (List.prefix_append before [last]))
      obtain ⟨message, built, rfl, represents⟩ := ih
        (fun call member => typed call (List.mem_append_left _ member)) (by omega)
      rw [entriesOf_concat] at short ⊢
      obtain ⟨outcome, next, set, same, represented, _⟩ := setForName_represents loaded represents
        (typed last (by simp)) short
      exact ⟨next, build_concat built set, same, represented⟩

end Building

-----------------------------------------------------------------------------------------
-- The round trip
-----------------------------------------------------------------------------------------

/-- Building a message with typed setters works, up to the sign of zero and NaNs. -/
theorem roundTrips {spec : Spec} (loaded : spec.Loaded) {name : String}
    {specMessage : SpecMessage} (listed : spec.messageWithName name = some specMessage)
    {calls : List Call} (typed : ∀ call ∈ calls, call.Typed spec)
    (short : headerSize + (encodeAll (entriesOf spec calls)).length < 2 ^ 32)
    : RoundTrips spec name calls P7Value.readBack where
  layout := by
    intro before earlier
    have grows := encodeAll_length_le (prefix_entriesOf spec earlier)
    obtain ⟨message, built, _, represents⟩ := build_represents loaded listed
      (fun call member => typed call (earlier.subset member)) (by omega)
    exact ⟨message, built, represents.wellFormed⟩
  setters := by
    intro before call earlier
    have grows := encodeAll_length_le (prefix_entriesOf spec earlier)
    have grown := encodeAll_length_le
      (prefix_entriesOf spec (List.prefix_append before [call]))
    have typedBefore : ∀ other ∈ before, other.Typed spec := fun other member =>
      typed other (earlier.subset (List.mem_append_left _ member))
    obtain ⟨message, built, rfl, represents⟩ := build_represents loaded listed typedBefore
      (by omega)
    rw [entriesOf_concat] at grows
    obtain ⟨outcome, next, set, _, _, succeeds, fails⟩ := setForName_represents loaded represents
      (typed call (earlier.subset (by simp))) (by omega)
    refine ⟨message, outcome, next, built, set, ?_, fails⟩
    rw [succeeds]
    refine and_congr_right fun known => ?_
    rw [mem_names_entriesOf loaded known]
    simp
  getters := by
    rintro before call after rfl known first
    obtain ⟨field, found⟩ := Option.isSome_iff_exists.mp known
    obtain ⟨message, built, rfl, represents⟩ := build_represents loaded listed typed short
    have got := represents.getForName (mem_entriesOf loaded found first)
    rw [(loaded.fieldWithName found).1] at got
    exact ⟨message, built, got⟩

/-- Builds a message and reads a field of it. -/
def buildAndGet (spec : Spec) (name : String) (calls : List Call) (type : P7Type)
    (fieldName : String)
    : Access (Outcome P7Value) := do
  match ← build spec name calls with
  | .error failure => .ok (.error failure)
  | .ok message => message.getForName type fieldName

/-- A round trip reads back the first value of a field. -/
theorem RoundTrips.buildAndGet {spec : Spec} {name : String} {kept : P7Value → P7Value}
    (before : List Call) {after : List Call} {call : Call}
    (trips : RoundTrips spec name (before ++ call :: after) kept)
    (known : (spec.fieldWithName call.fieldName).isSome)
    (first : ∀ earlier ∈ before, earlier.fieldName ≠ call.fieldName)
    : buildAndGet spec name (before ++ call :: after) call.value.type call.fieldName
      = .ok (.ok (kept call.value)) := by
  obtain ⟨message, built, got⟩ := trips.getters rfl known first
  simp only [P7.buildAndGet, built, got, bind, Except.bind]

/-- A document with a double, a 32-bit type of two bytes, two ids that share their lower half and
a list without a list type.
-/
def unusualDocument : XmlNode :=
  .element "protocol" [("name", "Unusual"), ("version", "1.0")]
    [
      .element "types" [] [typeNode "narrow" "3" (some "2")],
      .element "fields" []
        [
          fieldNode "number" "double" "1001" [],
          fieldNode "narrow" "narrow" "1002" [],
          fieldNode "low" "bool" "1003" [],
          fieldNode "high" "bool" "4294968299" [],
          fieldNode "strings" "list" "1004" []
        ]
    ]

/-- What the loader makes of the unusual document. -/
@[irreducible] def unusualSpec : Spec :=
  match loadSpec (some builtinSpec) .both unusualDocument with
  | .ok spec => spec
  | .error _ => builtinSpec

/-- The unusual document loads. -/
theorem unusualSpec_loaded : unusualSpec.Loaded := by
  have loads : (loadSpec (some builtinSpec) .both unusualDocument).isOk = true := by
    decide +kernel
  have loaded : loadSpec (some builtinSpec) .both unusualDocument = .ok unusualSpec := by
    unfold unusualSpec
    obtain ⟨spec, loaded⟩ := Fallible.exists_ok_of_isOk loads
    rw [loaded]
  exact .document loaded

/-- The type of a call is the type of its field. -/
abbrev Call.OwnType (spec : Spec) (call : Call) : Prop :=
  (spec.fieldWithName call.fieldName).map (·.type.id) = some call.value.type.id

/-- A negative zero. -/
def setNumber : Call where
  fieldName := "number"
  value := .double (Binary64.decode 0x8000000000000000)

/-- A 32-bit number in a field of two bytes. -/
def setNarrow : Call where
  fieldName := "narrow"
  value := .int32 1

/-- A field with a small id. -/
def setLow : Call where
  fieldName := "low"
  value := .bool true

/-- A field whose id has the same lower half. -/
def setHigh : Call where
  fieldName := "high"
  value := .bool false

/-- A list in a field without a list type. -/
def setStrings : Call where
  fieldName := "strings"
  value := .list []

/-- Building does not round-trip a negative zero, a field whose type has another size than the
protocol gives it, two ids with one lower half or a list without a list type.
-/
theorem not_roundTrips_unusual
    : unusualSpec.Loaded
      ∧ (unusualSpec.messageWithName "p7.handshake.acknowledge").isSome
      ∧ (∀ call ∈ [setNumber, setNarrow, setLow, setHigh, setStrings], call.OwnType unusualSpec)
      ∧ ¬RoundTrips unusualSpec "p7.handshake.acknowledge" [setNumber] id
      ∧ ¬RoundTrips unusualSpec "p7.handshake.acknowledge" [setNarrow, setLow] id
      ∧ ¬RoundTrips unusualSpec "p7.handshake.acknowledge" [setLow, setHigh] id
      ∧ ¬RoundTrips unusualSpec "p7.handshake.acknowledge" [setStrings] id := by
  obtain ⟨listed, types, number, narrow, high, strings⟩ :
      (unusualSpec.messageWithName "p7.handshake.acknowledge").isSome
        ∧ (∀ call ∈ [setNumber, setNarrow, setLow, setHigh, setStrings], call.OwnType unusualSpec)
        ∧ buildAndGet unusualSpec "p7.handshake.acknowledge" [setNumber] .double "number"
          = .ok (.ok (.double (.finite false 0)))
        ∧ buildAndGet unusualSpec "p7.handshake.acknowledge" [setNarrow, setLow] .int32 "narrow"
          = .ok (.ok (.int32 0))
        ∧ buildAndGet unusualSpec "p7.handshake.acknowledge" [setLow, setHigh] .bool "high"
          = .ok (.ok (.bool true))
        ∧ buildAndGet unusualSpec "p7.handshake.acknowledge" [setStrings] .list "strings"
          = .error .nullPointer := by
    decide +kernel
  have known {call : Call} (own : call.OwnType unusualSpec)
      : (unusualSpec.fieldWithName call.fieldName).isSome := by
    rw [← Option.isSome_map, own]
    rfl
  have negativeZero : Binary64.decode 0x8000000000000000 = .finite true 0 := by decide +kernel
  refine ⟨unusualSpec_loaded, listed, types, ?_, ?_, ?_, ?_⟩
  · intro trips
    have got := trips.buildAndGet [] (known (types setNumber (by simp))) (by simp)
    rw [List.nil_append] at got
    have differs := number.symm.trans got
    simp [setNumber, negativeZero] at differs
  · intro trips
    have got := trips.buildAndGet [] (known (types setNarrow (by simp))) (by simp)
    have differs := narrow.symm.trans got
    simp [setNarrow] at differs
  · intro trips
    have got := trips.buildAndGet [setLow] (known (types setHigh (by simp)))
      (by simp [setLow, setHigh])
    have differs := high.symm.trans got
    simp [setHigh] at differs
  · intro trips
    have got := trips.buildAndGet [] (known (types setStrings (by simp))) (by simp)
    have differs := strings.symm.trans got
    simp at differs

/-- Witness: building a client handshake with its version. -/
theorem roundTrips_clientHandshake
    : RoundTrips builtinSpec "p7.handshake.client_handshake"
      [{ fieldName := "p7.handshake.version", value := .string [49, 46, 48] }]
      P7Value.readBack := by
  obtain ⟨listed, id, typed, sized⟩ :
      (builtinSpec.messageWithName "p7.handshake.client_handshake").isSome
        ∧ (builtinSpec.fieldWithName "p7.handshake.version").map (·.id) = some 1
        ∧ (builtinSpec.fieldWithName "p7.handshake.version").map (·.type.id)
          = some P7Type.string.id
        ∧ (builtinSpec.fieldWithName "p7.handshake.version").map (·.size) = some 0 := by
    decide +kernel
  obtain ⟨specMessage, listed⟩ := Option.isSome_iff_exists.mp listed
  refine roundTrips .builtin listed ?_ ?_
  · intro call member field found
    cases List.mem_singleton.mp member
    simp only [found, Option.map_some, Option.some.injEq] at id typed sized
    exact ⟨by rw [id]; decide, typed, by rw [sized]; rfl, by simp [P7Value.type], trivial⟩
  · decide +kernel

end WiredServer.P7
