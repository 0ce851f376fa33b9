import Mathlib
import WiredServer.P7.MessageLayout
import WiredServer.P7.SpecConsistency

/-! Which received messages can be read without leaving their buffer.
The readers trust every length of the sender, so an access leaves the buffer for many
messages. The exact condition says which ones are safe: the plain walk over the fields stays
inside the message, and every value that a lookup can return lies inside it too.
-/

namespace WiredServer.P7

open Loop

-----------------------------------------------------------------------------------------
-- Values
-----------------------------------------------------------------------------------------

/-- The bytes that the getter of a type of fixed size decodes. -/
def P7Type.width : P7Type → ℕ
  | .bool => 1
  | .enum | .int32 | .uint32 => 4
  | .int64 | .uint64 | .double | .date | .oobdata => 8
  | .uuid => 16
  | .string | .data | .list => 0

/-- The elements of a list value from an offset on, each with its length in front. -/
inductive Elements (buffer : Bytes.Block) (position : ℕ) (size : UInt32)
    : UInt32 → List Bytes.Block → Prop where
  | done {offset : UInt32} (ended : size ≤ offset) : Elements buffer position size offset []
  | next {offset length : UInt32} {item : Bytes.Block} {items : List Bytes.Block}
      (within : offset < size)
      (prefixed : Bytes.read32 buffer (position + offset.toNat) = some length)
      (found : Bytes.slice buffer (position + (offset + 4).toNat) (length - 1).toNat = some item)
      (rest : Elements buffer position size (offset + 4 + length) items)
      : Elements buffer position size offset (item :: items)

/-- What the getter of a type reads for a value lies inside the buffer. -/
def Decodable (buffer : Bytes.Block) (type : P7Type) (listtype : Option SpecType)
    (position : ℕ) (size : UInt32)
    : Prop :=
  match type with
  | .string => position + (size - 1).toNat ≤ buffer.length
  | .data => position + size.toNat ≤ buffer.length
  | .list => ∀ element, listtype = some element → element.id = P7Type.string.id
      → ∃ strings, Elements buffer position size 0 strings
  | type => position + type.width ≤ buffer.length

section Lists

variable {buffer : Bytes.Block} {position : ℕ} {size : UInt32}

/-- Every element takes at least four bytes of the buffer. -/
theorem Elements.length_le {offset : UInt32} {strings : List Bytes.Block}
    (elements : Elements buffer position size offset strings) (behind : 0 < position)
    (short : buffer.length < 2 ^ 32)
    : strings = [] ∨ position + offset.toNat + 4 * strings.length ≤ buffer.length := by
  induction elements with
  | done ended => exact .inl rfl
  | @next offset length item items within prefixed found rest ih =>
      right
      have lengthInside := Bytes.read32_inside prefixed
      have itemInside := (Bytes.slice_eq_some.mp found).1
      have bound := length.toNat_lt
      have four : (4 : UInt32).toNat = 4 := rfl
      have one : (1 : UInt32).toNat = 1 := rfl
      rw [UInt32.toNat_sub, UInt32.toNat_add, four, one] at itemInside
      rcases ih with rfl | remaining
      · simp
        omega
      · rw [UInt32.toNat_add, UInt32.toNat_add, four] at remaining
        rw [List.length_cons]
        omega

/-- The element loop collects the elements of a list value. -/
theorem run_listBody {offset : UInt32} {strings : List Bytes.Block} {fuel : ℕ}
    (elements : Elements buffer position size offset strings) (enough : strings.length < fuel)
    (list : List Bytes.Block)
    : run (Message.listBody buffer position size) fuel (offset, list) = .ok (list ++ strings) := by
  induction elements generalizing fuel list with
  | @done offset ended =>
      obtain ⟨fuel, rfl⟩ : ∃ rest, fuel = rest + 1 := ⟨fuel - 1, by omega⟩
      rw [List.append_nil]
      refine run_stop ?_
      simp only [Message.listBody, UInt32.not_lt.mpr ended, if_false]
  | @next offset length item items within prefixed found rest ih =>
      rw [List.length_cons] at enough
      obtain ⟨fuel, rfl⟩ : ∃ rest, fuel = rest + 1 := ⟨fuel - 1, by omega⟩
      have round : Message.listBody buffer position size (offset, list)
          = .ok (.again (offset + 4 + length, list ++ [item])) := by
        simp only [Message.listBody, within, if_true, prefixed, inside_some, bind, Except.bind,
          found]
      rw [run_again round, ih (by omega) _, List.append_assoc, List.singleton_append]

/-- An element loop that ended has read elements inside the buffer. -/
theorem elements_of_run {offset : UInt32} {list result : List Bytes.Block} {fuel : ℕ}
    (ended : run (Message.listBody buffer position size) fuel (offset, list) = .ok result)
    : ∃ strings, Elements buffer position size offset strings := by
  induction fuel generalizing offset list with
  | zero => cases ended
  | succ fuel ih =>
      obtain ⟨rest, same, turn⟩ := run_eq_ok ended
      cases same
      by_cases within : offset < size
      · simp only [Message.listBody, within, if_true] at turn
        cases prefixed : Bytes.read32 buffer (position + offset.toNat) with
        | none => simp [prefixed, bind, Except.bind] at turn
        | some length =>
            cases found : Bytes.slice buffer (position + (offset + 4).toNat) (length - 1).toNat with
            | none => simp only [prefixed, found, inside_some, inside_none, bind, Except.bind,
                reduceCtorEq, false_and, exists_false, or_self] at turn
            | some item =>
                simp only [prefixed, found, inside_some, bind, Except.bind, Except.ok.injEq,
                  reduceCtorEq, Turn.again.injEq, false_or, exists_eq_left'] at turn
                obtain ⟨strings, elements⟩ := ih turn
                exact ⟨item :: strings, .next within prefixed found elements⟩
      · exact ⟨[], .done (UInt32.not_lt.mp within)⟩

/-- The element loop returns exactly when the elements lie inside the buffer. -/
theorem returns_listBody (behind : 0 < position) (short : buffer.length < 2 ^ 32)
    : Returns (run (Message.listBody buffer position size) (buffer.length + 1) (0, []))
      ↔ ∃ strings, Elements buffer position size 0 strings := by
  constructor
  · rintro ⟨result, ended⟩
    exact elements_of_run ended
  · rintro ⟨strings, elements⟩
    refine ⟨_, run_listBody elements ?_ []⟩
    rcases elements.length_le behind short with rfl | bound
    · simp
    · omega

end Lists

-----------------------------------------------------------------------------------------
-- Getters
-----------------------------------------------------------------------------------------

section Getters

variable {message : Message} {name : String} {outcome : Outcome (ℕ × UInt32)}

/-- A read of a buffer returns exactly when it stays inside. -/
theorem returns_slice {buffer : Bytes.Block} {position count : ℕ}
    : Returns (inside (Bytes.slice buffer position count)) ↔ position + count ≤ buffer.length := by
  rw [returns_inside]
  constructor
  · rintro ⟨bytes, read⟩
    exact (Bytes.slice_eq_some.mp read).1
  · exact Bytes.slice_inside

/-- A getter of fixed size returns exactly when its value is inside the buffer. -/
theorem returns_getField {α : Type} {width : ℕ} {decode : Bytes.Block → α}
    (read : message.readingForName name = .ok outcome)
    : Returns (message.getField name width decode)
      ↔ ∀ position size, outcome = .ok (position, size)
        → position + width ≤ message.binaryBuffer.length := by
  unfold Message.getField
  rw [returns_bind_ok read]
  cases outcome with
  | error failure => simp
  | ok value =>
      obtain ⟨position, size⟩ := value
      rw [returns_map, returns_slice]
      simp

/-- The string getter returns exactly when all but the last declared byte is inside. -/
theorem returns_stringForName (read : message.readingForName name = .ok outcome)
    : Returns (message.stringForName name)
      ↔ ∀ position size, outcome = .ok (position, size)
        → position + (size - 1).toNat ≤ message.binaryBuffer.length := by
  unfold Message.stringForName
  rw [returns_bind_ok read]
  cases outcome with
  | error failure => simp
  | ok value =>
      obtain ⟨position, size⟩ := value
      rw [returns_map, returns_slice]
      simp

/-- The data getter returns exactly when all declared bytes are inside. -/
theorem returns_dataForName (read : message.readingForName name = .ok outcome)
    : Returns (message.dataForName name)
      ↔ ∀ position size, outcome = .ok (position, size)
        → position + size.toNat ≤ message.binaryBuffer.length := by
  unfold Message.dataForName
  rw [returns_bind_ok read]
  cases outcome with
  | error failure => simp
  | ok value =>
      obtain ⟨position, size⟩ := value
      rw [returns_map, returns_slice]
      simp

/-- The uuid getter returns exactly when its sixteen bytes are inside. -/
theorem returns_uuidForName (read : message.readingForName name = .ok outcome)
    : Returns (message.uuidForName name)
      ↔ ∀ position size, outcome = .ok (position, size)
        → position + 16 ≤ message.binaryBuffer.length := by
  unfold Message.uuidForName
  rw [returns_bind_ok read]
  cases outcome with
  | error failure => simp
  | ok value =>
      obtain ⟨position, size⟩ := value
      rw [returns_bind]
      constructor
      · rintro ⟨bytes, inside, _⟩ position' size' same
        cases same
        exact returns_slice.mp ⟨bytes, inside⟩
      · intro fits
        obtain ⟨bytes, inside⟩ := returns_slice.mpr (fits position size rfl)
        refine ⟨bytes, inside, ?_⟩
        cases sliced : Bytes.slice message.binaryBuffer position 16 with
        | none => simp [sliced] at inside
        | some found =>
            rw [sliced] at inside
            cases inside
            rw [dif_pos (Bytes.slice_eq_some.mp sliced).2.1]
            exact returns_ok _

/-- The list getter returns exactly when the field has a list type and, for lists of strings,
the elements are inside.
-/
theorem returns_listForName {field : SpecField}
    (named : message.spec.fieldWithName name = some field)
    (read : message.readingForName name = .ok outcome)
    (short : message.binaryBuffer.length < 2 ^ 32)
    (behind : ∀ position size, outcome = .ok (position, size) → 0 < position)
    : Returns (message.listForName name)
      ↔ field.listtype ≠ none ∧ ∀ position size, outcome = .ok (position, size)
        → Decodable message.binaryBuffer .list field.listtype position size := by
  unfold Message.listForName
  simp only [named]
  cases field.listtype with
  | none => simp
  | some element =>
      by_cases strings : element.id = P7Type.string.id
      · simp only [ne_eq, strings, not_true_eq_false, if_false, reduceCtorEq, not_false_eq_true,
          true_and]
        rw [returns_bind_ok read]
        cases outcome with
        | error failure => simp
        | ok value =>
            obtain ⟨position, size⟩ := value
            rw [returns_map, returns_listBody (behind position size rfl) short]
            simp [Decodable, strings]
      · simp [strings, Decodable]

/-- The getter of a type returns exactly when a list field has a list type and what the getter
decodes lies inside the buffer. Each case is the lemma about the getter of the type.
-/
theorem returns_getForName {type : P7Type} {field : SpecField}
    (named : message.spec.fieldWithName name = some field)
    (read : message.readingForName name = .ok outcome)
    (short : message.binaryBuffer.length < 2 ^ 32)
    (behind : ∀ position size, outcome = .ok (position, size) → 0 < position)
    : Returns (message.getForName type name)
      ↔ (type = .list → field.listtype ≠ none) ∧ ∀ position size, outcome = .ok (position, size)
        → Decodable message.binaryBuffer type field.listtype position size := by
  unfold Message.getForName
  cases type
  all_goals
    simp only [pure, Except.pure, returns_map, reduceCtorEq, false_imp_iff, true_and, forall_true_left,
      Message.getBoolForName, Message.getEnumForName, Message.getInt32ForName,
      Message.getUint32ForName, Message.getInt64ForName, Message.getUint64ForName,
      Message.getDoubleForName, Message.dateForName, Message.getOobdataForName,
      returns_getField read, returns_stringForName read, returns_dataForName read,
      returns_uuidForName read, returns_listForName named read short behind, Decodable,
      P7Type.width]

/-- Every getter returns for a name without a field. -/
theorem returns_getForName_missing {type : P7Type}
    (missing : message.spec.fieldWithName name = none)
    : Returns (message.getForName type name) := by
  have read : message.readingForName name = .ok (noIdForField name) := by
    simp only [Message.readingForName, missing]
  have list : message.listForName name = .ok (noIdForField name) := by
    simp only [Message.listForName, missing]
  unfold Message.getForName
  cases type
  all_goals
    simp only [pure, Except.pure, returns_map, Message.getBoolForName, Message.getEnumForName,
      Message.getInt32ForName, Message.getUint32ForName, Message.getInt64ForName,
      Message.getUint64ForName, Message.getDoubleForName, Message.dateForName,
      Message.getOobdataForName, returns_getField read, returns_stringForName read,
      returns_dataForName read, returns_uuidForName read, list, returns_ok]
  all_goals
    intro position size found
    cases found

end Getters

-----------------------------------------------------------------------------------------
-- The exact condition
-----------------------------------------------------------------------------------------

/-- A field that a specification lists, under its name or under its id. -/
def Spec.HasField (spec : Spec) (field : SpecField) : Prop :=
  (∃ name, spec.fieldWithName name = some field) ∨ ∃ id, spec.fieldWithId id = some field

/-- The readers of a received message stay inside its bytes: every lookup returns a value that
lies inside, and every typed getter and the loop over all fields return without a fault.
-/
structure ReadsInside (spec : Spec) (bytes : Bytes.Block) : Prop where
  lookups : ∀ {field}, spec.HasField field → ∃ outcome,
    (Message.received spec bytes).readingForName field.name = .ok outcome
      ∧ ∀ position size, outcome = .ok (position, size) → position + size.toNat ≤ bytes.length
  getters : ∀ {field type}, spec.HasField field → P7Type.ofId field.type.id = some type
    → Returns ((Message.received spec bytes).getForName type field.name)
  fields : Returns (Message.received spec bytes).fields

/-- The layout of a message lets its readers stay inside. The header is complete, the ids and
lengths of the plain walk are inside, and so is every value that is the first of its field
before any unknown id. A list field needs a list type, whatever the message is.
-/
structure Readable (spec : Spec) (bytes : Bytes.Block) : Prop where
  header : headerSize ≤ bytes.length
  listtypes : ∀ {field named}, spec.HasField field → P7Type.ofId field.type.id = some .list
    → spec.fieldWithName field.name = some named → named.listtype ≠ none
  values : ∃ items, Walk spec bytes 0 items
    ∧ ∀ {field named position size}, spec.HasField field
      → spec.fieldWithName field.name = some named
      → lookup named.id.toUInt32 items = .ok (position, size)
      → position + size.toNat ≤ bytes.length
        ∧ ∀ {type}, P7Type.ofId field.type.id = some type
          → Decodable bytes type named.listtype position size

/-- A message without a complete header is read past its end. -/
theorem not_returns_fields_of_short {spec : Spec} {bytes : Bytes.Block} (nonempty : bytes ≠ [])
    (cut : bytes.length < headerSize)
    : ¬Returns (Message.received spec bytes).fields := by
  have positive := List.length_pos_of_ne_nil nonempty
  have four : headerSize = 4 := rfl
  rintro ⟨all, ran⟩
  have below : UInt32.ofNat 0 < (Message.received spec bytes).binarySize - .ofNat headerSize := by
    have header : (UInt32.ofNat headerSize).toNat = 4 := rfl
    have size : (Message.received spec bytes).binarySize.toNat = bytes.length :=
      Message.received_binarySize spec (by omega)
    have start : (UInt32.ofNat 0).toNat = 0 := rfl
    rw [UInt32.lt_iff_toNat_lt, UInt32.toNat_sub, header, size, start]
    omega
  have outside : Bytes.read32 bytes (headerSize + 0) = none :=
    Bytes.read32_eq_none.mpr (by omega)
  have round : Message.skimBody spec bytes
      ((Message.received spec bytes).binarySize - .ofNat headerSize)
      (Message.received spec bytes).fieldsVisit (0, ∅) = .error .outside := by
    simp only [Message.skimBody, below, if_true, outside]
    rfl
  have faulted : (Message.received spec bytes).fields = .error .outside := run_fault round
  rw [faulted] at ran
  cases ran

/-- The readers of a message stay inside its bytes exactly when its layout lets them. -/
theorem readsInside_iff (spec : Spec) {bytes : Bytes.Block} (nonempty : bytes ≠ [])
    (short : bytes.length < 2 ^ 32)
    : ReadsInside spec bytes ↔ Readable spec bytes := by
  have buffer : (Message.received spec bytes).binaryBuffer = bytes := rfl
  have known : (Message.received spec bytes).spec = spec := rfl
  have getter {items : List Item} (header : headerSize ≤ bytes.length)
      (walk : Walk spec bytes 0 items) {field : SpecField} {type : P7Type} {named : SpecField}
      (found : spec.fieldWithName field.name = some named)
      : Returns ((Message.received spec bytes).getForName type field.name)
        ↔ (type = .list → named.listtype ≠ none)
          ∧ ∀ position size, lookup named.id.toUInt32 items = .ok (position, size)
            → Decodable bytes type named.listtype position size := by
    have framed := Message.received_framed spec header short
    have read := Message.readingForName_walk framed
      (by rwa [Message.received_bytes spec short]) field.name
    simp only [known, found] at read
    exact returns_getForName found read short fun position size same =>
      lt_of_lt_of_le (by decide) (walk.lookup_behind same)
  have size (header : headerSize ≤ bytes.length)
      : ((Message.received spec bytes).binarySize - .ofNat headerSize).toNat
        = bytes.length - headerSize := by
    rw [(Message.received_framed spec header short).messageSize, Message.received_bytes spec short]
  constructor
  · intro safe
    have header : headerSize ≤ bytes.length := by
      by_contra cut
      exact not_returns_fields_of_short nonempty (not_le.mp cut) safe.fields
    have framed := Message.received_framed spec header short
    obtain ⟨all, returned⟩ := safe.fields
    obtain ⟨items, walk⟩ := walk_of_skimBody (size header) returned
    refine ⟨header, ?_, items, walk, ?_⟩
    · intro field named listed isList found
      exact ((getter header walk found).mp (safe.getters listed isList)).1 rfl
    · intro field named position size listed found looked
      refine ⟨?_, fun isType => ((getter header walk found).mp
        (safe.getters listed isType)).2 position size looked⟩
      obtain ⟨outcome, read, inside⟩ := safe.lookups listed
      rw [Message.readingForName_walk framed (by rwa [Message.received_bytes spec short]), known, found]
        at read
      cases read
      exact inside position size looked
  · rintro ⟨header, listtypes, items, walk, values⟩
    have framed := Message.received_framed spec header short
    have getters {field : SpecField} {type : P7Type} (listed : spec.HasField field)
        (isType : P7Type.ofId field.type.id = some type)
        : Returns ((Message.received spec bytes).getForName type field.name) := by
      cases found : spec.fieldWithName field.name with
      | none => exact returns_getForName_missing found
      | some named =>
          refine (getter header walk found).mpr ⟨?_, ?_⟩
          · rintro rfl
            exact listtypes listed isType found
          · intro position size looked
            exact (values listed found looked).2 isType
    refine ⟨?_, getters, ?_⟩
    · intro field listed
      refine ⟨_, Message.readingForName_walk framed (by rwa [Message.received_bytes spec short]) _, ?_⟩
      intro position size same
      rw [known] at same
      cases found : spec.fieldWithName field.name with
      | none => simp [found, noIdForField] at same
      | some named =>
          rw [found] at same
          exact (values listed found same).1
    · have values : ∀ item ∈ items, ∀ all,
          Returns (visitItem (Message.received spec bytes).fieldsVisit all item) := by
        intro item member all
        cases item with
        | unknown id => exact returns_ok all
        | known field id position size =>
            have found := walk.known_found member
            refine returns_map.mpr ?_
            unfold Message.fieldValue
            cases isType : P7Type.ofId field.type.id with
            | none => exact returns_ok _
            | some type => exact returns_map.mpr (getters (.inr ⟨_, found⟩) isType)
      have enough : items.length < bytes.length + 1 := by
        rcases walk.length_le with rfl | bound
        · simp
        · omega
      have ran : Message.fields (Message.received spec bytes) = _ :=
        run_skimBody (size header) walk enough
      rw [ran]
      exact returns_foldlM values

/-- A client handshake whose version string claims a hundred bytes that are not there. -/
def truncatedHandshake : Bytes.Block :=
  [0, 0, 0, 1, 0, 0, 0, 1, 0, 0, 0, 100]

/-- The readers leave the buffer of a received message whose value is cut off. -/
theorem not_readsInside_truncatedHandshake : ¬ReadsInside builtinSpec truncatedHandshake := by
  intro safe
  have listed : (builtinSpec.fieldWithName "p7.handshake.version").isSome = true := by
    decide +kernel
  obtain ⟨field, found⟩ := Option.isSome_iff_exists.mp listed
  have named := (Spec.Loaded.builtin.fieldWithName found).1
  obtain ⟨outcome, read, inside⟩ := safe.lookups (.inl ⟨_, found⟩)
  have value : (Message.received builtinSpec truncatedHandshake).readingForName
      "p7.handshake.version" = .ok (.ok (12, 100)) := by
    decide +kernel
  rw [named, value] at read
  cases read
  exact absurd (inside 12 100 rfl) (by decide)

/-- Witness: the condition at a message without fields. -/
theorem readsInside_iff_authenticationError
    : ReadsInside builtinSpec [0, 0, 0, 7] ↔ Readable builtinSpec [0, 0, 0, 7] :=
  readsInside_iff builtinSpec (by simp) (by simp)

end WiredServer.P7
