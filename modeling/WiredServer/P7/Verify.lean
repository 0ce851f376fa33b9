import Mathlib
import WiredServer.P7.ReaderBounds

/-! The verification of received messages.
Verification counts the required parameters that its walk meets, once for every occurrence.
It says that each of them is present exactly when none is repeated, none stands behind an
unknown id and each has a value that its getter decodes.
-/

namespace WiredServer.P7

open Loop

-----------------------------------------------------------------------------------------
-- Verification
-----------------------------------------------------------------------------------------

/-- What the loop of `wi_p7_spec_verify_message` does with a field: it counts the required
parameters.
-/
def verifyVisit (specMessage : SpecMessage) (_field : SpecField) (fieldId : UInt32)
    (requiredParameters : ℕ)
    : Access ℕ :=
  match specMessage.parametersId.lookup fieldId.toUInt64 with
  | none => .ok requiredParameters
  | some parameter =>
      .ok (if parameter.required then requiredParameters + 1 else requiredParameters)

/-- `wi_p7_spec_verify_message`. The message is one of the specification itself, never a
builtin one.
-/
def Spec.verifyMessage (spec : Spec) (message : Message) : Access (Outcome Unit) := do
  match spec.messagesId.lookup message.binaryId.toUInt64 with
  | none =>
      .ok (.error (some
        ⟨.unknownMessage, s!"Message with id {message.binaryId} not recognized"⟩))
  | some specMessage =>
      let messageSize := message.binarySize - .ofNat headerSize
      let requiredParameters ←
        run (Message.skimBody spec message.binaryBuffer messageSize (verifyVisit specMessage))
          (message.binaryBuffer.length + 1) (0, 0)
      if requiredParameters ≠ specMessage.requiredParameters then
        .ok (.error (some ⟨.invalidMessage,
          s!"{requiredParameters} out of {specMessage.requiredParameters} required parameters in message \"{specMessage.name}\""⟩))
      else .ok (.ok ())

-----------------------------------------------------------------------------------------
-- Occurrences of required parameters
-----------------------------------------------------------------------------------------

/-- The item is a field of the specification. -/
def Item.isKnown : Item → Bool
  | .unknown _ => false
  | .known _ _ _ _ => true

/-- The id of the required parameter that an item is, if it is one. -/
def Item.required (specMessage : SpecMessage) : Item → Option UInt64
  | .unknown _ => none
  | .known _ id _ _ =>
      if id.toUInt64 ∈ specMessage.requiredIds then some id.toUInt64 else none

/-- The ids of the required parameters that a walk meets, once for every occurrence. -/
def occurrences (specMessage : SpecMessage) (items : List Item) : List UInt64 :=
  items.filterMap (Item.required specMessage)

section Occurrences

variable {specMessage : SpecMessage} {items : List Item}

/-- A visit of the verification adds one for a required parameter. -/
theorem visitItem_verifyVisit (item : Item) (count : ℕ)
    : visitItem (verifyVisit specMessage) count item
      = .ok (count + (item.required specMessage).toList.length) := by
  cases item with
  | unknown id => rfl
  | known field id position size =>
      simp only [visitItem, verifyVisit, Item.required, SpecMessage.mem_requiredIds]
      cases specMessage.parametersId.lookup id.toUInt64 with
      | none => simp
      | some parameter => cases required : parameter.required <;> simp [required]

/-- The loop of the verification counts the occurrences, by list induction. -/
theorem foldlM_verifyVisit (count : ℕ)
    : items.foldlM (visitItem (verifyVisit specMessage)) count
      = .ok (count + (occurrences specMessage items).length) := by
  induction items generalizing count with
  | nil => rfl
  | cons item rest ih =>
      rw [List.foldlM_cons, visitItem_verifyVisit]
      change List.foldlM _ _ rest = _
      rw [ih, occurrences, occurrences, List.filterMap_cons]
      cases item.required specMessage with
      | none => rfl
      | some id =>
          simp only [Option.toList_some, List.length_cons, List.length_nil]
          congr 1
          omega

/-- An id occurs when it is required and a known item carries it. -/
theorem mem_occurrences {id : UInt64}
    : id ∈ occurrences specMessage items
      ↔ id ∈ specMessage.requiredIds
        ∧ ∃ field wireId position size, .known field wireId position size ∈ items
          ∧ wireId.toUInt64 = id := by
  rw [occurrences, List.mem_filterMap]
  constructor
  · rintro ⟨item, member, required⟩
    cases item with
    | unknown other => cases required
    | known field wireId position size =>
        rw [Item.required, Option.ite_none_right_eq_some] at required
        obtain ⟨listed, same⟩ := required
        cases same
        exact ⟨listed, field, wireId, position, size, member, rfl⟩
  · rintro ⟨listed, field, wireId, position, size, member, rfl⟩
    exact ⟨_, member, if_pos listed⟩

/-- The occurrences before the first unknown id and those behind it are all occurrences. -/
theorem occurrences_split (specMessage : SpecMessage) (items : List Item)
    : occurrences specMessage (items.takeWhile Item.isKnown)
        ++ occurrences specMessage (items.dropWhile Item.isKnown)
      = occurrences specMessage items := by
  rw [occurrences, occurrences, ← List.filterMap_append, List.takeWhile_append_dropWhile]
  rfl

/-- A lookup finds an id iff a known item carries it before the first unknown id. -/
theorem lookup_found {id : UInt32}
    : (∃ value, lookup id items = .ok value)
      ↔ ∃ field position size, .known field id position size ∈ items.takeWhile Item.isKnown := by
  induction items with
  | nil => simp [lookup]
  | cons item rest ih =>
      cases item with
      | unknown other => simp [lookup, noFieldForId, Item.isKnown]
      | known field other position size =>
          by_cases same : other = id
          · subst same
            simp only [lookup, if_true, List.takeWhile_cons, Item.isKnown]
            exact ⟨fun _ => ⟨field, position, size, .head _⟩, fun _ => ⟨_, rfl⟩⟩
          · simp only [lookup, same, if_false, ih, List.takeWhile_cons, Item.isKnown, if_true,
              List.mem_cons, Item.known.injEq]
            constructor
            · rintro ⟨found, position, size, member⟩
              exact ⟨found, position, size, .inr member⟩
            · rintro ⟨found, position, size, ⟨_, same', _⟩ | member⟩
              · exact absurd same'.symm same
              · exact ⟨found, position, size, member⟩

end Occurrences

-----------------------------------------------------------------------------------------
-- Values of lookups
-----------------------------------------------------------------------------------------

section Yields

variable {message : Message} {name : String}

/-- Changing a value keeps whether there is one. -/
theorem yields_map {α β : Type} {outcome : Outcome α} {change : α → β}
    : (∃ value, outcome.map change = .ok value) ↔ ∃ value, outcome = .ok value := by
  cases outcome <;> simp [Except.map]

/-- A getter of fixed size that returns for a found field returns a value. -/
theorem yields_getField {α : Type} {width : ℕ} {decode : Bytes.Block → α} {found : ℕ × UInt32}
    {outcome : Outcome α} (read : message.readingForName name = .ok (.ok found))
    (ran : message.getField name width decode = .ok outcome)
    : ∃ value, outcome = .ok value := by
  simp only [Message.getField, read, Fallible.bind_eq_ok, Except.ok.injEq, exists_eq_left'] at ran
  obtain ⟨bytes, _, rfl⟩ := ran
  exact ⟨_, rfl⟩

/-- The string getter that returns for a found field returns a value. -/
theorem yields_stringForName {found : ℕ × UInt32} {outcome : Outcome Bytes.Block}
    (read : message.readingForName name = .ok (.ok found))
    (ran : message.stringForName name = .ok outcome)
    : ∃ value, outcome = .ok value := by
  simp only [Message.stringForName, read, Fallible.bind_eq_ok, Except.ok.injEq, exists_eq_left']
    at ran
  obtain ⟨bytes, _, rfl⟩ := ran
  exact ⟨_, rfl⟩

/-- The data getter that returns for a found field returns a value. -/
theorem yields_dataForName {found : ℕ × UInt32} {outcome : Outcome Bytes.Block}
    (read : message.readingForName name = .ok (.ok found))
    (ran : message.dataForName name = .ok outcome)
    : ∃ value, outcome = .ok value := by
  simp only [Message.dataForName, read, Fallible.bind_eq_ok, Except.ok.injEq, exists_eq_left']
    at ran
  obtain ⟨bytes, _, rfl⟩ := ran
  exact ⟨_, rfl⟩

/-- The uuid getter that returns for a found field returns a value. -/
theorem yields_uuidForName {found : ℕ × UInt32} {outcome : Outcome Uuid}
    (read : message.readingForName name = .ok (.ok found))
    (ran : message.uuidForName name = .ok outcome)
    : ∃ value, outcome = .ok value := by
  simp only [Message.uuidForName, read, Fallible.bind_eq_ok, Except.ok.injEq, exists_eq_left']
    at ran
  obtain ⟨bytes, _, ran⟩ := ran
  split at ran <;> cases ran
  exact ⟨_, rfl⟩

/-- The list getter that returns for a found field returns a value iff the list type of the
field is the one of strings.
-/
theorem yields_listForName {field : SpecField} {found : ℕ × UInt32}
    {outcome : Outcome (List Bytes.Block)}
    (named : message.spec.fieldWithName name = some field)
    (read : message.readingForName name = .ok (.ok found))
    (ran : message.listForName name = .ok outcome)
    : (∃ value, outcome = .ok value)
      ↔ ∃ element, field.listtype = some element ∧ element.id = P7Type.string.id := by
  unfold Message.listForName at ran
  simp only [named] at ran
  cases listed : field.listtype with
  | none => simp [listed] at ran
  | some element =>
      simp only [listed] at ran
      by_cases strings : element.id = P7Type.string.id
      · simp only [ne_eq, strings, not_true_eq_false, if_false, read, Fallible.bind_eq_ok,
          Except.ok.injEq, exists_eq_left'] at ran
        obtain ⟨list, _, rfl⟩ := ran
        simp [strings]
      · rw [if_pos strings] at ran
        cases ran
        simp [strings]

/-- The getter of a type that returns for a found field returns a value, except for lists of
anything but strings.
-/
theorem yields_getForName {type : P7Type} {field : SpecField} {found : ℕ × UInt32}
    {outcome : Outcome P7Value} (named : message.spec.fieldWithName name = some field)
    (read : message.readingForName name = .ok (.ok found))
    (ran : message.getForName type name = .ok outcome)
    : (∃ value, outcome = .ok value)
      ↔ (type = .list
        → ∃ element, field.listtype = some element ∧ element.id = P7Type.string.id) := by
  unfold Message.getForName at ran
  cases type
  all_goals
    simp only [pure, Except.pure, Fallible.bind_eq_ok, Except.ok.injEq] at ran
    obtain ⟨inner, got, rfl⟩ := ran
    rw [yields_map]
  case list => simpa using yields_listForName named read got
  case string => simpa using yields_stringForName read got
  case data => simpa using yields_dataForName read got
  case uuid => simpa using yields_uuidForName read got
  case enum | uint32 | uint64 =>
    obtain ⟨raw, field, same⟩ := Fallible.bind_eq_ok.mp got
    cases same
    simpa [yields_map] using yields_getField read field
  all_goals simpa using yields_getField read got

end Yields

-----------------------------------------------------------------------------------------
-- Soundness
-----------------------------------------------------------------------------------------

/-- The reader finds a field under its id, and its typed getter returns a value. -/
structure Message.Presents (message : Message) (field : SpecField) : Prop where
  found : ∃ id : UInt32, id.toUInt64 = field.id
    ∧ ∃ value, message.readingForId id = .ok (.ok value)
  decoded : ∃ type, P7Type.ofId field.type.id = some type
    ∧ ∃ value, message.getForName type field.name = .ok (.ok value)

/-- Every required parameter of a message is present in it. -/
def Message.PresentsRequired (message : Message) (specMessage : SpecMessage) : Prop :=
  ∀ {id parameter}, specMessage.parametersId.lookup id = some parameter
    → parameter.required = true → message.Presents parameter.field

/-- The layout of a message lets the count of required parameters speak for each of them: none
is repeated, none stands behind an unknown id, and the first value of each lies inside the
message and has a type that its getter decodes.
-/
structure Countable (spec : Spec) (bytes : Bytes.Block) (specMessage : SpecMessage)
    (items : List Item)
    : Prop where
  walk : Walk spec bytes 0 items
  once : (occurrences specMessage items).Nodup
  reachable : occurrences specMessage (items.dropWhile Item.isKnown) = []
  values : ∀ {id parameter position size}, specMessage.parametersId.lookup id = some parameter
    → parameter.required = true
    → lookup parameter.field.id.toUInt32 items = .ok (position, size)
    → ∃ type, P7Type.ofId parameter.field.type.id = some type
      ∧ Decodable bytes type parameter.field.listtype position size
      ∧ (type = .list → ∃ element, parameter.field.listtype = some element
        ∧ element.id = P7Type.string.id)

/-- A message of a loaded specification has its parameters in order. -/
theorem Spec.Loaded.parameters {spec : Spec} (loaded : spec.Loaded) {id : UInt64}
    {specMessage : SpecMessage} (found : spec.messagesId.lookup id = some specMessage)
    : specMessage.Consistent spec.fieldWithName := by
  cases loaded with
  | builtin =>
      refine (builtinSpec_consistent.parameters
        (builtinSpec_consistent.messages.numbered found).2).mono ?_
      intro name field resolved
      simpa [Spec.fieldWithName, resolveField] using resolved
  | document loaded =>
      have consistent := loadSpec_consistent
        (by rintro _ ⟨⟩; exact builtinSpec_consistent.fields) loaded
      refine (consistent.parameters (consistent.messages.numbered found).2).mono ?_
      intro name field resolved
      simpa [Spec.fieldWithName, resolveField] using resolved

section Accepted

variable {spec : Spec} {bytes : Bytes.Block} {message : Message} {specMessage : SpecMessage}

/-- Reading the id of a received message needs its header and changes nothing else. -/
theorem Message.deserialize_received (read : (received spec bytes).deserialize = .ok message)
    : message.spec = spec ∧ message.binaryBuffer = bytes
      ∧ message.binarySize = .ofNat bytes.length ∧ headerSize ≤ bytes.length := by
  unfold Message.deserialize at read
  obtain ⟨binaryId, first, read⟩ := Fallible.bind_eq_ok.mp read
  have header : headerSize ≤ bytes.length := by
    cases word : Bytes.read32 (received spec bytes).binaryBuffer 0 with
    | none => simp [word] at first
    | some other => exact Bytes.read32_inside word
  split at read <;> cases read <;> exact ⟨rfl, rfl, rfl, header⟩

/-- A received message is framed by its bytes. -/
theorem Message.deserialize_framed (short : bytes.length < 2 ^ 32)
    (read : (received spec bytes).deserialize = .ok message)
    : message.Framed ∧ message.bytes = bytes := by
  obtain ⟨_, buffer, size, header⟩ := deserialize_received read
  have framed := received_framed spec header short
  have same := received_bytes spec short
  refine ⟨⟨?_, ?_⟩, ?_⟩
  · rw [size]
    exact framed.header
  · rw [size, buffer]
    exact framed.allocated
  · rw [Message.bytes, size, buffer]
    exact same

/-- An accepted message has a walk, and every walk of it meets as many required parameters as
there are.
-/
theorem walk_of_accepted (short : bytes.length < 2 ^ 32)
    (read : (Message.received spec bytes).deserialize = .ok message)
    (listed : spec.messagesId.lookup message.binaryId.toUInt64 = some specMessage)
    (accepted : spec.verifyMessage message = .ok (.ok ()))
    : (∃ items, Walk spec bytes 0 items)
      ∧ ∀ {items}, Walk spec bytes 0 items
        → (occurrences specMessage items).length = specMessage.requiredParameters := by
  obtain ⟨_, buffer, _, _⟩ := Message.deserialize_received read
  obtain ⟨framed, same⟩ := Message.deserialize_framed short read
  have size := framed.messageSize
  rw [same] at size
  simp only [Spec.verifyMessage, listed, buffer, Fallible.bind_eq_ok] at accepted
  obtain ⟨count, counted, accepted⟩ := accepted
  split at accepted
  · cases accepted
  · rename_i exact
    refine ⟨walk_of_skimBody size counted, ?_⟩
    intro items walk
    have enough : items.length < bytes.length + 1 := by
      rcases walk.length_le with rfl | bound
      · simp
      · omega
    rw [run_skimBody size walk enough, foldlM_verifyVisit, Nat.zero_add] at counted
    cases counted
    simpa using exact

/-- A parameter that is found under its id occurs before every unknown id. -/
theorem mem_occurrences_of_found {items : List Item} (framed : message.Framed)
    (walk : Walk message.spec message.bytes 0 items) {id : UInt32}
    (required : id.toUInt64 ∈ specMessage.requiredIds) {value : ℕ × UInt32}
    (found : message.readingForId id = .ok (.ok value))
    : id.toUInt64 ∈ occurrences specMessage (items.takeWhile Item.isKnown) := by
  rw [Message.readingForId_walk framed walk] at found
  cases looked : lookup id items with
  | error failure => simp [looked] at found
  | ok other =>
      obtain ⟨field, position, size, member⟩ := lookup_found.mp ⟨other, looked⟩
      exact mem_occurrences.mpr ⟨required, field, id, position, size, member, rfl⟩

/-- When every required id occurs before the unknown ids and the occurrences are as many as the
required ids, each of them occurs once and none occurs elsewhere.
-/
theorem occurrences_of_covered {items : List Item}
    (count : (occurrences specMessage items).length = specMessage.requiredIds.length)
    (covered : specMessage.requiredIds
      ⊆ occurrences specMessage (items.takeWhile Item.isKnown))
    : (occurrences specMessage items).Nodup
      ∧ occurrences specMessage (items.dropWhile Item.isKnown) = [] := by
  have distinct := specMessage.requiredIds_nodup
  have subperm := List.subperm_of_subset distinct covered
  have split := occurrences_split specMessage items
  have behind : occurrences specMessage (items.dropWhile Item.isKnown) = [] := by
    have total := congrArg List.length split
    have atLeast := subperm.length_le
    rw [List.length_append, count] at total
    exact List.length_eq_zero_iff.mp (by omega)
  refine ⟨?_, behind⟩
  rw [behind, List.append_nil] at split
  rw [split] at subperm
  exact (subperm.perm_of_length_le count.le).nodup_iff.mp distinct

/-- When the occurrences are distinct and as many as the required ids, every required id
occurs.
-/
theorem covered_of_occurrences {items : List Item}
    (count : (occurrences specMessage items).length = specMessage.requiredIds.length)
    (once : (occurrences specMessage items).Nodup)
    : specMessage.requiredIds ⊆ occurrences specMessage items := by
  have listed : occurrences specMessage items ⊆ specMessage.requiredIds := fun id member =>
    (mem_occurrences.mp member).1
  exact ((List.subperm_of_subset once listed).perm_of_length_le count.ge).symm.subset

/-- The reader finds every required parameter of a countable message. -/
theorem found_of_countable {items : List Item} (framed : message.Framed) (known : message.spec = spec)
    (same : message.bytes = bytes) (countable : Countable spec bytes specMessage items)
    (count : (occurrences specMessage items).length = specMessage.requiredIds.length)
    {id : UInt64} (required : id ∈ specMessage.requiredIds)
    : ∃ wireId : UInt32, wireId.toUInt64 = id
      ∧ ∃ value, lookup wireId items = .ok value ∧ message.readingForId wireId = .ok (.ok value) := by
  have split := occurrences_split specMessage items
  rw [countable.reachable, List.append_nil] at split
  have member := covered_of_occurrences count countable.once required
  rw [← split] at member
  obtain ⟨_, field, wireId, position, size, before, rfl⟩ := mem_occurrences.mp member
  obtain ⟨value, looked⟩ := lookup_found.mpr ⟨field, position, size, before⟩
  refine ⟨wireId, rfl, value, looked, ?_⟩
  rw [Message.readingForId_walk framed (by rw [known, same]; exact countable.walk), looked]

/-- An accepted message presents every required parameter exactly when its layout lets the
count speak for each of them.
-/
theorem presentsRequired_iff (loaded : spec.Loaded) (short : bytes.length < 2 ^ 32)
    (read : (Message.received spec bytes).deserialize = .ok message)
    (listed : spec.messagesId.lookup message.binaryId.toUInt64 = some specMessage)
    (accepted : spec.verifyMessage message = .ok (.ok ()))
    : message.PresentsRequired specMessage ↔ ∃ items, Countable spec bytes specMessage items := by
  obtain ⟨known, buffer, _, _⟩ := Message.deserialize_received read
  obtain ⟨framed, same⟩ := Message.deserialize_framed short read
  obtain ⟨⟨items, walk⟩, counted⟩ := walk_of_accepted short read listed accepted
  have consistent := loaded.parameters listed
  rw [consistent.counted] at counted
  have named {id : UInt64} {parameter : SpecParameter}
      (held : specMessage.parametersId.lookup id = some parameter)
      : message.spec.fieldWithName parameter.field.name = some parameter.field := by
    rw [known]
    exact consistent.known (consistent.tables.numbered held).2
  have walked {items : List Item} (walk : Walk spec bytes 0 items)
      : Walk message.spec message.bytes 0 items := by
    rwa [known, same]
  have getter {items : List Item} (walk : Walk spec bytes 0 items) {id : UInt64}
      {parameter : SpecParameter} (held : specMessage.parametersId.lookup id = some parameter)
      {position : ℕ} {size : UInt32}
      (looked : lookup parameter.field.id.toUInt32 items = .ok (position, size))
      (type : P7Type)
      : (∃ value, message.getForName type parameter.field.name = .ok (.ok value))
        ↔ Decodable bytes type parameter.field.listtype position size
          ∧ (type = .list → ∃ element, parameter.field.listtype = some element
            ∧ element.id = P7Type.string.id) := by
    have read := Message.readingForName_walk framed (walked walk) parameter.field.name
    simp only [named held, looked] at read
    have behind (place : ℕ) (length : UInt32)
        (same : (Except.ok (position, size) : Outcome (ℕ × UInt32)) = .ok (place, length))
        : 0 < place :=
      lt_of_lt_of_le (by decide) ((walked walk).lookup_behind (looked.trans same))
    have returns : Returns (message.getForName type parameter.field.name) ↔ _ :=
      returns_getForName (named held) read (by rwa [buffer]) behind
    rw [buffer] at returns
    constructor
    · rintro ⟨value, got⟩
      exact ⟨(returns.mp ⟨_, got⟩).2 position size rfl,
        (yields_getForName (named held) read got).mp ⟨value, rfl⟩⟩
    · rintro ⟨decodes, strings⟩
      have typed : type = .list → parameter.field.listtype ≠ none := by
        intro list
        obtain ⟨element, listed, _⟩ := strings list
        rw [listed]
        exact Option.some_ne_none element
      obtain ⟨outcome, got⟩ := returns.mpr ⟨typed, by rintro _ _ ⟨⟩; exact decodes⟩
      obtain ⟨value, rfl⟩ := (yields_getForName (named held) read got).mpr strings
      exact ⟨value, got⟩
  constructor
  · intro present
    have covered : specMessage.requiredIds
        ⊆ occurrences specMessage (items.takeWhile Item.isKnown) := by
      intro id required
      obtain ⟨parameter, held, marked⟩ := SpecMessage.mem_requiredIds.mp required
      obtain ⟨wireId, sameId, value, found⟩ := (present held marked).found
      have keyed : parameter.field.id = id := (consistent.tables.numbered held).1
      rw [← keyed, ← sameId] at required ⊢
      exact mem_occurrences_of_found framed (walked walk) required found
    obtain ⟨once, reachable⟩ := occurrences_of_covered (counted walk) covered
    refine ⟨items, walk, once, reachable, ?_⟩
    intro id parameter position size held marked looked
    obtain ⟨type, isType, decoded⟩ := (present held marked).decoded
    exact ⟨type, isType, (getter walk held looked type).mp decoded⟩
  · rintro ⟨items, countable⟩ id parameter held marked
    have walk := countable.walk
    have keyed : parameter.field.id = id := (consistent.tables.numbered held).1
    obtain ⟨wireId, sameId, ⟨position, size⟩, looked, found⟩ :=
      found_of_countable framed known same countable (counted walk)
        (SpecMessage.mem_requiredIds.mpr ⟨parameter, held, marked⟩)
    have wire : parameter.field.id.toUInt32 = wireId := by
      rw [keyed, ← sameId]
      exact UInt32.toUInt32_toUInt64 wireId
    rw [← wire] at looked
    obtain ⟨type, isType, decodes⟩ := countable.values held marked looked
    exact ⟨⟨wireId, by rw [sameId, keyed], _, found⟩,
      type, isType, (getter walk held looked type).mpr decodes⟩

end Accepted

/-- Reading a received message stores its id, and its name when the specification knows it. -/
theorem deserialize_of_listed {spec : Spec} {bytes : Bytes.Block} (binaryId : UInt32)
    {specMessage : SpecMessage} (word : Bytes.read32 bytes 0 = some binaryId)
    (listed : spec.messagesId.lookup binaryId.toUInt64 = some specMessage)
    : (Message.received spec bytes).deserialize
      = .ok { Message.received spec bytes with binaryId, name := some specMessage.name } := by
  have known : spec.messageWithId binaryId.toUInt64 = some specMessage := by
    rw [Spec.messageWithId, listed, Option.some_or]
  simp only [Message.deserialize, Message.received, word, inside_some, bind, Except.bind, known]

/-- A client handshake that repeats its empty version three times and has nothing else. -/
def repeatedVersion : Bytes.Block :=
  [0, 0, 0, 1,
    0, 0, 0, 1, 0, 0, 0, 1, 0,
    0, 0, 0, 1, 0, 0, 0, 1, 0,
    0, 0, 0, 1, 0, 0, 0, 1, 0]

/-- Verification accepts a client handshake without a protocol name. -/
theorem not_presentsRequired_repeatedVersion
    : ∃ message specMessage,
      (Message.received builtinSpec repeatedVersion).deserialize = .ok message
        ∧ builtinSpec.messagesId.lookup message.binaryId.toUInt64 = some specMessage
        ∧ builtinSpec.verifyMessage message = .ok (.ok ())
        ∧ ¬message.PresentsRequired specMessage := by
  obtain ⟨known, accepts, absent⟩ :
      (builtinSpec.messagesId.lookup 1).bind (fun specMessage =>
          (specMessage.parametersId.lookup 2).map fun parameter =>
            (parameter.required, parameter.field.id)) = some (true, 2)
        ∧ builtinSpec.verifyMessage
            { Message.received builtinSpec repeatedVersion with binaryId := 1 } = .ok (.ok ())
        ∧ (Message.received builtinSpec repeatedVersion).readingForId 2 = .ok (.error none) := by
    decide +kernel
  obtain ⟨specMessage, listed, known⟩ := Option.bind_eq_some_iff.mp known
  obtain ⟨parameter, held, facts⟩ := Option.map_eq_some_iff.mp known
  obtain ⟨required, keyed⟩ := Prod.mk.inj facts
  refine ⟨_, specMessage, deserialize_of_listed 1 (by decide) listed, listed, accepts, ?_⟩
  intro present
  obtain ⟨wireId, sameId, value, found⟩ := (present held required).found
  have wire : wireId = 2 := UInt32.toUInt64_inj.mp (sameId.trans keyed)
  subst wire
  cases absent.symm.trans found

/-- A client handshake with its three required parameters, all of them empty. -/
def emptyHandshake : Bytes.Block :=
  [0, 0, 0, 1,
    0, 0, 0, 1, 0, 0, 0, 1, 0,
    0, 0, 0, 2, 0, 0, 0, 1, 0,
    0, 0, 0, 3, 0, 0, 0, 1, 0]

/-- Witness: the condition at a complete client handshake. -/
theorem presentsRequired_iff_emptyHandshake
    : ∃ message specMessage,
      (Message.received builtinSpec emptyHandshake).deserialize = .ok message
        ∧ (message.PresentsRequired specMessage
          ↔ ∃ items, Countable builtinSpec emptyHandshake specMessage items) := by
  obtain ⟨known, accepts⟩ :
      (builtinSpec.messagesId.lookup 1).isSome = true
        ∧ builtinSpec.verifyMessage
          { Message.received builtinSpec emptyHandshake with binaryId := 1 } = .ok (.ok ()) := by
    decide +kernel
  obtain ⟨specMessage, listed⟩ := Option.isSome_iff_exists.mp known
  have word : Bytes.read32 emptyHandshake 0 = some 1 := by decide
  have read := deserialize_of_listed 1 word listed
  exact ⟨_, specMessage, read, presentsRequired_iff .builtin (by decide) read listed accepts⟩

end WiredServer.P7
