import WiredServer.P7.SharedFields

/-! What a merged specification understands. It knows the fields of both sides exactly when the fields with
a common id are the same on both and the peer has all names of their enumerations. It accepts the
messages of both sides when these also agree on what is required and on the ids of fields.
-/

namespace WiredServer.P7

open AssociationLists Loop

-----------------------------------------------------------------------------------------
-- Enumerations of loaded fields
-----------------------------------------------------------------------------------------

/-- The names of an enumeration lead to values that lead back to them, and only enumerations have names. -/
structure SpecField.EnumsLeadBack (field : SpecField) : Prop where
  back : ∀ name value, field.enumsName.lookup name = some value →
    field.enumsValue.lookup value = some name
  typed : ∀ name value, field.enumsName.lookup name = some value →
    field.type.id = P7Type.enum.id

section Loading

variable {builtin : Option Spec} {spec : Spec}

/-- A round over a child of a field changes enumerations only. -/
theorem loadEnum_typed {field next : SpecField} {node : XmlNode}
    (loaded : loadEnum field node = .ok next)
    : next = field ∨ field.type.id = P7Type.enum.id := by
  unfold loadEnum at loaded
  split at loaded
  · cases loaded
    exact .inl rfl
  · split at loaded
    · cases loaded
    · rename_i isEnum
      exact .inr (not_not.mp isEnum)

/-- A round over a child of a field keeps the way back, since a value is entered once. -/
theorem loadEnum_enumsLeadBack {field next : SpecField} {node : XmlNode}
    (kept : field.EnumsLeadBack) (loaded : loadEnum field node = .ok next)
    : next.EnumsLeadBack := by
  rcases loadEnum_typed loaded with rfl | isEnum
  · exact kept
  · obtain ⟨-, rfl⟩ | ⟨entered, number, -, fresh, rfl⟩ := loadEnum_cases loaded
    · exact kept
    · refine ⟨fun name value found => ?_, fun _ _ _ => isEnum⟩
      by_cases same : name = entered
      · subst same
        rw [AList.lookup_insert, Option.some_inj] at found
        subst found
        exact AList.lookup_insert _
      · rw [AList.lookup_insert_ne same] at found
        have back := kept.back name value found
        have differs : value ≠ number := by
          rintro rfl
          cases fresh.symm.trans back
        rw [AList.lookup_insert_ne differs]
        exact back

/-- The enumeration of a loaded field leads back. -/
theorem fieldWithNode_enumsLeadBack {node : XmlNode} {field : SpecField}
    (built : fieldWithNode builtin spec node = .ok field)
    : field.EnumsLeadBack := by
  unfold fieldWithNode at built
  split at built
  · cases built
  · split at built
    · cases built
    · split at built
      · cases built
      · obtain ⟨listtype, -, built⟩ := Fallible.bind_eq_ok.mp built
        dsimp only at built
        split at built
        · cases built
        · refine Fallible.foldlM_preserves SpecField.EnumsLeadBack
            (fun _ kept step => loadEnum_enumsLeadBack kept step) ?_ built
          exact ⟨fun name value found => by simp at found, fun name value found => by simp at found⟩

/-- The enumerations of a loaded specification lead back. -/
theorem loadSpec_enumsLeadBack {originator : Originator} {root : XmlNode}
    (loaded : loadSpec builtin originator root = .ok spec)
    : ∀ name field, spec.fieldsName.lookup name = some field → field.EnumsLeadBack := by
  refine loadSpec_preserves
    (fun spec => ∀ name field, spec.fieldsName.lookup name = some field → field.EnumsLeadBack)
    ?_ ?_ loaded
  · intro part state child following mem member kept loads name field found
    obtain same | ⟨-, built, fresh, -, entered⟩ := loads.fieldsName_cases
    · rw [same] at found
      exact kept name field found
    · rw [entered] at found
      by_cases same : name = built.name
      · rw [same, AList.lookup_insert] at found
        cases found
        exact fieldWithNode_enumsLeadBack fresh
      · rw [AList.lookup_insert_ne same] at found
        exact kept name field found
  · intro name version other field found
    simp [Spec.empty] at found

/-- The enumerations of a loaded specification lead back. -/
theorem Spec.Loaded.enumsLeadBack (loaded : spec.Loaded) {id : UInt64} {field : SpecField}
    (found : spec.fieldsId.lookup id = some field)
    : field.EnumsLeadBack := by
  have named := (loaded.tables.1.numbered found).2
  cases loaded with
  | builtin => exact loadSpec_enumsLeadBack builtinSpec_loaded _ field named
  | document loaded => exact loadSpec_enumsLeadBack loaded _ field named

end Loading

-----------------------------------------------------------------------------------------
-- Merged specifications
-----------------------------------------------------------------------------------------

namespace Spec

/-- The copy of a specification that the one of a peer has been merged into. -/
def mergedWith (spec peer : Spec) : Option Spec :=
  let store := (Store.start.load .server spec).load (.peer 0) peer
  let merged := (peer.object (.peer 0)).mergeWithSpec store (spec.object .server)
  merged.map fun (store, mergedSpec) => mergedSpec.contents store

/-- A merged specification resolves the field ids of one of its sides to the same fields. -/
def ResolvesFields (merged spec : Spec) : Prop :=
  ∀ id field, spec.fieldsId.lookup id = some field →
    ∃ found, merged.fieldWithId id = some found ∧ found.name = field.name
      ∧ found.type.id = field.type.id ∧ found.size = field.size

/-- A merged specification maps the names of the enumerations of one of its sides to their values there,
and back.
-/
def KeepsEnums (merged spec : Spec) : Prop :=
  ∀ id field, spec.fieldsId.lookup id = some field →
    ∀ name value, field.enumsName.lookup name = some value →
      ∃ found, merged.fieldWithId id = some found ∧ found.enumsName.lookup name = some value
        ∧ found.enumsValue.lookup value = some name

/-- Two specifications have a message in common. -/
def Shares (spec peer : Spec) (id : UInt64) (message otherMessage : SpecMessage) : Prop :=
  spec.messagesId.lookup id = some message ∧ peer.messagesId.lookup id = some otherMessage
    ∧ message.name = otherMessage.name

/-- A merged specification accepts every message that one of its sides accepts for a message they share. -/
def AcceptsShared (merged spec peer : Spec) : Prop :=
  ∀ message : Message, (∃ own theirs, spec.Shares peer message.binaryId.toUInt64 own theirs) →
    spec.verifyMessage message = .ok (.ok ()) ∨ peer.verifyMessage message = .ok (.ok ()) →
    merged.verifyMessage message = .ok (.ok ())

/-- Fields with a common id are the same, and the peer has all names of their enumerations. -/
def FieldsAgree (spec peer : Spec) : Prop :=
  ∀ id field otherField, spec.fieldsId.lookup id = some field →
    peer.fieldsId.lookup id = some otherField →
    field.name = otherField.name ∧ field.type.id = otherField.type.id ∧ field.size = otherField.size
      ∧ ∀ name value, field.enumsName.lookup name = some value →
        otherField.enumsName.lookup name = some value

end Spec

/-- A message requires a parameter. -/
def SpecMessage.requires (message : SpecMessage) (id : UInt64) : Bool :=
  (message.parametersId.lookup id).any (·.required)

/-- Messages that are shared require the same, and then both sides have the same field ids as far as they
can stand in a message.
-/
def Spec.MessagesAgree (spec peer : Spec) : Prop :=
  ∀ id message otherMessage, spec.Shares peer id message otherMessage →
    (∀ parameter, message.requires parameter = otherMessage.requires parameter)
      ∧ ∀ field : UInt32, (spec.fieldsId.lookup field.toUInt64).isSome
        = (peer.fieldsId.lookup field.toUInt64).isSome

section Merged

variable {spec peer merged : Spec} (loaded : spec.Loaded) (peerLoaded : peer.Loaded)

include loaded peerLoaded in
/-- A merge is possible if no enumeration shares its id with a field of the peer that is none. -/
theorem exists_mergedWith_iff
    : (∃ merged, spec.mergedWith peer = some merged)
      ↔ ∀ id field otherField, spec.fieldsId.lookup id = some field →
        peer.fieldsId.lookup id = some otherField →
        field.type.id = P7Type.enum.id → otherField.type.id = P7Type.enum.id := by
  have apart : Owner.server ≠ .peer 0 := nofun
  have possible := @exists_mergeWithSpec_iff spec peer .server (.peer 0)
    (Store.start.load .server spec) loaded peerLoaded apart
  have enums : (∀ id field otherField, spec.fieldsId.lookup id = some field →
      peer.fieldsId.lookup id = some otherField →
      (Store.start.load .server spec ⟨.server, id⟩).type.id = P7Type.enum.id →
      otherField.type.id = P7Type.enum.id)
      ↔ ∀ id field otherField, spec.fieldsId.lookup id = some field →
        peer.fieldsId.lookup id = some otherField →
        field.type.id = P7Type.enum.id → otherField.type.id = P7Type.enum.id := by
    refine forall₄_congr fun id field otherField here => ?_
    rw [load_self here]
  rw [← enums, ← possible]
  simp only [Spec.mergedWith, Option.map_eq_some_iff]
  constructor
  · rintro ⟨_, merged, ran, rfl⟩
    exact ⟨merged, ran⟩
  · rintro ⟨merged, ran⟩
    exact ⟨_, merged, ran, rfl⟩

include loaded peerLoaded in
/-- The fields of a merged specification under their ids: an own field with the enumeration it has been
given, or a field of the peer.
-/
theorem mergedWith_fields (ran : spec.mergedWith peer = some merged)
    : (∀ id field otherField, spec.fieldsId.lookup id = some field →
        peer.fieldsId.lookup id = some otherField →
        ∃ found, field.mergeEnums otherField = some found
          ∧ merged.fieldsId.lookup id = some found)
      ∧ (∀ id field, spec.fieldsId.lookup id = some field → peer.fieldsId.lookup id = none →
        merged.fieldsId.lookup id = some field)
      ∧ (∀ id, spec.fieldsId.lookup id = none →
        merged.fieldsId.lookup id = peer.fieldsId.lookup id) := by
  have apart : Owner.server ≠ .peer 0 := by decide
  simp only [Spec.mergedWith, Option.map_eq_some_iff] at ran
  obtain ⟨⟨store, mergedSpec⟩, ran, rfl⟩ := ran
  obtain ⟨fieldsId, shared, frame, -, -⟩ := mergeWithSpec_frame loaded peerLoaded apart ran
  simp only [SpecObject.contents, lookup_mapValues, fieldsId]
  refine ⟨?_, ?_, ?_⟩
  · intro id field otherField here there
    have made := shared id field otherField here there
    rw [load_self here] at made
    exact ⟨_, made, by rw [here]; rfl⟩
  · intro id field here there
    have kept := frame ⟨.server, id⟩ fun _ => .inr there
    rw [load_of_ne apart, load_self here] at kept
    rw [here, Option.map_some, Option.some_or, Option.map_some]
    exact congrArg some kept
  · intro id here
    cases there : peer.fieldsId.lookup id with
    | none => rw [here]; rfl
    | some otherField =>
        have kept := frame ⟨.peer 0, id⟩ fun same => by cases same
        rw [load_self there] at kept
        rw [here, Option.map_none, Option.none_or, Option.map_some, Option.map_some]
        exact congrArg some kept

include loaded peerLoaded in
/-- A message that is shared requires in the merged specification what it requires in the own one. -/
theorem mergedWith_messages (ran : spec.mergedWith peer = some merged) {id : UInt64}
    {message : SpecMessage} (here : spec.messagesId.lookup id = some message)
    : ∃ found, merged.messagesId.lookup id = some found
      ∧ found.requiredParameters = message.requiredParameters
      ∧ ∀ parameter, found.requires parameter = message.requires parameter := by
  have apart : Owner.server ≠ .peer 0 := nofun
  simp only [Spec.mergedWith, Option.map_eq_some_iff] at ran
  obtain ⟨⟨store, mergedSpec⟩, ran, rfl⟩ := ran
  obtain ⟨-, -, -, -, messages⟩ := mergeWithSpec_frame loaded peerLoaded apart ran
  refine ⟨(spec.messageObject .server message).contents store, ?_, rfl, fun parameter => ?_⟩
  · simp only [SpecObject.contents, lookup_mapValues, messages, Spec.object, here, Option.map_some,
      Option.some_or]
  · simp only [SpecMessage.requires, MessageObject.contents, Spec.messageObject, lookup_mapValues,
      Option.any_map]
    rfl

end Merged

-----------------------------------------------------------------------------------------
-- Fields
-----------------------------------------------------------------------------------------

section Fields

variable {spec peer merged : Spec} (loaded : spec.Loaded) (peerLoaded : peer.Loaded)

/-- A field that a merged specification has itself is what it resolves to. -/
theorem fieldWithId_of_own {id : UInt64} {field : SpecField}
    (own : merged.fieldsId.lookup id = some field)
    : merged.fieldWithId id = some field := by
  rw [Spec.fieldWithId, own, Option.some_or]

/-- Enumerations that are equal, the first of which has the names of the second, are the same. -/
theorem lookup_eq_of_enumsAreEqual {names others : Dictionary String UInt64}
    (equal : enumsAreEqual names others = true)
    (subset : ∀ name value, others.lookup name = some value → names.lookup name = some value)
    {name : String} {value : UInt64} (found : names.lookup name = some value)
    : others.lookup name = some value := by
  have length : others.entries.length = names.entries.length :=
    (of_decide_eq_true (Bool.and_eq_true_iff.mp equal).1).symm
  exact (lookup_eq_of_subset length subset name).trans found

include loaded peerLoaded in
/-- A merged specification that resolves the fields of both sides and keeps their enumerations shows that
the fields agree.
-/
theorem fieldsAgree_of_merged (ran : spec.mergedWith peer = some merged)
    (resolvesPeer : merged.ResolvesFields peer) (keeps : merged.KeepsEnums spec)
    (keepsPeer : merged.KeepsEnums peer)
    : spec.FieldsAgree peer := by
  intro id field otherField here there
  obtain ⟨found, made, own⟩ := (mergedWith_fields loaded peerLoaded ran).1 id field otherField here
    there
  have resolves := fieldWithId_of_own own
  obtain ⟨other, same, name, type, size⟩ := resolvesPeer id otherField there
  cases resolves.symm.trans same
  obtain ⟨ownName, -, ownType, -⟩ := mergeEnums_frame made
  refine ⟨ownName.symm.trans name, (congrArg SpecType.id ownType).symm.trans type,
    (congrArg SpecType.size ownType).symm.trans size, fun enum value listed => ?_⟩
  obtain ⟨-, ⟨rfl, equal⟩ | ⟨-, -, rfl⟩⟩ := mergeEnums_cases made
  · have isEnum := (loaded.enumsLeadBack here).typed enum value listed
    refine lookup_eq_of_enumsAreEqual (equal isEnum) (fun other number known => ?_) listed
    obtain ⟨merged, same, known, -⟩ := keepsPeer id otherField there other number known
    cases resolves.symm.trans same
    exact known
  · obtain ⟨merged, same, known, -⟩ := keeps id field here enum value listed
    cases resolves.symm.trans same
    exact known

include loaded peerLoaded in
/-- The fields of a merged specification, when the fields agree: for a field of either side one that is the
same and has all of its names.
-/
theorem mergedWith_of_fieldsAgree (agree : spec.FieldsAgree peer)
    (ran : spec.mergedWith peer = some merged)
    : (∀ id field, spec.fieldsId.lookup id = some field ∨ peer.fieldsId.lookup id = some field →
        ∃ found, merged.fieldsId.lookup id = some found ∧ found.name = field.name
          ∧ found.type.id = field.type.id ∧ found.size = field.size
          ∧ ∀ name value, field.enumsName.lookup name = some value →
            found.enumsName.lookup name = some value
              ∧ found.enumsValue.lookup value = some name) := by
  obtain ⟨shared, ownOnly, peerOnly⟩ := mergedWith_fields loaded peerLoaded ran
  have both {id : UInt64} {field otherField : SpecField} (here : spec.fieldsId.lookup id = some field)
      (there : peer.fieldsId.lookup id = some otherField)
      : ∃ found, merged.fieldsId.lookup id = some found ∧ found.name = field.name
        ∧ found.type.id = field.type.id ∧ found.size = field.size ∧ found.EnumsLeadBack
        ∧ ∀ name value, otherField.enumsName.lookup name = some value →
          found.enumsName.lookup name = some value := by
    obtain ⟨found, made, own⟩ := shared id field otherField here there
    obtain ⟨name, -, type, -⟩ := mergeEnums_frame made
    obtain ⟨-, sameType, -, subset⟩ := agree id field otherField here there
    refine ⟨found, own, name, congrArg SpecType.id type, congrArg SpecType.size type, ?_⟩
    obtain ⟨-, ⟨rfl, equal⟩ | ⟨isEnum, -, rfl⟩⟩ := mergeEnums_cases made
    · refine ⟨loaded.enumsLeadBack here, fun enum value listed => ?_⟩
      have isEnum := sameType.trans ((peerLoaded.enumsLeadBack there).typed enum value listed)
      have length := of_decide_eq_true (Bool.and_eq_true_iff.mp (equal isEnum)).1
      exact (lookup_eq_of_subset length subset enum).trans listed
    · have leadsBack := peerLoaded.enumsLeadBack there
      exact ⟨⟨leadsBack.back, fun _ _ _ => isEnum⟩, fun _ _ listed => listed⟩
  intro id field side
  rcases side with here | there
  · cases there : peer.fieldsId.lookup id with
    | none =>
        have leadsBack := loaded.enumsLeadBack here
        exact ⟨field, ownOnly id field here there, rfl, rfl, rfl, fun name value listed =>
          ⟨listed, leadsBack.back name value listed⟩⟩
    | some otherField =>
        obtain ⟨found, own, name, type, size, leadsBack, listed⟩ := both here there
        refine ⟨found, own, name, type, size, fun enum value known => ?_⟩
        have kept := listed enum value ((agree id field otherField here there).2.2.2 enum value known)
        exact ⟨kept, leadsBack.back enum value kept⟩
  · cases here : spec.fieldsId.lookup id with
    | none =>
        have leadsBack := peerLoaded.enumsLeadBack there
        exact ⟨field, (peerOnly id here).trans there, rfl, rfl, rfl, fun name value listed =>
          ⟨listed, leadsBack.back name value listed⟩⟩
    | some own =>
        obtain ⟨found, resolved, name, type, size, leadsBack, listed⟩ := both here there
        obtain ⟨sameName, sameType, sameSize, -⟩ := agree id own field here there
        exact ⟨found, resolved, name.trans sameName, type.trans sameType, size.trans sameSize,
          fun enum value known => ⟨listed enum value known,
            leadsBack.back enum value (listed enum value known)⟩⟩

end Fields

-----------------------------------------------------------------------------------------
-- Messages
-----------------------------------------------------------------------------------------

section Messages

/-- What the verification does with a field depends on whether the message requires it. -/
theorem verifyVisit_eq (specMessage : SpecMessage) (field : SpecField) (id : UInt32) (count : ℕ)
    : verifyVisit specMessage field id count
      = .ok (if specMessage.requires id.toUInt64 then count + 1 else count) := by
  unfold verifyVisit SpecMessage.requires
  cases specMessage.parametersId.lookup id.toUInt64 with
  | none => rfl
  | some parameter => rfl

/-- An accepted message has the required parameters of its specification as often as it counts them. -/
theorem verifyMessage_eq_ok_iff {spec : Spec} {message : Message}
    : spec.verifyMessage message = .ok (.ok ())
      ↔ ∃ specMessage, spec.messagesId.lookup message.binaryId.toUInt64 = some specMessage
        ∧ run (Message.skimBody spec message.binaryBuffer (message.binarySize - .ofNat headerSize)
            (verifyVisit specMessage)) (message.binaryBuffer.length + 1) (0, 0)
          = .ok specMessage.requiredParameters := by
  unfold Spec.verifyMessage
  cases listed : spec.messagesId.lookup message.binaryId.toUInt64 with
  | none => simp
  | some specMessage =>
      simp only [Fallible.bind_eq_ok, Option.some.injEq, exists_eq_left']
      constructor
      · rintro ⟨count, counted, accepted⟩
        split at accepted
        · cases accepted
        · rename_i exact
          rw [counted, not_not.mp exact]
      · intro counted
        exact ⟨_, counted, by rw [if_neg (not_not.mpr rfl)]⟩

/-- The loops over two specifications do the same if they have the same sizes and visits. -/
theorem skimBody_congr {σ : Type} {spec other : Spec} {visit otherVisit : SpecField → UInt32 → σ → Access σ}
    (sizes : ∀ id : UInt32, (spec.fieldWithId id.toUInt64).map (·.size)
      = (other.fieldWithId id.toUInt64).map (·.size))
    (visits : ∀ field otherField id made, visit field id made = otherVisit otherField id made)
    (buffer : Bytes.Block) (messageSize : UInt32)
    : Message.skimBody spec buffer messageSize visit
      = Message.skimBody other buffer messageSize otherVisit := by
  funext ⟨offset, made⟩
  simp only [Message.skimBody]
  split
  · refine congrArg _ (funext fun id => ?_)
    have size := sizes id
    cases here : spec.fieldWithId id.toUInt64 with
    | none =>
        cases there : other.fieldWithId id.toUInt64 with
        | none => rfl
        | some otherField =>
            rw [here, there] at size
            cases size
    | some field =>
        cases there : other.fieldWithId id.toUInt64 with
        | none =>
            rw [here, there] at size
            cases size
        | some otherField =>
            rw [here, there, Option.map_some, Option.map_some, Option.some_inj] at size
            simp only [size, visits field otherField]
  · rfl

/-- A message of a loaded specification counts the parameters that it requires. -/
theorem requiredParameters_congr {spec other : Spec} (loaded : spec.Loaded) (otherLoaded : other.Loaded)
    {id : UInt64} {message otherMessage : SpecMessage}
    (here : spec.messagesId.lookup id = some message)
    (there : other.messagesId.lookup id = some otherMessage)
    (requires : ∀ parameter, message.requires parameter = otherMessage.requires parameter)
    : message.requiredParameters = otherMessage.requiredParameters := by
  have mem {message : SpecMessage} {parameter : UInt64}
      : parameter ∈ message.requiredIds ↔ message.requires parameter = true := by
    rw [SpecMessage.mem_requiredIds, SpecMessage.requires, Option.any_eq_true]
  rw [(loaded.parameters here).counted, (otherLoaded.parameters there).counted]
  refine List.Perm.length_eq ((List.perm_ext_iff_of_nodup message.requiredIds_nodup
    otherMessage.requiredIds_nodup).mpr fun parameter => ?_)
  rw [mem, mem, requires]

section Accepting

variable {spec peer merged : Spec} (loaded : spec.Loaded) (peerLoaded : peer.Loaded)

/-- Specifications accept the same messages with an id if they have the same sizes of fields, and require
the same and count it for the id.
-/
theorem verifyMessage_congr {message : Message} {own theirs : SpecMessage}
    (sizes : ∀ id : UInt32, (spec.fieldWithId id.toUInt64).map (·.size)
      = (peer.fieldWithId id.toUInt64).map (·.size))
    (here : spec.messagesId.lookup message.binaryId.toUInt64 = some own)
    (there : peer.messagesId.lookup message.binaryId.toUInt64 = some theirs)
    (counts : own.requiredParameters = theirs.requiredParameters)
    (requires : ∀ parameter, own.requires parameter = theirs.requires parameter)
    : spec.verifyMessage message = .ok (.ok ()) ↔ peer.verifyMessage message = .ok (.ok ()) := by
  have visits : ∀ field otherField id count,
      verifyVisit own field id count = verifyVisit theirs otherField id count := by
    intro field otherField id count
    rw [verifyVisit_eq, verifyVisit_eq, requires]
  rw [verifyMessage_eq_ok_iff, verifyMessage_eq_ok_iff, here, there]
  simp only [Option.some.injEq, exists_eq_left', counts, skimBody_congr sizes visits]

include loaded peerLoaded in
/-- A merged specification has the sizes of both sides, when these have the same field ids. -/
theorem mergedWith_sizes (agree : spec.FieldsAgree peer)
    (same : ∀ field : UInt32, (spec.fieldsId.lookup field.toUInt64).isSome
      = (peer.fieldsId.lookup field.toUInt64).isSome)
    (ran : spec.mergedWith peer = some merged) (id : UInt32)
    : (spec.fieldWithId id.toUInt64).map (·.size) = (merged.fieldWithId id.toUInt64).map (·.size)
      ∧ (peer.fieldWithId id.toUInt64).map (·.size)
        = (merged.fieldWithId id.toUInt64).map (·.size) := by
  have listed := same id
  cases here : spec.fieldsId.lookup id.toUInt64 with
  | none =>
      rw [here, Option.isSome_none, Eq.comm, Option.isSome_eq_false_iff, Option.isNone_iff_eq_none]
        at listed
      have entered := (mergedWith_fields loaded peerLoaded ran).2.2 id.toUInt64 here
      simp only [Spec.fieldWithId, here, listed, entered, and_self]
  | some field =>
      rw [here, Option.isSome_some, Eq.comm, Option.isSome_iff_exists] at listed
      obtain ⟨otherField, there⟩ := listed
      have size := (agree id.toUInt64 field otherField here there).2.2.1
      obtain ⟨found, resolved, -, -, ownSize, -⟩ :=
        mergedWith_of_fieldsAgree loaded peerLoaded agree ran id.toUInt64 field (.inl here)
      simp only [Spec.fieldWithId, here, there, resolved, Option.some_or, Option.map_some, ownSize,
        size, and_self]

include loaded peerLoaded in
/-- A merged specification accepts what its sides accept, when they agree. -/
theorem acceptsShared_of_agree (agree : spec.FieldsAgree peer) (messages : spec.MessagesAgree peer)
    (ran : spec.mergedWith peer = some merged)
    : merged.AcceptsShared spec peer := by
  rintro message ⟨own, theirs, shares⟩ accepted
  obtain ⟨requires, same⟩ := messages _ own theirs shares
  obtain ⟨here, there, -⟩ := shares
  have sizes := mergedWith_sizes loaded peerLoaded agree same ran
  obtain ⟨found, resolved, counts, requiresFound⟩ := mergedWith_messages loaded peerLoaded ran here
  have counted := requiredParameters_congr loaded peerLoaded here there requires
  rcases accepted with accepted | accepted
  · exact (verifyMessage_congr (fun id => (sizes id).1) here resolved counts.symm fun parameter =>
      (requiresFound parameter).symm).mp accepted
  · exact (verifyMessage_congr (fun id => (sizes id).2) there resolved (counted.symm.trans counts.symm)
      fun parameter => ((requiresFound parameter).trans (requires parameter)).symm).mp accepted

end Accepting

end Messages

-----------------------------------------------------------------------------------------
-- Soundness
-----------------------------------------------------------------------------------------

/-- Whether a peer lacks the name of an enumeration. -/
def lacksBusy (spec peer : Spec) : Bool :=
  match spec.fieldsId.lookup 1000, peer.fieldsId.lookup 1000 with
  | some field, some otherField =>
      field.enumsName.lookup "busy" = some 2 && otherField.enumsName.lookup "busy" = none
        && !enumsAreEqual field.enumsName otherField.enumsName
  | _, _ => false

end WiredServer.P7
