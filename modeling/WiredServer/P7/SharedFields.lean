import WiredServer.Lib.Machine
import WiredServer.P7.Compatibility
import WiredServer.P7.SpecMerging
import WiredServer.P7.Verify

/-! The specification of a server beside the copies that it makes for its connections. A copy has tables
of its own but shares the field objects, so that an enumeration that is merged into a copy is
changed in the specification of the server, and in every other copy, too.
-/

namespace WiredServer.P7

open AssociationLists

-----------------------------------------------------------------------------------------
-- Server
-----------------------------------------------------------------------------------------

/-- A specification that a program can hold. -/
abbrev LoadedSpec :=
  { spec : Spec // spec.Loaded }

/-- The field objects, the specification of the server and the ones of its connections. -/
structure MergingServer where
  store : Store
  spec : SpecObject
  mergedSpecs : List SpecObject

namespace MergingServer

/-- A server that has loaded its specification. -/
def start (spec : LoadedSpec) : MergingServer where
  store := Store.start.load .server spec
  spec := spec.val.object .server
  mergedSpecs := []

/-- `_wi_p7_spec_copy`: the tables are copied, and refer to the same objects. -/
def copySpec (server : MergingServer) : SpecObject :=
  server.spec

/-- The part of `_wi_p7_socket_receive_compatibility_check` that merges the specification of a peer into a
copy of the own one.
-/
def receiveSpec (peer : LoadedSpec) (server : MergingServer) : Option MergingServer :=
  let owner := Owner.peer server.mergedSpecs.length
  let merged := (peer.val.object owner).mergeWithSpec (server.store.load owner peer) server.copySpec
  merged.map fun (store, mergedSpec) =>
    { server with store, mergedSpecs := server.mergedSpecs ++ [mergedSpec] }

/-- What the specification of the server stands for. -/
def contents (server : MergingServer) : Spec :=
  server.spec.contents server.store

end MergingServer

-----------------------------------------------------------------------------------------
-- Lookups
-----------------------------------------------------------------------------------------

/-- What the functions on a field tell of it. -/
structure FieldAnswers where
  name : String
  id : UInt64
  type : SpecType
  listtype : Option SpecType
  enumWithName : String → Option UInt64
  enumWithValue : UInt64 → Option String

/-- What the functions on a parameter tell of it. -/
structure ParameterAnswers where
  field : FieldAnswers
  required : Bool

/-- What the functions on a message tell of it. -/
structure MessageAnswers where
  name : String
  id : UInt64
  requiredParameters : ℕ
  parameterWithName : String → Option ParameterAnswers
  parameterWithId : UInt64 → Option ParameterAnswers

/-- What the lookups in a specification find. -/
structure SpecAnswers where
  messageWithName : String → Option MessageAnswers
  messageWithId : UInt64 → Option MessageAnswers
  fieldWithName : String → Option FieldAnswers
  fieldWithId : UInt64 → Option FieldAnswers

/-- What the functions on a field tell of it. -/
def SpecField.answers (field : SpecField) : FieldAnswers where
  name := field.name
  id := field.id
  type := field.type
  listtype := field.listtype
  enumWithName := field.enumsName.lookup
  enumWithValue := field.enumsValue.lookup

/-- What the functions on a parameter tell of it. -/
def SpecParameter.answers (parameter : SpecParameter) : ParameterAnswers where
  field := parameter.field.answers
  required := parameter.required

/-- What the functions on a message tell of it. -/
def SpecMessage.answers (message : SpecMessage) : MessageAnswers where
  name := message.name
  id := message.id
  requiredParameters := message.requiredParameters
  parameterWithName name := (message.parametersName.lookup name).map SpecParameter.answers
  parameterWithId id := (message.parametersId.lookup id).map SpecParameter.answers

/-- What the lookups in a specification find. -/
def Spec.answers (spec : Spec) : SpecAnswers where
  messageWithName name := (spec.messageWithName name).map SpecMessage.answers
  messageWithId id := (spec.messageWithId id).map SpecMessage.answers
  fieldWithName name := (spec.fieldWithName name).map SpecField.answers
  fieldWithId id := (spec.fieldWithId id).map SpecField.answers

/-- The lookups in the specification of a server are what they were when it was loaded. -/
def MergingServer.AnswersAsLoaded (spec : LoadedSpec) (server : MergingServer) : Prop :=
  server.contents.answers = (MergingServer.start spec).contents.answers

/-- A peer whose enumerations are equal to the ones that the server has under their ids. -/
def Spec.LeavesEnums (spec peer : Spec) : Prop :=
  ∀ id field otherField, spec.fieldsId.lookup id = some field →
    peer.fieldsId.lookup id = some otherField → field.type.id = P7Type.enum.id →
    otherField.type.id = P7Type.enum.id
      ∧ enumsAreEqual field.enumsName otherField.enumsName = true

-----------------------------------------------------------------------------------------
-- Contents of the loaded objects
-----------------------------------------------------------------------------------------

section Contents

variable {spec : Spec}

/-- The contents of the objects of a specification depend only on the objects that it uses. -/
theorem contents_congr {owner : Owner} {store store' : Store}
    (own : ∀ id, store ⟨owner, id⟩ = store' ⟨owner, id⟩)
    (builtin : ∀ id, store ⟨.builtin, id⟩ = store' ⟨.builtin, id⟩)
    : (spec.object owner).contents store = (spec.object owner).contents store' := by
  have used : store ∘ spec.fieldRef owner = store' ∘ spec.fieldRef owner := by
    funext field
    simp only [Function.comp_apply, Spec.fieldRef]
    split
    · exact own _
    · exact builtin _
  have parameters : (·.contents store) ∘ spec.parameterObject owner
      = (·.contents store') ∘ spec.parameterObject owner := by
    funext parameter
    have same := congrFun used parameter.field
    simp only [Function.comp_apply] at same
    simp only [Function.comp_apply, ParameterObject.contents, Spec.parameterObject, same]
  have messages : (·.contents store) ∘ spec.messageObject owner
      = (·.contents store') ∘ spec.messageObject owner := by
    funext message
    simp only [Function.comp_apply, MessageObject.contents, Spec.messageObject,
      mapValues_mapValues, parameters]
  have fields : store ∘ (fun field : SpecField => FieldRef.mk owner field.id)
      = store' ∘ fun field => ⟨owner, field.id⟩ :=
    funext fun field => own field.id
  simp only [SpecObject.contents, Spec.object, mapValues_mapValues, messages, used, fields]

/-- A field of a loaded specification is what its object has been loaded with. -/
theorem load_fieldRef (loaded : spec.Loaded) {name : String} {field : SpecField}
    (found : spec.fieldWithName name = some field)
    : Store.start.load .server spec (spec.fieldRef .server field) = field := by
  have numbered := (loaded.fieldWithName found).2
  rw [Spec.fieldWithId, Option.or_eq_some_iff] at numbered
  rw [Spec.fieldRef]
  rcases numbered with own | ⟨absent, builtin⟩
  · rw [own, Option.isSome_some, if_pos rfl]
    exact load_self own
  · have apart : Owner.builtin ≠ .server := by decide
    rw [absent, Option.isSome_none, if_neg Bool.false_ne_true]
    exact (load_of_ne apart).trans (load_self builtin)

/-- The objects of a loaded specification stand for it. -/
theorem contents_start (spec : LoadedSpec) : (MergingServer.start spec).contents = spec.val := by
  obtain ⟨spec, loaded⟩ := spec
  have parameterSame {message : SpecMessage} {id : UInt64}
      (listed : spec.messagesId.lookup id = some message)
      {name : String} {parameter : SpecParameter}
      (found : message.parametersName.lookup name = some parameter)
      : (spec.parameterObject .server parameter).contents (Store.start.load .server spec)
        = parameter := by
    have known := (loaded.parameters listed).known found
    simp only [ParameterObject.contents, Spec.parameterObject, load_fieldRef loaded known]
  have messageSame {message : SpecMessage} {id : UInt64}
      (listed : spec.messagesId.lookup id = some message)
      : (spec.messageObject .server message).contents (Store.start.load .server spec) = message := by
    have byName : mapValues (fun parameter => (spec.parameterObject .server parameter).contents
        (Store.start.load .server spec)) message.parametersName = message.parametersName :=
      mapValues_eq_self fun name parameter found => parameterSame listed found
    have byId : mapValues (fun parameter => (spec.parameterObject .server parameter).contents
        (Store.start.load .server spec)) message.parametersId = message.parametersId :=
      mapValues_eq_self fun id parameter found =>
        parameterSame listed ((loaded.parameters listed).tables.numbered found).2
    simp only [MessageObject.contents, Spec.messageObject, mapValues_mapValues, Function.comp_def,
      byName, byId]
  have fieldsId : mapValues (fun field => Store.start.load .server spec ⟨.server, field.id⟩)
      spec.fieldsId = spec.fieldsId := by
    refine mapValues_eq_self fun id field found => ?_
    rw [loaded.numbered.1 id field found]
    exact load_self found
  have fieldsName : mapValues (fun field => Store.start.load .server spec
      (spec.fieldRef .server field)) spec.fieldsName = spec.fieldsName :=
    mapValues_eq_self fun name field found =>
      load_fieldRef loaded (by rw [Spec.fieldWithName, found, Option.some_or])
  have messagesId : mapValues (fun message => (spec.messageObject .server message).contents
      (Store.start.load .server spec)) spec.messagesId = spec.messagesId :=
    mapValues_eq_self fun id message found => messageSame found
  have messagesName : mapValues (fun message => (spec.messageObject .server message).contents
      (Store.start.load .server spec)) spec.messagesName = spec.messagesName :=
    mapValues_eq_self fun name message found => messageSame (loaded.tables.2.named found).2
  simp only [MergingServer.contents, MergingServer.start, SpecObject.contents, Spec.object,
    mapValues_mapValues, Function.comp_def, fieldsId, fieldsName, messagesId, messagesName]

end Contents

-----------------------------------------------------------------------------------------
-- Merging
-----------------------------------------------------------------------------------------

section Merging

variable {spec peer : LoadedSpec} {server next : MergingServer}

/-- The objects of the server and the builtin ones are as they were loaded. -/
structure MergingServer.AsLoaded (spec : LoadedSpec) (server : MergingServer) : Prop where
  tables : server.spec = spec.val.object .server
  objects : ∀ ref, (∀ number, ref.owner ≠ .peer number) →
    server.store ref = (MergingServer.start spec).store ref

/-- The object of a field of the server when it has started. -/
theorem start_field {id : UInt64} {field : SpecField}
    (found : spec.val.fieldsId.lookup id = some field)
    : (MergingServer.start spec).store ⟨.server, id⟩ = field := by
  change Store.start.load .server spec.val ⟨.server, id⟩ = field
  exact load_self found

/-- The object of a field of the server. -/
theorem MergingServer.AsLoaded.field (asLoaded : server.AsLoaded spec) {id : UInt64}
    {field : SpecField} (found : spec.val.fieldsId.lookup id = some field)
    : server.store ⟨.server, id⟩ = field := by
  rw [asLoaded.objects ⟨.server, id⟩ fun _ => nofun]
  exact start_field found

/-- A server with the objects as they were loaded answers as it did. -/
theorem MergingServer.AsLoaded.answers (asLoaded : server.AsLoaded spec)
    : server.AnswersAsLoaded spec := by
  rw [AnswersAsLoaded, contents, contents, asLoaded.tables]
  exact congrArg Spec.answers
    (contents_congr (fun id => asLoaded.objects ⟨.server, id⟩ fun _ => nofun) fun id =>
      asLoaded.objects ⟨.builtin, id⟩ fun _ => nofun)

/-- What a field of the server is found to be. -/
theorem contents_fieldWithId (same : server.spec = spec.val.object .server) {id : UInt64}
    {field : SpecField} (found : spec.val.fieldsId.lookup id = some field)
    : server.contents.fieldWithId id = some (server.store ⟨.server, id⟩) := by
  have own : server.contents.fieldsId.lookup id = some (server.store ⟨.server, id⟩) := by
    rw [MergingServer.contents, SpecObject.contents, lookup_mapValues, same,
      lookup_fieldsId_object spec.property, found]
    rfl
  rw [Spec.fieldWithId, own, Option.some_or]

/-- The merge of a peer's specification into a copy. -/
theorem receiveSpec_eq_some_iff
    : server.receiveSpec peer = some next
      ↔ ∃ merged, (peer.val.object (.peer server.mergedSpecs.length)).mergeWithSpec
            (server.store.load (.peer server.mergedSpecs.length) peer) server.spec = some merged
          ∧ next = { server with
              store := merged.1
              mergedSpecs := server.mergedSpecs ++ [merged.2] } := by
  rw [MergingServer.receiveSpec, Option.map_eq_some_iff]
  constructor
  · rintro ⟨merged, ran, rfl⟩
    exact ⟨merged, ran, rfl⟩
  · rintro ⟨merged, ran, rfl⟩
    exact ⟨merged, ran, rfl⟩

/-- Merging a peer keeps the objects of the server if its enumerations are equal. -/
theorem MergingServer.AsLoaded.receiveSpec (asLoaded : server.AsLoaded spec)
    (leaves : spec.val.LeavesEnums peer) (received : server.receiveSpec peer = some next)
    : next.AsLoaded spec := by
  obtain ⟨merged, ran, rfl⟩ := receiveSpec_eq_some_iff.mp received
  rw [asLoaded.tables] at ran
  have apart : Owner.server ≠ .peer server.mergedSpecs.length := nofun
  obtain ⟨-, shared, frame, -, -⟩ := mergeWithSpec_frame spec.property peer.property apart ran
  refine ⟨asLoaded.tables, fun ref own => ?_⟩
  have unshared (outside : ref.owner = .server → spec.val.fieldsId.lookup ref.id = none
      ∨ peer.val.fieldsId.lookup ref.id = none)
      : merged.1 ref = (MergingServer.start spec).store ref := by
    rw [frame ref outside, load_of_ne (own _)]
    exact asLoaded.objects ref own
  obtain ⟨owner, id⟩ := ref
  by_cases same : owner = .server
  · subst same
    cases here : spec.val.fieldsId.lookup id with
    | none => exact unshared fun _ => .inl here
    | some field =>
        cases there : peer.val.fieldsId.lookup id with
        | none => exact unshared fun _ => .inr there
        | some otherField =>
            have made := shared id field otherField here there
            rw [asLoaded.field here] at made
            obtain ⟨-, ⟨kept, -⟩ | ⟨isEnum, differ, -⟩⟩ := mergeEnums_cases made
            · exact kept.trans (start_field here).symm
            · rw [(leaves id field otherField here there isEnum).2] at differ
              cases differ
  · exact unshared fun isServer => absurd isServer same

/-- Merging a peer is possible and keeps the answers of the server exactly when its enumerations are
equal.
-/
theorem MergingServer.AsLoaded.receiveSpec_iff (asLoaded : server.AsLoaded spec)
    : (∃ next, server.receiveSpec peer = some next ∧ next.AnswersAsLoaded spec)
      ↔ spec.val.LeavesEnums peer := by
  have apart : Owner.server ≠ .peer server.mergedSpecs.length := nofun
  constructor
  · rintro ⟨next, received, answers⟩ id field otherField here there isEnum
    obtain ⟨merged, ran, rfl⟩ := receiveSpec_eq_some_iff.mp received
    rw [asLoaded.tables] at ran
    obtain ⟨-, shared, -, -, -⟩ := mergeWithSpec_frame spec.property peer.property apart ran
    have made := shared id field otherField here there
    rw [asLoaded.field here] at made
    obtain ⟨bothEnums, ⟨-, equal⟩ | ⟨-, differ, after⟩⟩ := mergeEnums_cases made
    · exact ⟨bothEnums isEnum, equal isEnum⟩
    · -- The field is answered with the names of the peer, which differ from the ones before.
      have found := congrFun (congrArg SpecAnswers.fieldWithId answers) id
      simp only [Spec.answers] at found
      rw [contents_fieldWithId (by exact asLoaded.tables) here,
        contents_fieldWithId (by rfl) here, Option.map_some, Option.map_some, Option.some_inj] at found
      have names : (merged.1 ⟨.server, id⟩).enumsName.lookup
          = ((MergingServer.start spec).store ⟨.server, id⟩).enumsName.lookup :=
        congrArg FieldAnswers.enumWithName found
      rw [start_field here, after] at names
      rw [enumsAreEqual_of_lookup fun name => (congrFun names name).symm] at differ
      cases differ
  · intro leaves
    have bothEnums : ∀ id field otherField, spec.val.fieldsId.lookup id = some field →
        peer.val.fieldsId.lookup id = some otherField →
        (server.store ⟨.server, id⟩).type.id = P7Type.enum.id →
        otherField.type.id = P7Type.enum.id := by
      intro id field otherField here there isEnum
      rw [asLoaded.field here] at isEnum
      exact (leaves id field otherField here there isEnum).1
    obtain ⟨merged, ran⟩ := (exists_mergeWithSpec_iff spec.property peer.property apart).mpr bothEnums
    have received := receiveSpec_eq_some_iff.mpr ⟨merged, by rwa [asLoaded.tables], rfl⟩
    exact ⟨_, received, (asLoaded.receiveSpec leaves received).answers⟩

/-- The specification of a server answers as it was loaded, whatever prefix of the peers has been merged,
exactly when the enumerations of every peer are equal to the ones that the server has under their
ids.
-/
theorem answersAsLoaded_iff (spec : LoadedSpec) (peers : List LoadedSpec)
    : (∀ seen, seen <+: peers →
        ∃ server, Machine.run MergingServer.receiveSpec seen (.start spec) = some server
          ∧ server.AnswersAsLoaded spec)
      ↔ ∀ peer ∈ peers, spec.val.LeavesEnums peer := by
  have started : (MergingServer.start spec).AsLoaded spec := ⟨rfl, fun _ _ => rfl⟩
  exact Machine.throughout_iff (fun _ asLoaded => asLoaded.answers)
    (fun _ _ asLoaded => asLoaded.receiveSpec_iff)
    (fun _ _ _ leaves asLoaded received => asLoaded.receiveSpec leaves received) started peers

/-- A document whose only field is an enumeration. -/
def enumDocument (enums : List (String × String)) : XmlNode :=
  .element "protocol" [("name", "Status"), ("version", "1.0")]
    [.element "fields" [] [fieldNode "status.state" "enum" "1000" enums]]

/-- Whether the specification of a peer can be merged and lacks names of the server's enumeration. -/
def mergesFewerEnums (spec peer : Spec) : Bool :=
  let store := (Store.start.load .server spec).load (.peer 0) peer
  let merged := (peer.object (.peer 0)).mergeWithSpec store (spec.object .server)
  merged.isSome
    && match spec.fieldsId.lookup 1000, peer.fieldsId.lookup 1000 with
      | some field, some otherField =>
          field.type.id = P7Type.enum.id && !enumsAreEqual field.enumsName otherField.enumsName
      | _, _ => false

/-- A compatible peer that does not know a name of an enumeration takes it away from the server. -/
theorem not_answersAsLoaded_fewerEnums
    : ∃ spec peer : LoadedSpec,
      loadSpec (some builtinSpec) .server (enumDocument [("idle", "1"), ("busy", "2")]) = .ok spec.val
        ∧ loadSpec (some builtinSpec) .client (enumDocument [("idle", "1")]) = .ok peer.val
        ∧ spec.val.isCompatibleWithSpec peer = .ok () ∧ peer.val.isCompatibleWithSpec spec = .ok ()
        ∧ ∃ server, Machine.run MergingServer.receiveSpec [peer] (.start spec) = some server
          ∧ ¬server.AnswersAsLoaded spec := by
  have evaluated : (loadSpec (some builtinSpec) .server (enumDocument [("idle", "1"), ("busy", "2")])
      >>= fun spec => loadSpec (some builtinSpec) .client (enumDocument [("idle", "1")])
      >>= fun peer => .ok ((spec.isCompatibleWithSpec peer).isOk
        && (peer.isCompatibleWithSpec spec).isOk && mergesFewerEnums spec peer)) = .ok true := by
    unfold mergesFewerEnums Store.start builtinSpec
    decide +kernel
  obtain ⟨spec, loaded, evaluated⟩ := Fallible.bind_eq_ok.mp evaluated
  obtain ⟨peer, peerLoaded, evaluated⟩ := Fallible.bind_eq_ok.mp evaluated
  have evaluated := Except.ok.inj evaluated
  simp only [Bool.and_eq_true, mergesFewerEnums] at evaluated
  obtain ⟨⟨own, theirs⟩, merges, differ⟩ := evaluated
  obtain ⟨⟨⟩, own⟩ := Fallible.exists_ok_of_isOk own
  obtain ⟨⟨⟩, theirs⟩ := Fallible.exists_ok_of_isOk theirs
  refine ⟨⟨spec, .document loaded⟩, ⟨peer, .document peerLoaded⟩, loaded, peerLoaded, own, theirs,
    ?_⟩
  obtain ⟨merged, ran⟩ := Option.isSome_iff_exists.mp merges
  obtain ⟨next, received⟩ : ∃ next, MergingServer.receiveSpec ⟨peer, .document peerLoaded⟩
      (.start ⟨spec, .document loaded⟩) = some next :=
    ⟨_, receiveSpec_eq_some_iff.mpr ⟨merged, ran, rfl⟩⟩
  refine ⟨next, Machine.run_cons.mpr ⟨next, received, rfl⟩, fun answers => ?_⟩
  split at differ
  · rename_i field otherField here there
    obtain ⟨isEnum, differ⟩ := Bool.and_eq_true_iff.mp differ
    have started : (MergingServer.start ⟨spec, .document loaded⟩).AsLoaded
        ⟨spec, .document loaded⟩ := ⟨rfl, fun _ _ => rfl⟩
    have equal := (started.receiveSpec_iff.mp ⟨_, received, answers⟩) 1000 field otherField here
      there (of_decide_eq_true isEnum)
    rw [equal.2] at differ
    cases differ
  · cases differ

end Merging

end WiredServer.P7
