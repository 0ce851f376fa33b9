import WiredServer.Lib.AssociationLists
import WiredServer.P7.EnumTables

/-! Specifications as they are in memory. Their tables refer to field objects, which stand in a store
and which the tables of a copy share with the original. Merging a peer's specification into a copy
enters the peer's messages and fields into the tables of the copy, and writes enumerations into
the field objects.
-/

namespace WiredServer.P7

open AssociationLists

-----------------------------------------------------------------------------------------
-- Objects
-----------------------------------------------------------------------------------------

/-- Where a field object comes from: the builtin specification, the one of the server, or the one that a
peer has sent.
-/
inductive Owner where
  | builtin | server
  | peer (number : ℕ)
deriving DecidableEq, Repr

/-- A field object: the one that was made when a specification loaded the field with an id. -/
structure FieldRef where
  owner : Owner
  id : UInt64
deriving DecidableEq, Repr

/-- The contents of the field objects. No table refers to an object that has not been made. -/
abbrev Store :=
  FieldRef → SpecField

/-- A parameter of a message (`wi_p7_spec_parameter_t`). -/
structure ParameterObject where
  field : FieldRef
  required : Bool

/-- A message (`wi_p7_spec_message_t`). -/
structure MessageObject where
  name : String
  id : UInt64
  parametersName : Dictionary String ParameterObject
  parametersId : Dictionary UInt64 ParameterObject
  requiredParameters : ℕ

/-- A specification (`wi_p7_spec_t`). What a merge neither reads nor writes (its name, collections,
types, transactions and broadcasts) is kept as it was loaded.
-/
structure SpecObject where
  loaded : Spec
  messagesName : Dictionary String MessageObject
  messagesId : Dictionary UInt64 MessageObject
  fieldsName : Dictionary String FieldRef
  fieldsId : Dictionary UInt64 FieldRef

/-- The contents of an object that has not been made. -/
def blankField : SpecField where
  name := ""
  id := 0
  type := { name := "", id := 0, size := 0 }
  listtype := none
  enumsName := ∅
  enumsValue := ∅

namespace Spec

variable (spec : Spec) (owner : Owner)

/-- The object of a field that a specification uses: its own, or else a builtin one. -/
def fieldRef (field : SpecField) : FieldRef :=
  if (spec.fieldsId.lookup field.id).isSome then ⟨owner, field.id⟩ else ⟨.builtin, field.id⟩

/-- The object of a parameter. -/
def parameterObject (parameter : SpecParameter) : ParameterObject where
  field := spec.fieldRef owner parameter.field
  required := parameter.required

/-- The object of a message. -/
def messageObject (message : SpecMessage) : MessageObject where
  name := message.name
  id := message.id
  parametersName := mapValues (spec.parameterObject owner) message.parametersName
  parametersId := mapValues (spec.parameterObject owner) message.parametersId
  requiredParameters := message.requiredParameters

/-- The objects that loading a specification makes. -/
def object : SpecObject where
  loaded := spec
  messagesName := mapValues (spec.messageObject owner) spec.messagesName
  messagesId := mapValues (spec.messageObject owner) spec.messagesId
  fieldsName := mapValues (spec.fieldRef owner) spec.fieldsName
  fieldsId := mapValues (fun field => ⟨owner, field.id⟩) spec.fieldsId

end Spec

/-- The store after a specification has been loaded. -/
def Store.load (store : Store) (owner : Owner) (spec : Spec) : Store :=
  fun ref => if ref.owner = owner then (spec.fieldsId.lookup ref.id).getD blankField else store ref

/-- The store with the builtin specification. -/
def Store.start : Store :=
  Store.load (fun _ => blankField) .builtin builtinSpec

-----------------------------------------------------------------------------------------
-- Contents
-----------------------------------------------------------------------------------------

section Contents

variable (store : Store)

/-- What a parameter object stands for. -/
def ParameterObject.contents (parameter : ParameterObject) : SpecParameter where
  field := store parameter.field
  required := parameter.required

/-- What a message object stands for. -/
def MessageObject.contents (message : MessageObject) : SpecMessage where
  name := message.name
  id := message.id
  parametersName := mapValues (·.contents store) message.parametersName
  parametersId := mapValues (·.contents store) message.parametersId
  requiredParameters := message.requiredParameters

/-- What the objects of a specification stand for. -/
def SpecObject.contents (spec : SpecObject) : Spec :=
  {
    spec.loaded with
    messagesName := mapValues (·.contents store) spec.messagesName
    messagesId := mapValues (·.contents store) spec.messagesId
    fieldsName := mapValues store spec.fieldsName
    fieldsId := mapValues store spec.fieldsId
  }

end Contents

-----------------------------------------------------------------------------------------
-- Merging
-----------------------------------------------------------------------------------------

/-- `_wi_dictionary_is_equal` of two tables from names to values: as many entries, and for every entry
of the first one its value in the second one, where a name that is missing reads as zero.
-/
def enumsAreEqual (names others : Dictionary String UInt64) : Bool :=
  names.entries.length = others.entries.length
    && names.entries.all fun entry => entry.2 = (others.lookup entry.1).getD 0

section Merging

variable (other : SpecObject)

/-- The round of `wi_p7_spec_merge_with_spec` for a message of the other specification. -/
def mergeMessage (spec : SpecObject) (id : UInt64) : SpecObject :=
  match spec.messagesId.lookup id, other.messagesId.lookup id with
  | none, some message =>
      {
        spec with
        messagesId := spec.messagesId.insert message.id message
        messagesName := spec.messagesName.insert message.name message
      }
  | _, _ => spec

/-- What the round of `wi_p7_spec_merge_with_spec` for a field makes of a field that both have. A field
that is no enumeration has no tables, so that replacing the ones of an enumeration by them ends
the server.
-/
def SpecField.mergeEnums (field otherField : SpecField) : Option SpecField :=
  if field.type.id = P7Type.enum.id then
    if otherField.type.id ≠ P7Type.enum.id then none
    else if enumsAreEqual field.enumsName otherField.enumsName then some field
    else
      some {
        field with
        enumsName := otherField.enumsName
        enumsValue := otherField.enumsValue
      }
  else some field

/-- The round of `wi_p7_spec_merge_with_spec` for a field of the other specification. -/
def mergeField (state : Store × SpecObject) (id : UInt64) : Option (Store × SpecObject) :=
  let (store, spec) := state
  match spec.fieldsId.lookup id, other.fieldsId.lookup id with
  | some ref, some otherRef =>
      ((store ref).mergeEnums (store otherRef)).map fun merged =>
        (Function.update store ref merged, spec)
  | none, some otherRef =>
      let otherField := store otherRef
      some (store, {
        spec with
        fieldsId := spec.fieldsId.insert otherField.id otherRef
        fieldsName := spec.fieldsName.insert otherField.name otherRef
      })
  | _, none => some (store, spec)

/-- `wi_p7_spec_merge_with_spec`: the store and the specification after it, unless it ends the
server. -/
def SpecObject.mergeWithSpec (store : Store) (spec : SpecObject) : Option (Store × SpecObject) :=
  other.fieldsId.keys.foldlM (mergeField other)
    (store, other.messagesId.keys.foldl (mergeMessage other) spec)

end Merging

end WiredServer.P7
