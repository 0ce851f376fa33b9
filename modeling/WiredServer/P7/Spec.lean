import Mathlib
import WiredServer.Base.XmlTree

/-! P7 specifications and the loader that builds them from an XML document.
The tables of a specification are dictionaries. The ones keyed by name and by id are separate
objects, as in the source, and only the loader keeps them in agreement.
-/

namespace WiredServer.P7

/-- A finite map; setting a key replaces its previous value. -/
abbrev Dictionary (κ ν : Type) := AList fun _ : κ => ν

/-- The value types of the protocol (`wi_p7_type_t`). -/
inductive P7Type where
  | bool | enum | int32 | uint32 | int64 | uint64 | double | string | uuid | date | data
  | oobdata | list
deriving DecidableEq, Repr

/-- The number of a value type. -/
def P7Type.id : P7Type → UInt64
  | .bool => 1
  | .enum => 2
  | .int32 => 3
  | .uint32 => 4
  | .int64 => 5
  | .uint64 => 6
  | .double => 7
  | .string => 8
  | .uuid => 9
  | .date => 10
  | .data => 11
  | .oobdata => 12
  | .list => 13

/-- All value types in the order of their numbers. -/
def P7Type.all : List P7Type :=
  [.bool, .enum, .int32, .uint32, .int64, .uint64, .double, .string, .uuid, .date, .data,
    .oobdata, .list]

/-- The value type with the given number. -/
def P7Type.ofId (id : UInt64) : Option P7Type :=
  P7Type.all.find? fun type => type.id = id

/-- The number of a value type determines it. -/
@[simp] theorem P7Type.ofId_id (type : P7Type) : P7Type.ofId type.id = some type := by
  cases type <;> decide

-----------------------------------------------------------------------------------------
-- Data model
-----------------------------------------------------------------------------------------

/-- A type of a specification (`wi_p7_spec_type_t`); size zero marks a length-prefixed value. -/
structure SpecType where
  name : String
  id : UInt64
  size : UInt64
deriving DecidableEq

/-- A field of a specification (`wi_p7_spec_field_t`). -/
structure SpecField where
  name : String
  id : UInt64
  type : SpecType
  listtype : Option SpecType
  enumsName : Dictionary String UInt64
  enumsValue : Dictionary UInt64 String
deriving DecidableEq

/-- `wi_p7_spec_field_size`. -/
def SpecField.size (field : SpecField) : UInt64 :=
  field.type.size

/-- A named group of fields (`_wi_p7_spec_collection_t`). -/
structure Collection where
  name : String
  fields : List SpecField

/-- The use of a field in a message (`wi_p7_spec_parameter_t`). -/
structure SpecParameter where
  field : SpecField
  required : Bool

/-- A message of a specification (`wi_p7_spec_message_t`). -/
structure SpecMessage where
  name : String
  id : UInt64
  parametersName : Dictionary String SpecParameter
  parametersId : Dictionary UInt64 SpecParameter
  requiredParameters : Nat

/-- The side that starts a transaction (`wi_p7_originator_t`). -/
inductive Originator where
  | client | server | both
deriving DecidableEq, Repr

/-- A reply of a transaction (`_wi_p7_spec_reply_t`). The counts -1, -2 and -3 stand for
`?`, `*` and `+`.
-/
structure Reply where
  message : SpecMessage
  count : Int
  required : Bool

/-- How the parts of a reply group combine (`_wi_p7_spec_andor_type_t`). -/
inductive AndOrType where
  | and | or
deriving DecidableEq, Repr

/-- A group of replies (`_wi_p7_spec_andor_t`). The dictionary of the source holds the same
replies as its array, keyed by message name.
-/
inductive AndOr where
  | group (type : AndOrType) (replies : List Reply) (children : List AndOr)

/-- A transaction of a specification (`_wi_p7_spec_transaction_t`). -/
structure Transaction where
  message : SpecMessage
  originator : Originator
  required : Bool
  andor : AndOr

/-- A broadcast of a specification (`_wi_p7_spec_broadcast_t`), never required. -/
structure Broadcast where
  message : SpecMessage

/-- A specification (`wi_p7_spec_t`). -/
structure Spec where
  name : String
  version : String
  originator : Originator
  messagesName : Dictionary String SpecMessage
  messagesId : Dictionary UInt64 SpecMessage
  fieldsName : Dictionary String SpecField
  fieldsId : Dictionary UInt64 SpecField
  collectionsName : Dictionary String Collection
  typesName : Dictionary String SpecType
  typesId : Dictionary UInt64 SpecType
  transactionsName : Dictionary String Transaction
  broadcastsName : Dictionary String Broadcast

/-- `_wi_p7_spec_init`: a specification without any contents. -/
def Spec.empty (name version : String) (originator : Originator) : Spec where
  name
  version
  originator
  messagesName := ∅
  messagesId := ∅
  fieldsName := ∅
  fieldsId := ∅
  collectionsName := ∅
  typesName := ∅
  typesId := ∅
  transactionsName := ∅
  broadcastsName := ∅

/-- Why a document is no specification. -/
inductive LoadError where
  /-- The loader rejects the document with this text. -/
  | invalidSpec (text : String)
  /-- The loader formats a number as if it were an instance and crashes. -/
  | badFormatArgument
deriving DecidableEq, Repr

/-- Rejects the document with a text. -/
abbrev invalidSpec {α : Type} (text : String) : Except LoadError α :=
  .error (.invalidSpec text)

/-- `wi_string_case_insensitive_compare` returning zero. -/
def caseInsensitiveEqual (left right : String) : Bool :=
  left.toList.map Char.toLower == right.toList.map Char.toLower

/-- The meaning of a `use` attribute, which may be missing; `invalid` is the text for an
unknown use.
-/
def requiredUse (node : XmlNode) (invalid : String → String) : Except LoadError Bool :=
  match node.attributeWithName "use" with
  | none => .ok false
  | some use =>
      if caseInsensitiveEqual use "required" || caseInsensitiveEqual use "optional" then
        .ok (caseInsensitiveEqual use "required")
      else invalidSpec (invalid use)

-----------------------------------------------------------------------------------------
-- Resolution of names while loading
-----------------------------------------------------------------------------------------

section Loading

/- The builtin specification, absent only while it is loaded itself, and the specification
loaded so far.
-/
variable (builtin : Option Spec) (spec : Spec)

/-- The type a name stands for: an own type before a builtin one. -/
def resolveType (name : String) : Option SpecType :=
  (spec.typesName.lookup name).or (builtin.bind fun known => known.typesName.lookup name)

/-- The field a name stands for: an own field before a builtin one. -/
def resolveField (name : String) : Option SpecField :=
  (spec.fieldsName.lookup name).or (builtin.bind fun known => known.fieldsName.lookup name)

/-- The message a name stands for: an own message before a builtin one. -/
def resolveMessage (name : String) : Option SpecMessage :=
  (spec.messagesName.lookup name).or (builtin.bind fun known => known.messagesName.lookup name)

-----------------------------------------------------------------------------------------
-- Types
-----------------------------------------------------------------------------------------

/-- `_wi_p7_spec_type_with_node`. -/
def typeWithNode (node : XmlNode) : Except LoadError SpecType :=
  match node.attributeWithName "name" with
  | none => invalidSpec "Type has no \"name\""
  | some name =>
      let id := node.integerAttributeWithName "id"
      if id = 0 then invalidSpec s!"Type \"{name}\" has no \"id\""
      else .ok { name, id, size := node.integerAttributeWithName "size" }

/-- One round of `_wi_p7_spec_load_types`. The text for a repeated id passes its name and id
in the wrong order, so the id is followed as a pointer.
-/
def loadType (node : XmlNode) : Except LoadError Spec := do
  if node.name ≠ "type" then
    invalidSpec s!"Expected \"type\" node but got \"{node.name}\""
  else
    let type ← typeWithNode node
    if (spec.typesName.lookup type.name).isSome then
      invalidSpec s!"Type with name \"{type.name}\" already exists"
    else if (spec.typesId.lookup type.id).isSome then
      .error .badFormatArgument
    else
      .ok {
        spec with
        typesName := spec.typesName.insert type.name type
        typesId := spec.typesId.insert type.id type
      }

-----------------------------------------------------------------------------------------
-- Fields
-----------------------------------------------------------------------------------------

/-- One round over the children of a field. A name that is already bound to the value zero
does not count as present, because its entry is the null pointer.
-/
def loadEnum (field : SpecField) (node : XmlNode) : Except LoadError SpecField :=
  if node.name = "documentation" then .ok field
  else if field.type.id ≠ P7Type.enum.id then
    invalidSpec s!"Expected no more nodes but got \"{node.name}\""
  else if node.name ≠ "enum" then
    invalidSpec s!"Expected \"enum\" node but got \"{node.name}\""
  else
    match node.attributeWithName "name" with
    | none => invalidSpec s!"Field \"{field.name}\" enum has no \"name\""
    | some name =>
        let value := node.integerAttributeWithName "value"
        if (field.enumsName.lookup name).any (· ≠ 0) then
          invalidSpec s!"Enum with name \"{name}\" in field \"{field.name}\" already exists"
        else if (field.enumsValue.lookup value).isSome then
          invalidSpec
            s!"Enum with value {value} (name \"{name}\") in field \"{field.name}\" already exists"
        else
          .ok {
            field with
            enumsName := field.enumsName.insert name value
            enumsValue := field.enumsValue.insert value name
          }

/-- The list type of a field, when its node names one. -/
def listtypeWithNode (fieldName : String) (node : XmlNode)
    : Except LoadError (Option SpecType) :=
  match node.attributeWithName "listtype" with
  | none => .ok none
  | some listtype =>
      match resolveType builtin spec listtype with
      | none =>
          invalidSpec s!"Field \"{fieldName}\" has an invalid \"listtype\" (\"{listtype}\")"
      | some type => .ok (some type)

/-- `_wi_p7_spec_field_with_node`. -/
def fieldWithNode (node : XmlNode) : Except LoadError SpecField := do
  match node.attributeWithName "name" with
  | none => invalidSpec "Field has no \"name\""
  | some name =>
      match node.attributeWithName "type" with
      | none => invalidSpec s!"Field \"{name}\" has no \"type\""
      | some typeName =>
          match resolveType builtin spec typeName with
          | none => invalidSpec s!"Field \"{name}\" has an invalid \"type\" (\"{typeName}\")"
          | some type =>
              let listtype ← listtypeWithNode builtin spec name node
              let id := node.integerAttributeWithName "id"
              if id = 0 then invalidSpec s!"Field \"{name}\" has no \"id\""
              else
                node.children.foldlM loadEnum
                  { name, id, type, listtype, enumsName := ∅, enumsValue := ∅ }

/-- One round of `_wi_p7_spec_load_fields`. -/
def loadField (node : XmlNode) : Except LoadError Spec := do
  if node.name ≠ "field" then
    invalidSpec s!"Expected \"field\" node but got \"{node.name}\""
  else
    let field ← fieldWithNode builtin spec node
    if (spec.fieldsName.lookup field.name).isSome then
      invalidSpec s!"Field with name \"{field.name}\" already exists"
    else if (spec.fieldsId.lookup field.id).isSome then
      invalidSpec s!"Field with id {field.id} (name \"{field.name}\") already exists"
    else if (builtin.bind fun known => known.fieldsName.lookup field.name).isSome then
      invalidSpec s!"Field with name \"{field.name}\" already exists"
    else if (builtin.bind fun known => known.fieldsId.lookup field.id).isSome then
      invalidSpec s!"Field with id {field.id} (name \"{field.name}\") already exists"
    else
      .ok {
        spec with
        fieldsName := spec.fieldsName.insert field.name field
        fieldsId := spec.fieldsId.insert field.id field
      }

-----------------------------------------------------------------------------------------
-- Collections
-----------------------------------------------------------------------------------------

/-- One round over the children of a collection. -/
def loadMember (collection : Collection) (node : XmlNode) : Except LoadError Collection :=
  if node.name = "documentation" then .ok collection
  else if node.name ≠ "member" then
    invalidSpec s!"Expected \"member\" node but got \"{node.name}\""
  else
    match node.attributeWithName "field" with
    | none => invalidSpec s!"Member in collection \"{collection.name}\" has no \"field\""
    | some fieldName =>
        match resolveField builtin spec fieldName with
        | none =>
            invalidSpec
              s!"Member in collection \"{collection.name}\" has an invalid \"field\" (\"{fieldName}\")"
        | some field => .ok { collection with fields := collection.fields ++ [field] }

/-- `_wi_p7_spec_collection_with_node`. -/
def collectionWithNode (node : XmlNode) : Except LoadError Collection :=
  match node.attributeWithName "name" with
  | none => invalidSpec "Collection has no \"name\""
  | some name => node.children.foldlM (loadMember builtin spec) { name, fields := [] }

/-- One round of `_wi_p7_spec_load_collections`. -/
def loadCollection (node : XmlNode) : Except LoadError Spec := do
  if node.name ≠ "collection" then
    invalidSpec s!"Expected \"collection\" node but got \"{node.name}\""
  else
    let collection ← collectionWithNode builtin spec node
    if (spec.collectionsName.lookup collection.name).isSome then
      invalidSpec s!"Collection with name \"{collection.name}\" already exists"
    else
      .ok {
        spec with
        collectionsName := spec.collectionsName.insert collection.name collection
      }

-----------------------------------------------------------------------------------------
-- Messages
-----------------------------------------------------------------------------------------

/-- `_wi_p7_spec_parameter_with_node`. -/
def parameterWithNode (messageName : String) (node : XmlNode)
    : Except LoadError SpecParameter := do
  match node.attributeWithName "field" with
  | none => invalidSpec s!"Parameter in message \"{messageName}\" has no \"field\""
  | some fieldName =>
      match resolveField builtin spec fieldName with
      | none =>
          invalidSpec
            s!"Parameter in message \"{messageName}\" has an invalid \"field\" (\"{fieldName}\")"
      | some field =>
          let required ← requiredUse node fun use =>
            s!"Parameter \"{field.name}\" in message \"{messageName}\" has an invalid \"use\" (\"{use}\")"
          .ok { field, required }

/-- Adds a parameter to a message, which may not have its field already. -/
def addParameter (message : SpecMessage) (parameter : SpecParameter)
    : Except LoadError SpecMessage :=
  if (message.parametersName.lookup parameter.field.name).isSome then
    invalidSpec s!"Message \"{message.name}\" has a duplicate field \"{parameter.field.name}\""
  else
    .ok {
      message with
      parametersName := message.parametersName.insert parameter.field.name parameter
      parametersId := message.parametersId.insert parameter.field.id parameter
      requiredParameters :=
        if parameter.required then message.requiredParameters + 1
        else message.requiredParameters
    }

/-- One round over the children of a message: a single field or a whole collection. -/
def loadParameter (message : SpecMessage) (node : XmlNode)
    : Except LoadError SpecMessage := do
  if node.name = "documentation" then .ok message
  else if node.name ≠ "parameter" then
    invalidSpec s!"Expected \"parameter\" node but got \"{node.name}\""
  else if (node.attributeWithName "field").isSome then
    let parameter ← parameterWithNode builtin spec message.name node
    addParameter message parameter
  else
    match node.attributeWithName "collection" with
    | some collectionName =>
        match spec.collectionsName.lookup collectionName with
        | none =>
            invalidSpec
              s!"Parameter in message \"{message.name}\" has an invalid \"collection\" (\"{collectionName}\")"
        | some collection =>
            let required ← requiredUse node fun use =>
              s!"Parameter \"{collectionName}\" in message \"{message.name}\" has an invalid \"use\" (\"{use}\")"
            collection.fields.foldlM
              (fun message field => addParameter message { field, required }) message
    | none =>
        invalidSpec s!"Parameter in message \"{message.name}\" has no \"field\" or \"collection\""

/-- `_wi_p7_spec_message_with_node`. -/
def messageWithNode (node : XmlNode) : Except LoadError SpecMessage :=
  match node.attributeWithName "name" with
  | none => invalidSpec "Message has no name"
  | some name =>
      let id := node.integerAttributeWithName "id"
      if id = 0 then invalidSpec s!"Message \"{name}\" has no \"id\""
      else
        node.children.foldlM (loadParameter builtin spec)
          { name, id, parametersName := ∅, parametersId := ∅, requiredParameters := 0 }

/-- One round of `_wi_p7_spec_load_messages`. -/
def loadMessage (node : XmlNode) : Except LoadError Spec := do
  if node.name ≠ "message" then
    invalidSpec s!"Expected \"message\" node but got \"{node.name}\""
  else
    let message ← messageWithNode builtin spec node
    if (spec.messagesName.lookup message.name).isSome then
      invalidSpec s!"Message with name \"{message.name}\" already exists"
    else if (spec.messagesId.lookup message.id).isSome then
      invalidSpec s!"Message with id {message.id} (name \"{message.name}\") already exists"
    else if (builtin.bind fun known => known.messagesName.lookup message.name).isSome then
      invalidSpec s!"Message with name \"{message.name}\" already exists"
    else if (builtin.bind fun known => known.messagesId.lookup message.id).isSome then
      invalidSpec s!"Message with id {message.id} (name \"{message.name}\") already exists"
    else
      .ok {
        spec with
        messagesName := spec.messagesName.insert message.name message
        messagesId := spec.messagesId.insert message.id message
      }

-----------------------------------------------------------------------------------------
-- Transactions and broadcasts
-----------------------------------------------------------------------------------------

/-- The number of replies a `count` attribute asks for. -/
def replyCount (count : String) : Int :=
  if count = "?" then -1
  else if count = "*" then -2
  else if count = "+" then -3
  else stringInteger count

/-- `_wi_p7_spec_reply_with_node`. -/
def replyWithNode (transaction : String) (node : XmlNode) : Except LoadError Reply := do
  match node.attributeWithName "message" with
  | none => invalidSpec s!"Reply in transaction \"{transaction}\" has no \"message\""
  | some messageName =>
      match resolveMessage builtin spec messageName with
      | none =>
          invalidSpec
            s!"Reply in transaction \"{transaction}\" has an invalid \"message\" (\"{messageName}\")"
      | some message =>
          let required ← requiredUse node fun use =>
            s!"Reply \"{message.name}\" in transaction \"{transaction}\" has an invalid \"use\" (\"{use}\")"
          match node.attributeWithName "count" with
          | none => invalidSpec s!"Reply in transaction \"{transaction}\" has no \"count\""
          | some count =>
              if replyCount count = 0 then
                invalidSpec
                  s!"Reply in transaction \"{transaction}\" has an invalid \"count\" (\"{count}\")"
              else .ok { message, count := replyCount count, required }

mutual

/-- `_wi_p7_spec_andor`. -/
def andorWithNode (transaction : String) (type : AndOrType)
    : XmlNode → Except LoadError AndOr
  | .element _ _ children => andorWithNodes transaction type [] [] children

/-- The rounds of `_wi_p7_spec_andor` over the children, with the replies and groups found so
far.
-/
def andorWithNodes (transaction : String) (type : AndOrType) (replies : List Reply)
    (groups : List AndOr)
    : List XmlNode → Except LoadError AndOr
  | [] => .ok (.group type replies groups)
  | node :: rest => do
      if node.name = "documentation" then andorWithNodes transaction type replies groups rest
      else if node.name = "reply" then
        let reply ← replyWithNode builtin spec transaction node
        if replies.any (·.message.name = reply.message.name) then
          invalidSpec
            s!"Transaction \"{transaction}\" has a duplicate reply \"{reply.message.name}\""
        else andorWithNodes transaction type (replies ++ [reply]) groups rest
      else if node.name = "and" then
        let child ← andorWithNode transaction .and node
        andorWithNodes transaction type replies (groups ++ [child]) rest
      else if node.name = "or" then
        let child ← andorWithNode transaction .or node
        andorWithNodes transaction type replies (groups ++ [child]) rest
      else invalidSpec s!"Expected \"and\" or \"or\" node but got \"{node.name}\""

end

/-- The side an `originator` attribute names. -/
def originatorWithName (name : String) : Option Originator :=
  if caseInsensitiveEqual name "client" then some .client
  else if caseInsensitiveEqual name "server" then some .server
  else if caseInsensitiveEqual name "both" then some .both
  else none

/-- `_wi_p7_spec_transaction_with_node`. -/
def transactionWithNode (node : XmlNode) : Except LoadError Transaction := do
  match node.attributeWithName "message" with
  | none => invalidSpec "Transaction has no \"message\""
  | some messageName =>
      match resolveMessage builtin spec messageName with
      | none => invalidSpec s!"Transaction has an invalid \"message\" (\"{messageName}\")"
      | some message =>
          match node.attributeWithName "originator" with
          | none => invalidSpec s!"Transaction \"{message.name}\" has no \"originator\""
          | some originatorName =>
              match originatorWithName originatorName with
              | none =>
                  invalidSpec
                    s!"Transaction \"{message.name}\" has an invalid \"originator\" (\"{originatorName}\")"
              | some originator =>
                  let required ← requiredUse node fun use =>
                    s!"Transaction \"{message.name}\" has an invalid \"use\" (\"{use}\")"
                  let andor ← andorWithNode builtin spec message.name .and node
                  .ok { message, originator, required, andor }

/-- One round of `_wi_p7_spec_load_transactions`. -/
def loadTransaction (node : XmlNode) : Except LoadError Spec := do
  if node.name ≠ "transaction" then
    invalidSpec s!"Expected \"transaction\" node but got \"{node.name}\""
  else
    let transaction ← transactionWithNode builtin spec node
    let name := transaction.message.name
    if (spec.transactionsName.lookup name).isSome then
      invalidSpec s!"Transaction with message \"{name}\" already exists"
    else
      .ok {
        spec with
        transactionsName := spec.transactionsName.insert name transaction
      }

/-- `_wi_p7_spec_broadcast_with_node`. -/
def broadcastWithNode (node : XmlNode) : Except LoadError Broadcast :=
  match node.attributeWithName "message" with
  | none => invalidSpec "Broadcast has no \"message\""
  | some messageName =>
      match resolveMessage builtin spec messageName with
      | none => invalidSpec s!"Broadcast has an invalid \"message\" (\"{messageName}\")"
      | some message => .ok { message }

/-- One round of `_wi_p7_spec_load_broadcasts`. -/
def loadBroadcast (node : XmlNode) : Except LoadError Spec := do
  if node.name ≠ "broadcast" then
    invalidSpec s!"Expected \"broadcast\" node but got \"{node.name}\""
  else
    let broadcast ← broadcastWithNode builtin spec node
    let name := broadcast.message.name
    if (spec.broadcastsName.lookup name).isSome then
      invalidSpec s!"Broadcast with message \"{name}\" already exists"
    else
      .ok { spec with broadcastsName := spec.broadcastsName.insert name broadcast }

-----------------------------------------------------------------------------------------
-- Documents
-----------------------------------------------------------------------------------------

/-- One section of a document: each kind is loaded node by node. -/
def loadSection (node : XmlNode) : Except LoadError Spec :=
  if node.name = "documentation" then .ok spec
  else if node.name = "types" then node.children.foldlM loadType spec
  else if node.name = "fields" then node.children.foldlM (loadField builtin) spec
  else if node.name = "collections" then node.children.foldlM (loadCollection builtin) spec
  else if node.name = "messages" then node.children.foldlM (loadMessage builtin) spec
  else if node.name = "transactions" then node.children.foldlM (loadTransaction builtin) spec
  else if node.name = "broadcasts" then node.children.foldlM (loadBroadcast builtin) spec
  else
    invalidSpec
      s!"Expected \"types\", \"fields\", \"collections\", \"messages\", \"transactions\" or \"broadcasts\" node but got \"{node.name}\""

end Loading

/-- `_wi_p7_spec_load_spec` on the root of a document. -/
def loadSpec (builtin : Option Spec) (originator : Originator) (root : XmlNode)
    : Except LoadError Spec := do
  if root.name ≠ "protocol" then
    invalidSpec s!"Expected \"protocol\" node but got \"{root.name}\""
  else
    match root.attributeWithName "name" with
    | none => invalidSpec "Protocol has no \"name\""
    | some name =>
        match root.attributeWithName "version" with
        | none => invalidSpec "Protocol has no \"version\""
        | some version =>
            root.children.foldlM (loadSection builtin) (.empty name version originator)

end WiredServer.P7
