import WiredServer.Lib.Fallible
import WiredServer.P7.BuiltinSpec

/-! The check whether the specification of a peer is compatible, table by table. It looks at what the
own specification requires; the peer runs the same check on its side.
-/

namespace WiredServer.P7

/-- The answer of a check: the error text of the first difference, which some differences lack. -/
abbrev Compatibility :=
  Except (Option String) Unit

/-- A difference with an error text. -/
abbrev incompatible (text : String) : Compatibility :=
  .error (some text)

/-- `_wi_p7_spec_originator`. -/
def Originator.text : Originator → String
  | .client => "client"
  | .server => "server"
  | .both => "both"

/-- `_wi_p7_spec_reply_count`. -/
def Reply.countText (reply : Reply) : String :=
  if reply.count = -1 then "one or zero times"
  else if reply.count = -2 then "zero or more times"
  else if reply.count = -3 then "one or more times"
  else
    let unit := if reply.count = 1 then "time" else "times"
    s!"{UInt64.ofInt reply.count} {unit}"

/-- The value that an enumeration name is read as: a name that is missing reads as zero. -/
def SpecField.enumValue (field : SpecField) (name : String) : UInt64 :=
  (field.enumsName.lookup name).getD 0

/-- The round of `_wi_p7_spec_message_is_compatible` for an enumeration name. -/
def enumIsCompatible (message : SpecMessage) (field other : SpecField) (name : String)
    : Compatibility :=
  if field.enumValue name ≠ other.enumValue name then
    incompatible
      s!"Enumeration \"{name}\" in parameter \"{field.name}\" in message \"{message.name}\" should have value {field.enumValue name}, but peer has value {other.enumValue name}"
  else .ok ()

/-- The part of the round for a parameter that both messages have. -/
def fieldIsCompatible (message : SpecMessage) (field other : SpecField) : Compatibility :=
  if field.id ≠ other.id then
    incompatible
      s!"Field in parameter \"{field.name}\" in message \"{message.name}\" should have id {field.id}, but peer has id {other.id}"
  else if field.type.id ≠ other.type.id then
    incompatible
      s!"Parameter \"{field.name}\" in message \"{message.name}\" should be of type \"{field.type.name}\", but peer has it as \"{other.type.name}\""
  else if field.type.id = P7Type.enum.id then
    field.enumsName.keys.forM (enumIsCompatible message field other)
  else .ok ()

/-- The round of `_wi_p7_spec_message_is_compatible` for a parameter. -/
def parameterIsCompatible (message : SpecMessage) (parameter : SpecParameter)
    : Option SpecParameter → Compatibility
  | none =>
      if parameter.required then
        incompatible
          s!"Parameter \"{parameter.field.name}\" in message \"{message.name}\" is required, but peer lacks it"
      else .ok ()
  | some other =>
      if parameter.required && !other.required then
        incompatible
          s!"Parameter \"{parameter.field.name}\" in message \"{message.name}\" is required, but peer has it optional"
      else fieldIsCompatible message parameter.field other.field

/-- `_wi_p7_spec_message_is_compatible`. -/
def messageIsCompatible (message other : SpecMessage) : Compatibility :=
  if message.name ≠ other.name then
    incompatible s!"Message should be \"{message.name}\", but peer has \"{other.name}\""
  else if message.id ≠ other.id then
    incompatible s!"Message should have id {message.id}, but peer has id {other.id}"
  else
    message.parametersName.entries.forM fun entry =>
      parameterIsCompatible message entry.2 (other.parametersName.lookup entry.1)

/-- Whether a peer sends a reply as often as it is expected. -/
def countIsCompatible (count other : Int) : Bool :=
  if count = -1 then other = -1
  else if count = -2 then other = -1 || other = -2
  else if count = -3 then other = -3 || other > 0
  else count = other

section Transactions

variable (transaction : Transaction)

/-- `_wi_p7_spec_reply_is_compatible`. -/
def replyIsCompatible (commutativity : Bool) (reply : Reply) : Option Reply → Compatibility
  | none =>
      if reply.required then
        incompatible
          s!"Reply \"{reply.message.name}\" in transaction \"{transaction.message.name}\" is required, but peer lacks it"
      else .ok ()
  | some other =>
      if reply.required && !other.required then
        incompatible
          s!"Reply \"{reply.message.name}\" in transaction \"{transaction.message.name}\" is required, but peer has it optional"
      else if commutativity then .ok ()
      else if !countIsCompatible reply.count other.count then
        incompatible
          s!"Reply \"{reply.message.name}\" in transaction \"{transaction.message.name}\" should be sent {reply.countText}, but peer sends it {other.countText}"
      else messageIsCompatible reply.message other.message

/-- `_wi_p7_spec_replies_are_compatible`, with the replies of the peer from `index` on. A required
reply is compared with the next required one of the peer, any other with the one of its name.
-/
def repliesAreCompatible (commutativity : Bool) (others : List Reply)
    : List Reply → List Reply → Compatibility
  | _, [] => .ok ()
  | rest, reply :: replies =>
      if reply.required then
        match rest.dropWhile fun other => !other.required with
        | [] => do
            replyIsCompatible transaction commutativity reply none
            repliesAreCompatible commutativity others [] replies
        | other :: rest => do
            replyIsCompatible transaction commutativity reply (some other)
            repliesAreCompatible commutativity others rest replies
      else do
        replyIsCompatible transaction commutativity reply
          (others.find? (·.message.name = reply.message.name))
        repliesAreCompatible commutativity others rest replies

mutual

/-- `_wi_p7_spec_andor_is_compatible`. -/
def andorIsCompatible : AndOr → AndOr → Compatibility
  | .group type replies children, .group otherType others otherChildren =>
      if type ≠ otherType then .error none
      else do
        repliesAreCompatible transaction false others others replies
        repliesAreCompatible transaction true replies replies others
        if children.length ≠ otherChildren.length then
          let noun := if children.length = 1 then "child" else "children"
          incompatible
            (s!"Transaction \"{transaction.message.name}\" should have {children.length} {noun}, "
              ++ s!"but peer has {otherChildren.length}")
        else andorsAreCompatible children otherChildren

/-- The children of two groups, one after the other. -/
def andorsAreCompatible : List AndOr → List AndOr → Compatibility
  | child :: children, other :: others => do
      andorIsCompatible child other
      andorsAreCompatible children others
  | _, _ => .ok ()

end

/-- `_wi_p7_spec_transaction_is_compatible`. -/
def transactionIsCompatible : Option Transaction → Compatibility
  | none =>
      if transaction.required then
        incompatible
          s!"Transaction \"{transaction.message.name}\" is required, but peer lacks it"
      else .ok ()
  | some other =>
      if transaction.required && !other.required then
        incompatible
          s!"Transaction \"{transaction.message.name}\" is required, but peer has it optional"
      else if transaction.originator ≠ other.originator then
        incompatible
          s!"Transaction \"{transaction.message.name}\" should be sent by {transaction.originator.text}, but peer sends it by {other.originator.text}"
      else do
        messageIsCompatible transaction.message other.message
        andorIsCompatible transaction transaction.andor other.andor

end Transactions

/-- `_wi_p7_spec_broadcast_is_compatible`, for broadcasts that nothing makes required. -/
def broadcastIsCompatible (broadcast : Broadcast) : Option Broadcast → Compatibility
  | none => .ok ()
  | some other => messageIsCompatible broadcast.message other.message

/-- `wi_p7_spec_is_compatible_with_spec`. -/
def Spec.isCompatibleWithSpec (spec other : Spec) : Compatibility := do
  spec.transactionsName.entries.forM fun entry =>
    transactionIsCompatible entry.2 (other.transactionsName.lookup entry.1)
  spec.broadcastsName.entries.forM fun entry =>
    broadcastIsCompatible entry.2 (other.broadcastsName.lookup entry.1)

end WiredServer.P7
