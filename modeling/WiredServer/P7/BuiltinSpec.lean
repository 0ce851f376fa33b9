import Mathlib
import WiredServer.P7.Spec

/-! The builtin specification with the messages of the handshake, and the lookups of a loaded
specification, which fall back to the builtin one.
-/

namespace WiredServer.P7

-----------------------------------------------------------------------------------------
-- The builtin document
-----------------------------------------------------------------------------------------

/-- A `type` element of the builtin document. -/
def typeNode (name id : String) (size : Option String) : XmlNode :=
  .element "type" ([("name", name), ("id", id)] ++ (size.map fun size => ("size", size)).toList) []

/-- A `field` element of the builtin document, with its enums. -/
def fieldNode (name type id : String) (enums : List (String × String)) : XmlNode :=
  .element "field" [("name", name), ("type", type), ("id", id)]
    (enums.map fun (name, value) => .element "enum" [("name", name), ("value", value)] [])

/-- A `message` element of the builtin document, with its required and optional fields. -/
def messageNode (name id : String) (parameters : List (String × Bool)) : XmlNode :=
  .element "message" [("name", name), ("id", id)]
    (parameters.map fun (field, required) =>
      .element "parameter"
        (("field", field) :: if required then [("use", "required")] else []) [])

/-- A required `transaction` element of the builtin document. -/
def transactionNode (message originator : String) (replies : List XmlNode) : XmlNode :=
  .element "transaction" [("message", message), ("originator", originator), ("use", "required")]
    replies

/-- A required `reply` element of the builtin document. -/
def replyNode (message : String) : XmlNode :=
  .element "reply" [("message", message), ("count", "1"), ("use", "required")] []

/-- The enums of the encryption field: each cipher with each digest. -/
def encryptionEnums : List (String × String) :=
  [
    ("p7.handshake.encryption.rsa_aes128_sha1", "0"),
    ("p7.handshake.encryption.rsa_aes192_sha1", "1"),
    ("p7.handshake.encryption.rsa_aes256_sha1", "2"),
    ("p7.handshake.encryption.rsa_bf128_sha1", "3"),
    ("p7.handshake.encryption.rsa_3des192_sha1", "4"),
    ("p7.handshake.encryption.rsa_aes128_sha256", "5"),
    ("p7.handshake.encryption.rsa_aes192_sha256", "6"),
    ("p7.handshake.encryption.rsa_aes256_sha256", "7"),
    ("p7.handshake.encryption.rsa_bf128_sha256", "8"),
    ("p7.handshake.encryption.rsa_3des192_sha256", "9"),
    ("p7.handshake.encryption.rsa_aes128_sha512", "10"),
    ("p7.handshake.encryption.rsa_aes192_sha512", "11"),
    ("p7.handshake.encryption.rsa_aes256_sha512", "12"),
    ("p7.handshake.encryption.rsa_bf128_sha512", "13"),
    ("p7.handshake.encryption.rsa_3des192_sha512", "14")
  ]

/-- The `types` section of the builtin document. -/
def builtinTypes : List XmlNode :=
  [
    typeNode "bool" "1" "1",
    typeNode "enum" "2" "4",
    typeNode "int32" "3" "4",
    typeNode "uint32" "4" "4",
    typeNode "int64" "5" "8",
    typeNode "uint64" "6" "8",
    typeNode "double" "7" "8",
    typeNode "string" "8" none,
    typeNode "uuid" "9" "16",
    typeNode "date" "10" "8",
    typeNode "data" "11" none,
    typeNode "oobdata" "12" "8",
    typeNode "list" "13" none
  ]

/-- The `fields` section of the builtin document. -/
def builtinFields : List XmlNode :=
  [
    fieldNode "p7.handshake.version" "string" "1" [],
    fieldNode "p7.handshake.protocol.name" "string" "2" [],
    fieldNode "p7.handshake.protocol.version" "string" "3" [],
    fieldNode "p7.handshake.compression" "enum" "4" [("p7.handshake.compression.deflate", "0")],
    fieldNode "p7.handshake.encryption" "enum" "5" encryptionEnums,
    fieldNode "p7.handshake.checksum" "enum" "6"
      [
        ("p7.handshake.checksum.sha1", "0"),
        ("p7.handshake.checksum.sha256", "1"),
        ("p7.handshake.checksum.sha512", "2")
      ],
    fieldNode "p7.handshake.compatibility_check" "bool" "7" [],
    fieldNode "p7.encryption.public_key" "data" "9" [],
    fieldNode "p7.encryption.cipher.key" "data" "10" [],
    fieldNode "p7.encryption.cipher.iv" "data" "11" [],
    fieldNode "p7.encryption.username" "data" "12" [],
    fieldNode "p7.encryption.client_password" "data" "13" [],
    fieldNode "p7.encryption.server_password" "data" "14" [],
    fieldNode "p7.compatibility_check.specification" "string" "15" [],
    fieldNode "p7.compatibility_check.status" "bool" "16" []
  ]

/-- The `messages` section of the builtin document. -/
def builtinMessages : List XmlNode :=
  [
    messageNode "p7.handshake.client_handshake" "1"
      [
        ("p7.handshake.version", true),
        ("p7.handshake.protocol.name", true),
        ("p7.handshake.protocol.version", true),
        ("p7.handshake.encryption", false),
        ("p7.handshake.compression", false),
        ("p7.handshake.checksum", false)
      ],
    messageNode "p7.handshake.server_handshake" "2"
      [
        ("p7.handshake.version", true),
        ("p7.handshake.protocol.name", true),
        ("p7.handshake.protocol.version", true),
        ("p7.handshake.encryption", false),
        ("p7.handshake.compression", false),
        ("p7.handshake.checksum", false),
        ("p7.handshake.compatibility_check", false)
      ],
    messageNode "p7.handshake.acknowledge" "3" [("p7.handshake.compatibility_check", false)],
    messageNode "p7.encryption.server_key" "4" [("p7.encryption.public_key", true)],
    messageNode "p7.encryption.client_key" "5"
      [
        ("p7.encryption.cipher.key", true),
        ("p7.encryption.cipher.iv", false),
        ("p7.encryption.username", true),
        ("p7.encryption.client_password", true)
      ],
    messageNode "p7.encryption.acknowledge" "6" [("p7.encryption.server_password", true)],
    messageNode "p7.encryption.authentication_error" "7" [],
    messageNode "p7.compatibility_check.specification" "8"
      [("p7.compatibility_check.specification", true)],
    messageNode "p7.compatibility_check.status" "9" [("p7.compatibility_check.status", true)]
  ]

/-- The `transactions` section of the builtin document. -/
def builtinTransactions : List XmlNode :=
  [
    transactionNode "p7.handshake.client_handshake" "client"
      [replyNode "p7.handshake.server_handshake"],
    transactionNode "p7.handshake.server_handshake" "server"
      [replyNode "p7.handshake.acknowledge"],
    transactionNode "p7.encryption.server_key" "server" [replyNode "p7.encryption.client_key"],
    transactionNode "p7.encryption.client_key" "client"
      [
        .element "or" []
          [
            replyNode "p7.encryption.acknowledge",
            replyNode "p7.encryption.authentication_error"
          ]
      ],
    transactionNode "p7.compatibility_check.specification" "both"
      [replyNode "p7.compatibility_check.status"]
  ]

/-- The document `_wi_p7_spec_builtin`. -/
def builtinDocument : XmlNode :=
  .element "protocol" [("name", "P7"), ("version", "1.0")]
    [
      .element "types" [] builtinTypes,
      .element "fields" [] builtinFields,
      .element "messages" [] builtinMessages,
      .element "transactions" [] builtinTransactions
    ]

/-- The builtin specification: what the loader makes of the builtin document. -/
@[irreducible] def builtinSpec : Spec :=
  match loadSpec none .both builtinDocument with
  | .ok spec => spec
  | .error _ => .empty "P7" "1.0" .both

/-- The builtin document loads. -/
theorem builtinSpec_loaded : loadSpec none .both builtinDocument = .ok builtinSpec := by
  have loads : (loadSpec none .both builtinDocument).isOk = true := by decide +kernel
  unfold builtinSpec
  cases result : loadSpec none .both builtinDocument with
  | ok spec => rfl
  | error reason => simp [result, Except.isOk, Except.toBool] at loads

-----------------------------------------------------------------------------------------
-- Lookups in a loaded specification
-----------------------------------------------------------------------------------------

namespace Spec

/-- The specifications that a program can hold: the builtin one, and those loaded from a file
or a string after it.
-/
inductive Loaded : Spec → Prop where
  | builtin : Loaded builtinSpec
  | document {originator : Originator} {root : XmlNode} {spec : Spec}
      (loaded : loadSpec (some builtinSpec) originator root = .ok spec) : Loaded spec

variable (spec : Spec)

/-- `wi_p7_spec_field_with_name`. -/
def fieldWithName (name : String) : Option SpecField :=
  (spec.fieldsName.lookup name).or (builtinSpec.fieldsName.lookup name)

/-- `wi_p7_spec_field_with_id`. -/
def fieldWithId (id : UInt64) : Option SpecField :=
  (spec.fieldsId.lookup id).or (builtinSpec.fieldsId.lookup id)

/-- `wi_p7_spec_message_with_name`. -/
def messageWithName (name : String) : Option SpecMessage :=
  (spec.messagesName.lookup name).or (builtinSpec.messagesName.lookup name)

/-- `wi_p7_spec_message_with_id`. -/
def messageWithId (id : UInt64) : Option SpecMessage :=
  (spec.messagesId.lookup id).or (builtinSpec.messagesId.lookup id)

end Spec

end WiredServer.P7
