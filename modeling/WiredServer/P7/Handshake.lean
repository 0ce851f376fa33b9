import Mathlib
import WiredServer.Lib.Session
import WiredServer.P7.Message
import WiredServer.P7.Options

/-! The handshake of P7 sockets: the two scripts that connect and accept, from the first message
to the compatibility checks. A frame on the wire shows how its sender protects messages, and a
reader that protects them in another way cannot read it.
-/

namespace WiredServer.P7

open Session

-----------------------------------------------------------------------------------------
-- Messages of the handshake
-----------------------------------------------------------------------------------------

/-- A message by its name and the values of its fields, in the order in which they were set. -/
structure HandshakeMessage where
  name : String
  values : List (String × P7Value)
deriving DecidableEq

namespace HandshakeMessage

/-- `wi_p7_message_with_name`, for the builtin messages. -/
def withName (name : String) : HandshakeMessage where
  name
  values := []

/-- The setter that matches the type of a value, for a field that is not set yet. -/
def set (message : HandshakeMessage) (value : P7Value) (fieldName : String) : HandshakeMessage :=
  { message with values := message.values ++ [(fieldName, value)] }

/-- The value of a field. -/
def valueForName (message : HandshakeMessage) (fieldName : String) : Option P7Value :=
  (message.values.find? fun entry => entry.1 = fieldName).map Prod.snd

/-- `wi_p7_message_get_enum_for_name`. -/
def enumForName (message : HandshakeMessage) (fieldName : String) : Option UInt32 :=
  match message.valueForName fieldName with
  | some (.enum value) => some value
  | _ => none

/-- `wi_p7_message_get_bool_for_name`. -/
def boolForName (message : HandshakeMessage) (fieldName : String) : Option Bool :=
  match message.valueForName fieldName with
  | some (.bool value) => some value
  | _ => none

/-- `wi_p7_message_string_for_name`. -/
def stringForName (message : HandshakeMessage) (fieldName : String) : Option Bytes.Block :=
  match message.valueForName fieldName with
  | some (.string bytes) => some bytes
  | _ => none

/-- `wi_p7_message_data_for_name`. -/
def dataForName (message : HandshakeMessage) (fieldName : String) : Option Bytes.Block :=
  match message.valueForName fieldName with
  | some (.data bytes) => some bytes
  | _ => none

end HandshakeMessage

-----------------------------------------------------------------------------------------
-- Sockets
-----------------------------------------------------------------------------------------

/-- The forms in which messages travel (`wi_p7_serialization_t`). -/
inductive Serialization where
  | binary | xml
deriving DecidableEq, Repr

/-- A session cipher (`wi_cipher_t`). -/
structure Cipher where
  type : CipherType
  key : Bytes.Block
  iv : Option Bytes.Block
deriving DecidableEq

/-- A P7 socket (`wi_p7_socket_t`) during its handshake. The serialization is missing while it
is `WI_P7_UNKNOWN`, and `mergedSpec` is the remote specification that was merged.
-/
structure Socket where
  serialization : Option Serialization
  options : Options
  remoteName : Option Bytes.Block
  remoteVersion : Option Bytes.Block
  userName : Option Bytes.Block
  cipher : Option Cipher
  compressionEnabled : Bool
  checksumEnabled : Bool
  checksumLength : ℕ
  encryptionEnabled : Bool
  localCompatibilityCheck : Bool
  remoteCompatibilityCheck : Bool
  mergedSpec : Option Bytes.Block
deriving DecidableEq

/-- A socket after `wi_p7_socket_init_with_socket`. -/
def Socket.init : Socket where
  serialization := none
  options := 0
  remoteName := none
  remoteVersion := none
  userName := none
  cipher := none
  compressionEnabled := false
  checksumEnabled := false
  checksumLength := 0
  encryptionEnabled := false
  localCompatibilityCheck := false
  remoteCompatibilityCheck := false
  mergedSpec := none

/-- How a socket protects the messages it writes, and expects those it reads to be protected. -/
structure Protection where
  compressed : Bool
  checksum : Option Checksum
  cipher : Option Cipher
deriving DecidableEq

/-- Messages without any protection. -/
def Protection.none : Protection where
  compressed := false
  checksum := .none
  cipher := .none

/-- The protection of a socket. Messages in XML have none. -/
def Socket.protection (socket : Socket) : Protection :=
  if socket.serialization = some .xml then .none
  else
    {
      compressed := socket.compressionEnabled
      checksum := if socket.checksumEnabled then firstChoice Checksum socket.options else none
      cipher := if socket.encryptionEnabled then socket.cipher else none
    }

/-- A message on the wire. -/
structure Frame where
  serialization : Serialization
  protection : Protection
  message : HandshakeMessage
deriving DecidableEq

/-- Why a handshake fails. The expected names are those that the source shows in its errors. -/
inductive HandshakeError where
  /-- A message cannot be written, or none arrives. -/
  | disconnected
  /-- What arrives cannot be read as a message. -/
  | unreadable
  | unexpectedMessage (expected actual : String)
  | missingField (name : String)
  | incompatibleProtocol (version : Bytes.Block)
  /-- A call of the compression, cipher or key libraries fails. -/
  | libraryFailure
  | noRsaKey
  | authenticationFailed
  | unknownUser (userName : Bytes.Block)
  | wrongPassword (userName : Bytes.Block)
  | passwordMismatch
  | invalidSpec
  | incompatibleSpec
deriving DecidableEq

/-- The two ends do not understand each other: what one of them reads is not what the other was
supposed to send.
-/
def HandshakeError.mismatch : HandshakeError → Bool
  | .unreadable => true
  | .unexpectedMessage _ _ => true
  | .missingField _ => true
  | .incompatibleProtocol _ => true
  | _ => false

/-- A part of a handshake. -/
abbrev Dialogue := Script Frame HandshakeError

/-- A message as a socket puts it on the wire. -/
def Socket.frame (socket : Socket) (message : HandshakeMessage) : Frame where
  serialization := socket.serialization.getD .xml
  protection := socket.protection
  message

/-- `wi_p7_socket_write_message`. -/
def Socket.writeMessage (socket : Socket) (message : HandshakeMessage) : Dialogue Unit :=
  .sending (socket.frame message) .disconnected

/-- The serialization of a socket after a read: the first message decides it. -/
def Socket.adopt (socket : Socket) (serialization : Serialization) : Socket :=
  { socket with serialization := some (socket.serialization.getD serialization) }

/-- `wi_p7_socket_read_message`. -/
def Socket.readMessage (socket : Socket) : Dialogue (Socket × HandshakeMessage) := do
  let frame ← Script.receiving .disconnected
  let socket := socket.adopt frame.serialization
  Script.guard
    (socket.serialization = some frame.serialization ∧ frame.protection = socket.protection)
    .unreadable
  pure (socket, frame.message)

/-- Checks the name of a message. -/
def expectMessage (message : HandshakeMessage) (name : String) (shown : String)
    : Dialogue Unit :=
  .guard (message.name = name) (.unexpectedMessage shown message.name)

/-- `_wi_p7_socket_configure_checksum`. -/
def Socket.configureChecksum (socket : Socket) : Socket :=
  {
    socket with
    checksumLength :=
      match firstChoice Checksum socket.options with
      | some checksum => checksum.digestLength
      | none => socket.checksumLength
    checksumEnabled := true
  }

-----------------------------------------------------------------------------------------
-- Surroundings
-----------------------------------------------------------------------------------------

/-- The libraries of keys, ciphers and digests. Encryption takes a random number. -/
structure Crypto (PublicKey PrivateKey : Type) where
  /-- `wi_rsa_public_key`. -/
  publicKeyData : PrivateKey → Bytes.Block
  /-- `wi_rsa_init_with_public_key`. -/
  publicKeyWithData : Bytes.Block → Option PublicKey
  /-- `wi_rsa_encrypt`. -/
  rsaEncrypt : ℕ → PublicKey → Bytes.Block → Option Bytes.Block
  /-- `wi_rsa_decrypt`. -/
  rsaDecrypt : PrivateKey → Bytes.Block → Option Bytes.Block
  /-- Whether the contexts of a cipher can be set up. -/
  cipherWorks : Cipher → Bool
  /-- `wi_cipher_encrypt`. -/
  cipherEncrypt : Cipher → Bytes.Block → Option Bytes.Block
  /-- `wi_cipher_decrypt`. -/
  cipherDecrypt : Cipher → Bytes.Block → Option Bytes.Block
  /-- `wi_data_sha1`, `wi_data_sha256` and `wi_data_sha512`: the digest as a string. -/
  digest : Checksum → Bytes.Block → Bytes.Block

/-- What one end of a connection has besides its socket. -/
structure Endpoint where
  /-- The name of its specification. -/
  name : Bytes.Block
  /-- The version of its specification. -/
  version : Bytes.Block
  /-- Its specification as a document. -/
  xml : Bytes.Block
  /-- Whether a document of the other end is a specification, and then a compatible one. -/
  checkSpecification : Bytes.Block → Option Bool
  /-- Whether the streams of the compression can be set up. -/
  compressionWorks : Bool

/-- What the client has besides. -/
structure Client extends Endpoint where
  options : Options
  serialization : Serialization
  userName : Option Bytes.Block
  password : Option Bytes.Block
  /-- The random key and the initialization vector of a session. -/
  randomKey : CipherType → Bytes.Block × Bytes.Block
  /-- The random numbers of the four encryptions. -/
  randomNumber : Fin 4 → ℕ

/-- What the server has besides. -/
structure Server (PrivateKey : Type) extends Endpoint where
  options : Options
  privateKey : Option PrivateKey
  passwordProvider : Option (Bytes.Block → Option Bytes.Block)

/-- `wi_p7_spec_is_compatible_with_protocol`. -/
def Endpoint.isCompatibleWithProtocol (endpoint : Endpoint) (name version : Bytes.Block) : Bool :=
  endpoint.name = name && endpoint.version = version

/-- The version of the builtin specification, `1.0`. -/
def protocolVersion : Bytes.Block :=
  [49, 46, 48]

-----------------------------------------------------------------------------------------
-- Handshake
-----------------------------------------------------------------------------------------

/-- A handshake message with the fields that both ends always set. -/
def Endpoint.handshake (endpoint : Endpoint) (name : String) : HandshakeMessage :=
  ((HandshakeMessage.withName name).set (.string protocolVersion) "p7.handshake.version"
    |>.set (.string endpoint.name) "p7.handshake.protocol.name")
    |>.set (.string endpoint.version) "p7.handshake.protocol.version"

/-- Sets the enum of the options of one kind, when there are any. -/
def HandshakeMessage.choose (ι : Type) [Choices ι] (message : HandshakeMessage)
    (options : Options) (fieldName : String)
    : HandshakeMessage :=
  if enabled ι options then message.set (.enum (optionsToEnum ι options)) fieldName else message

/-- Sets the enums of options. A message in XML has none. -/
def HandshakeMessage.chooseAll (message : HandshakeMessage)
    (serialization : Option Serialization) (options : Options)
    : HandshakeMessage :=
  if serialization = some .binary then
    ((message.choose Compression options "p7.handshake.compression").choose Encryption options
      "p7.handshake.encryption").choose Checksum options "p7.handshake.checksum"
  else message

/-- Asks the other end for its specification, when that is necessary. -/
def HandshakeMessage.checkCompatibility (message : HandshakeMessage) (check : Bool)
    : HandshakeMessage :=
  if check then message.set (.bool true) "p7.handshake.compatibility_check" else message

/-- Reads what a handshake message tells about the other end, and compares it. -/
def Socket.meet (socket : Socket) (endpoint : Endpoint) (message : HandshakeMessage)
    : Dialogue Socket := do
  let version ← Script.ofOption (.missingField "p7.handshake.version")
    (message.stringForName "p7.handshake.version")
  Script.guard (version = protocolVersion) (.incompatibleProtocol version)
  let name ← Script.ofOption (.missingField "p7.handshake.protocol.name")
    (message.stringForName "p7.handshake.protocol.name")
  let version ← Script.ofOption (.missingField "p7.handshake.protocol.version")
    (message.stringForName "p7.handshake.protocol.version")
  pure
    {
      socket with
      remoteName := some name
      remoteVersion := some version
      localCompatibilityCheck := !endpoint.isCompatibleWithProtocol name version
    }

/-- Whether the other end asks for the specification. -/
def HandshakeMessage.asksForCheck (message : HandshakeMessage) : Bool :=
  (message.boolForName "p7.handshake.compatibility_check").getD false

/-- The options that the client takes from the enum of the server. -/
def HandshakeMessage.chosen (ι : Type) [Choices ι] (message : HandshakeMessage)
    (fieldName : String)
    : Options :=
  match message.enumForName fieldName with
  | some flag => enumToOptions ι flag
  | none => 0

/-- The options that the server takes from the enum of the client: those that it offers too. -/
def HandshakeMessage.shared (ι : Type) [Choices ι] (message : HandshakeMessage)
    (options : Options) (fieldName : String)
    : Options :=
  match message.enumForName fieldName with
  | some flag =>
      let clientOptions := enumToOptions ι flag
      if options &&& clientOptions ≠ 0 then clientOptions else 0
  | none => 0

/-- The options of the client after the handshake of the server. -/
def Socket.chosenOptions (socket : Socket) (message : HandshakeMessage) : Options :=
  if socket.serialization = some .binary then
    socket.options ||| message.chosen Compression "p7.handshake.compression"
      ||| message.chosen Encryption "p7.handshake.encryption"
      ||| message.chosen Checksum "p7.handshake.checksum"
  else socket.options

/-- The options of the server after the handshake of the client. -/
def Socket.sharedOptions (socket : Socket) (options : Options) (message : HandshakeMessage)
    : Options :=
  if socket.serialization = some .binary then
    socket.options ||| message.shared Compression options "p7.handshake.compression"
      ||| message.shared Encryption options "p7.handshake.encryption"
      ||| message.shared Checksum options "p7.handshake.checksum"
  else socket.options

/-- `_wi_p7_socket_connect_handshake`. -/
def connectHandshake (client : Client) (socket : Socket) : Dialogue Socket := do
  socket.writeMessage ((client.handshake "p7.handshake.client_handshake").chooseAll
    socket.serialization client.options)
  let (socket, message) ← socket.readMessage
  expectMessage message "p7.handshake.server_handshake" "p7.handshake.server_handshake"
  let socket ← socket.meet client.toEndpoint message
  let socket := { socket with
    options := socket.chosenOptions message
    remoteCompatibilityCheck := message.asksForCheck }
  socket.writeMessage ((HandshakeMessage.withName "p7.handshake.acknowledge").checkCompatibility
    socket.localCompatibilityCheck)
  pure socket

/-- `_wi_p7_socket_accept_handshake`. -/
def acceptHandshake {PrivateKey : Type} (server : Server PrivateKey) (socket : Socket)
    : Dialogue Socket := do
  let (socket, message) ← socket.readMessage
  expectMessage message "p7.handshake.client_handshake" "p7.handshake.client_handshake"
  let socket ← socket.meet server.toEndpoint message
  let socket := { socket with options := socket.sharedOptions server.options message }
  socket.writeMessage (((server.handshake "p7.handshake.server_handshake").chooseAll
    socket.serialization socket.options).checkCompatibility socket.localCompatibilityCheck)
  let (socket, message) ← socket.readMessage
  expectMessage message "p7.handshake.acknowledge" "p7.handshake.acknowledge"
  pure { socket with remoteCompatibilityCheck := message.asksForCheck }

-----------------------------------------------------------------------------------------
-- Key exchange
-----------------------------------------------------------------------------------------

/-- The digest of the passwords. -/
def passwordDigest (options : Options) : Checksum :=
  (encryptionOptionsToChecksum options).getD .sha1

/-- The value of a data field. -/
def requireData (message : HandshakeMessage) (fieldName : String) : Dialogue Bytes.Block :=
  .ofOption (.missingField fieldName) (message.dataForName fieldName)

section KeyExchange

variable {PublicKey PrivateKey : Type} (crypto : Crypto PublicKey PrivateKey)

/-- Goes on with a result. When there is none, the other end is told that it is not
authenticated, whether that succeeds or not.
-/
def Socket.authenticate {α : Type} (socket : Socket) (failure : HandshakeError)
    : Option α → Dialogue α
  | some value => pure value
  | none =>
      .write (socket.frame (.withName "p7.encryption.authentication_error")) fun _ => .fail failure

/-- The password of a user, as the server knows it. -/
def Server.passwordForUser {PrivateKey : Type} (server : Server PrivateKey)
    (digest : Bytes.Block → Bytes.Block) (userName : Bytes.Block)
    : Option Bytes.Block :=
  match server.passwordProvider with
  | some provider => provider userName
  | none => some (digest [])

/-- The session cipher that the client makes up. -/
def Client.randomCipher (client : Client) (type : CipherType) : Cipher where
  type
  key := (client.randomKey type).1
  iv := some (client.randomKey type).2

/-- `wi_cipher_init_with_key`. -/
def initCipher (options : Options) (key : Bytes.Block) (iv : Option Bytes.Block)
    : Dialogue Cipher := do
  let type ← Script.ofOption .libraryFailure (encryptionOptionsToCipher options)
  let cipher : Cipher := { type, key, iv }
  Script.guard (crypto.cipherWorks cipher) .libraryFailure
  pure cipher

/-- The `p7.encryption.client_key` message of a client. -/
def clientKey (client : Client) (publicKey : PublicKey) (cipher : Cipher)
    (userName clientPassword : Bytes.Block)
    : Dialogue HandshakeMessage := do
  let key ← Script.ofOption .libraryFailure
    (crypto.rsaEncrypt (client.randomNumber 0) publicKey cipher.key)
  let iv ← Script.ofOption .libraryFailure
    (cipher.iv.mapM (crypto.rsaEncrypt (client.randomNumber 1) publicKey))
  let userName ← Script.ofOption .libraryFailure
    (crypto.rsaEncrypt (client.randomNumber 2) publicKey userName)
  let clientPassword ← Script.ofOption .libraryFailure
    (crypto.rsaEncrypt (client.randomNumber 3) publicKey clientPassword)
  let message := (HandshakeMessage.withName "p7.encryption.client_key").set (.data key)
    "p7.encryption.cipher.key"
  let message :=
    match iv with
    | some iv => message.set (.data iv) "p7.encryption.cipher.iv"
    | none => message
  pure ((message.set (.data userName) "p7.encryption.username").set (.data clientPassword)
    "p7.encryption.client_password")

/-- `_wi_p7_socket_connect_key_exchange`. -/
def connectKeyExchange (client : Client) (socket : Socket) : Dialogue Socket := do
  let (socket, message) ← socket.readMessage
  expectMessage message "p7.encryption.server_key" "p7.encryption"
  let rsa ← requireData message "p7.encryption.public_key"
  let publicKey ← Script.ofOption .libraryFailure (crypto.publicKeyWithData rsa)
  let type ← Script.ofOption .libraryFailure (encryptionOptionsToCipher socket.options)
  let cipher := client.randomCipher type
  Script.guard (crypto.cipherWorks cipher) .libraryFailure
  let userName := client.userName.getD []
  let digest := crypto.digest (passwordDigest socket.options)
  let password := client.password.getD (digest [])
  let message ← clientKey crypto client publicKey cipher userName (digest (password ++ rsa))
  socket.writeMessage message
  let (socket, message) ← socket.readMessage
  Script.guard (message.name ≠ "p7.encryption.authentication_error") .authenticationFailed
  expectMessage message "p7.encryption.acknowledge" "p7.encryption.acknowledge"
  let data ← requireData message "p7.encryption.server_password"
  let serverPassword ← Script.ofOption .libraryFailure (crypto.cipherDecrypt cipher data)
  Script.guard (serverPassword = digest (rsa ++ password)) .passwordMismatch
  pure
    { socket with cipher := some cipher, userName := some userName, encryptionEnabled := true }

/-- `_wi_p7_socket_accept_key_exchange`. -/
def acceptKeyExchange (server : Server PrivateKey) (socket : Socket) : Dialogue Socket := do
  let privateKey ← Script.ofOption .noRsaKey server.privateKey
  let rsa := crypto.publicKeyData privateKey
  socket.writeMessage ((HandshakeMessage.withName "p7.encryption.server_key").set (.data rsa)
    "p7.encryption.public_key")
  let (socket, message) ← socket.readMessage
  expectMessage message "p7.encryption.client_key" "p7.encryption.reply"
  let key ← requireData message "p7.encryption.cipher.key"
  let key ← Script.ofOption .libraryFailure (crypto.rsaDecrypt privateKey key)
  let iv ← Script.ofOption .libraryFailure
    ((message.dataForName "p7.encryption.cipher.iv").mapM (crypto.rsaDecrypt privateKey))
  let cipher ← initCipher crypto socket.options key iv
  let userName ← requireData message "p7.encryption.username"
  let userName ← Script.ofOption .libraryFailure (crypto.rsaDecrypt privateKey userName)
  let clientPassword ← requireData message "p7.encryption.client_password"
  let clientPassword ← Script.ofOption .libraryFailure
    (crypto.rsaDecrypt privateKey clientPassword)
  let digest := crypto.digest (passwordDigest socket.options)
  let password ← socket.authenticate (.unknownUser userName)
    (server.passwordForUser digest userName)
  socket.authenticate (.wrongPassword userName)
    (if clientPassword = digest (password ++ rsa) then some () else none)
  let data ← Script.ofOption .libraryFailure
    (crypto.cipherEncrypt cipher (digest (rsa ++ password)))
  socket.writeMessage ((HandshakeMessage.withName "p7.encryption.acknowledge").set (.data data)
    "p7.encryption.server_password")
  pure
    { socket with cipher := some cipher, userName := some userName, encryptionEnabled := true }

end KeyExchange

-----------------------------------------------------------------------------------------
-- Compatibility checks
-----------------------------------------------------------------------------------------

/-- `_wi_p7_socket_send_compatibility_check`. -/
def sendCompatibilityCheck (endpoint : Endpoint) (socket : Socket) : Dialogue Socket := do
  socket.writeMessage ((HandshakeMessage.withName "p7.compatibility_check.specification").set
    (.string endpoint.xml) "p7.compatibility_check.specification")
  let (socket, message) ← socket.readMessage
  expectMessage message "p7.compatibility_check.status" "p7.compatibility_check.status"
  let status ← Script.ofOption (.missingField "p7.compatibility_check.status")
    (message.boolForName "p7.compatibility_check.status")
  Script.guard (status = true) .incompatibleSpec
  pure socket

/-- `_wi_p7_socket_receive_compatibility_check`. -/
def receiveCompatibilityCheck (endpoint : Endpoint) (socket : Socket) : Dialogue Socket := do
  let (socket, message) ← socket.readMessage
  expectMessage message "p7.compatibility_check.specification"
    "p7.compatibility_check.specification"
  let string ← Script.ofOption (.missingField "p7.compatibility_check.specification")
    (message.stringForName "p7.compatibility_check.specification")
  let compatible ← Script.ofOption .invalidSpec (endpoint.checkSpecification string)
  let socket := { socket with mergedSpec := if compatible then some string else socket.mergedSpec }
  socket.writeMessage ((HandshakeMessage.withName "p7.compatibility_check.status").set
    (.bool compatible) "p7.compatibility_check.status")
  Script.guard (compatible = true) .incompatibleSpec
  pure socket

-----------------------------------------------------------------------------------------
-- Connecting and accepting
-----------------------------------------------------------------------------------------

/-- `_wi_p7_socket_configure_compression`. -/
def configureCompression (endpoint : Endpoint) (socket : Socket) : Dialogue Socket := do
  Script.guard (endpoint.compressionWorks = true) .libraryFailure
  pure { socket with compressionEnabled := true }

/-- Runs a part of the handshake under a condition. -/
def Socket.when (socket : Socket) (condition : Bool) (part : Socket → Dialogue Socket)
    : Dialogue Socket :=
  if condition then part socket else pure socket

/-- `wi_p7_socket_connect`. -/
def connect {PublicKey PrivateKey : Type} (crypto : Crypto PublicKey PrivateKey) (client : Client)
    : Dialogue Socket := do
  let socket ← connectHandshake client
    { Socket.init with serialization := some client.serialization }
  let socket ← socket.when (compressionEnabled socket.options)
    (configureCompression client.toEndpoint)
  let socket := if checksumEnabled socket.options then socket.configureChecksum else socket
  let socket ← socket.when (encryptionEnabled socket.options) (connectKeyExchange crypto client)
  let socket ← socket.when socket.remoteCompatibilityCheck
    (sendCompatibilityCheck client.toEndpoint)
  socket.when socket.localCompatibilityCheck (receiveCompatibilityCheck client.toEndpoint)

/-- `wi_p7_socket_accept`. -/
def accept {PublicKey PrivateKey : Type} (crypto : Crypto PublicKey PrivateKey)
    (server : Server PrivateKey)
    : Dialogue Socket := do
  let socket ← acceptHandshake server Socket.init
  let socket ← socket.when (compressionEnabled socket.options)
    (configureCompression server.toEndpoint)
  let socket := if checksumEnabled socket.options then socket.configureChecksum else socket
  let socket ← socket.when (encryptionEnabled socket.options) (acceptKeyExchange crypto server)
  let socket ← socket.when socket.localCompatibilityCheck
    (receiveCompatibilityCheck server.toEndpoint)
  socket.when socket.remoteCompatibilityCheck (sendCompatibilityCheck server.toEndpoint)

end WiredServer.P7
