import Mathlib
import WiredServer.P7.Handshake

/-! The protocol of the handshake, and that the connecting and the accepting end follow it: what
one of them reads is what the other was to send, they never wait for each other, and they end
with the same options, the same session cipher and the same compatibility checks.
-/

namespace WiredServer.P7

open Session

-----------------------------------------------------------------------------------------
-- Fields of messages
-----------------------------------------------------------------------------------------

/-- A new field is found behind the others. -/
@[simp] theorem HandshakeMessage.valueForName_set (message : HandshakeMessage) (value : P7Value)
    (fieldName wanted : String)
    : (message.set value fieldName).valueForName wanted
      = (message.valueForName wanted).or (if fieldName = wanted then some value else none) := by
  rw [valueForName, set, List.find?_append, Option.map_or]
  by_cases same : fieldName = wanted <;> simp [valueForName, same]

/-- A new message has no fields. -/
@[simp] theorem HandshakeMessage.valueForName_withName (name wanted : String)
    : (withName name).valueForName wanted = none :=
  rfl

/-- Setting a field keeps the name. -/
@[simp] theorem HandshakeMessage.name_set (message : HandshakeMessage) (value : P7Value)
    (fieldName : String)
    : (message.set value fieldName).name = message.name :=
  rfl

/-- A new message has its name. -/
@[simp] theorem HandshakeMessage.name_withName (name : String) : (withName name).name = name :=
  rfl

/-- The enum of a kind of options stands where it was set. -/
theorem HandshakeMessage.valueForName_choose (ι : Type) [Choices ι] (message : HandshakeMessage)
    (options : Options) (fieldName wanted : String)
    : (message.choose ι options fieldName).valueForName wanted
      = (message.valueForName wanted).or
          (if fieldName = wanted then
            (firstChoice ι options).map fun choice => .enum (Choices.flag choice)
          else none) := by
  rw [choose, enabled_eq_isSome]
  cases found : firstChoice ι options with
  | none => simp
  | some choice => simp [optionsToEnum, found]

/-- Choosing options keeps the name. -/
@[simp] theorem HandshakeMessage.name_chooseAll (message : HandshakeMessage)
    (serialization : Option Serialization) (options : Options)
    : (message.chooseAll serialization options).name = message.name := by
  simp only [chooseAll, choose]
  split_ifs <;> rfl

/-- Asking for a check keeps the name. -/
@[simp] theorem HandshakeMessage.name_checkCompatibility (message : HandshakeMessage)
    (check : Bool)
    : (message.checkCompatibility check).name = message.name := by
  rw [checkCompatibility]
  split_ifs <;> rfl

/-- Only the field of the check is new. -/
@[simp] theorem HandshakeMessage.valueForName_checkCompatibility (message : HandshakeMessage)
    (check : Bool) (wanted : String)
    : (message.checkCompatibility check).valueForName wanted
      = (message.valueForName wanted).or
          (if check = true ∧ "p7.handshake.compatibility_check" = wanted then some (.bool true)
          else none) := by
  cases check <;> simp [checkCompatibility]

-----------------------------------------------------------------------------------------
-- The protocol
-----------------------------------------------------------------------------------------

/-- What both ends agree on, and which of them checks the specification of the other. -/
structure Agreement where
  serialization : Serialization
  options : Options
  cipher : Option Cipher
  compressionEnabled : Bool
  checksumEnabled : Bool
  encryptionEnabled : Bool
  checks : Party → Bool

/-- How messages are protected under an agreement. -/
def Agreement.protection (agreement : Agreement) : Protection :=
  if agreement.serialization = .xml then .none
  else
    {
      compressed := agreement.compressionEnabled
      checksum := if agreement.checksumEnabled then firstChoice Checksum agreement.options else none
      cipher := if agreement.encryptionEnabled then agreement.cipher else none
    }

/-- The next message of a party. -/
def next {β : Type} (sender : Party) (serialization : Serialization) (protection : Protection)
    (allowed : HandshakeMessage → Prop) (rest : HandshakeMessage → Protocol Frame β)
    : Protocol Frame β :=
  .send sender
    (fun frame => frame.serialization = serialization ∧ frame.protection = protection
      ∧ allowed frame.message)
    fun frame => rest frame.message

/-- A field has no enum, or the one of a choice. -/
def HandshakeMessage.Known (ι : Type) [Choices ι] (message : HandshakeMessage)
    (fieldName : String)
    : Prop :=
  ∃ choice : Option ι, message.enumForName fieldName = choice.map Choices.flag

/-- A message with the fields that both handshakes need. -/
structure HandshakeMessage.IsHandshake (name : String) (message : HandshakeMessage) : Prop where
  named : message.name = name
  version : message.stringForName "p7.handshake.version" = some protocolVersion
  protocolName : ∃ name, message.stringForName "p7.handshake.protocol.name" = some name
  protocolVersion : ∃ version, message.stringForName "p7.handshake.protocol.version" = some version
  compression : message.Known Compression "p7.handshake.compression"
  encryption : message.Known Encryption "p7.handshake.encryption"
  checksum : message.Known Checksum "p7.handshake.checksum"

/-- The options in a handshake of the server. -/
def HandshakeMessage.agreedOptions (message : HandshakeMessage) (serialization : Serialization)
    : Options :=
  { Socket.init with serialization := some serialization }.chosenOptions message

/-- The handshakes of the client and of the server, and the acknowledge of the client. -/
def handshakeProtocol : Protocol Frame Agreement :=
  .send .left
    (fun frame => frame.protection = .none
      ∧ frame.message.IsHandshake "p7.handshake.client_handshake")
    fun frame =>
      next .right frame.serialization .none (·.IsHandshake "p7.handshake.server_handshake")
        fun reply =>
          next .left frame.serialization .none (·.name = "p7.handshake.acknowledge")
            fun acknowledge =>
              .stop {
                serialization := frame.serialization
                options := reply.agreedOptions frame.serialization
                cipher := none
                compressionEnabled := false
                checksumEnabled := false
                encryptionEnabled := false
                checks := fun party =>
                  match party with
                  | .left => acknowledge.asksForCheck
                  | .right => reply.asksForCheck
              }

/-- Both ends compress and check their messages from here on, as far as agreed. -/
def Agreement.configure (agreement : Agreement) : Agreement :=
  {
    agreement with
    compressionEnabled := agreement.compressionEnabled || P7.compressionEnabled agreement.options
    checksumEnabled := agreement.checksumEnabled || P7.checksumEnabled agreement.options
  }

section Ends

variable {PublicKey PrivateKey : Type} (crypto : Crypto PublicKey PrivateKey) (client : Client)
  (server : Server PrivateKey)

/-- The client is on the left, and the server on the right. -/
def ends : Party → Endpoint
  | .left => client.toEndpoint
  | .right => server.toEndpoint

/-- A message with the public key of the server. -/
def IsServerKey (message : HandshakeMessage) : Prop :=
  message.name = "p7.encryption.server_key"
    ∧ ∃ privateKey, server.privateKey = some privateKey
      ∧ message.dataForName "p7.encryption.public_key" = some (crypto.publicKeyData privateKey)

/-- A field that the server decrypts to nothing but a value. -/
def Conceals (message : HandshakeMessage) (fieldName : String) (value : Bytes.Block) : Prop :=
  ∃ data, message.dataForName fieldName = some data
    ∧ ∀ privateKey plain, server.privateKey = some privateKey
      → crypto.rsaDecrypt privateKey data = some plain → plain = value

/-- A message with a session cipher, a user name and a password for the server. -/
structure IsClientKey (cipher : Cipher) (message : HandshakeMessage) : Prop where
  named : message.name = "p7.encryption.client_key"
  key : Conceals crypto server message "p7.encryption.cipher.key" cipher.key
  iv : ∃ iv, cipher.iv = some iv ∧ Conceals crypto server message "p7.encryption.cipher.iv" iv
  userName : ∃ data, message.dataForName "p7.encryption.username" = some data
  clientPassword : ∃ data, message.dataForName "p7.encryption.client_password" = some data

/-- A message that accepts or refuses the password of the client. -/
def IsKeyReply (message : HandshakeMessage) : Prop :=
  message.name = "p7.encryption.authentication_error"
    ∨ message.name = "p7.encryption.acknowledge"
      ∧ ∃ data, message.dataForName "p7.encryption.server_password" = some data

/-- The key exchange, when the agreed options have an encryption. -/
def keyExchangeProtocol (agreement : Agreement) : Protocol Frame Agreement :=
  match encryptionOptionsToCipher agreement.options with
  | none => .stop agreement
  | some type =>
      let cipher := client.randomCipher type
      next .right agreement.serialization agreement.protection (IsServerKey crypto server)
        fun _ =>
          next .left agreement.serialization agreement.protection
            (IsClientKey crypto server cipher)
            fun _ =>
              next .right agreement.serialization agreement.protection IsKeyReply fun _ =>
                .stop { agreement with cipher := some cipher, encryptionEnabled := true }

/-- The check of one end whether the specification of the other is compatible. -/
def compatibilityProtocol (ends : Party → Endpoint) (checker : Party) (agreement : Agreement)
    : Protocol Frame Agreement :=
  if agreement.checks checker then
    next checker.other agreement.serialization agreement.protection
      (fun message => message.name = "p7.compatibility_check.specification"
        ∧ message.stringForName "p7.compatibility_check.specification"
          = some (ends checker.other).xml)
      fun _ =>
        next checker agreement.serialization agreement.protection
          (fun message => message.name = "p7.compatibility_check.status"
            ∧ ∃ compatible, (ends checker).checkSpecification (ends checker.other).xml
                = some compatible
              ∧ message.boolForName "p7.compatibility_check.status" = some compatible)
          fun _ => .stop agreement
  else .stop agreement

/-- The whole handshake. -/
def sessionProtocol : Protocol Frame Agreement :=
  handshakeProtocol.bind fun agreement =>
    (keyExchangeProtocol crypto client server agreement.configure).bind fun agreement =>
      (compatibilityProtocol (ends client server) .right agreement).bind
        (compatibilityProtocol (ends client server) .left)

end Ends

/-- A socket of one end agrees with an agreement, when the listed ends have made their checks. -/
structure Socket.Agrees (ends : Party → Endpoint) (done : List Party) (party : Party)
    (socket : Socket) (agreement : Agreement)
    : Prop where
  serialization : socket.serialization = some agreement.serialization
  options : socket.options = agreement.options
  cipher : socket.cipher = agreement.cipher
  compressionEnabled : socket.compressionEnabled = agreement.compressionEnabled
  checksumEnabled : socket.checksumEnabled = agreement.checksumEnabled
  encryptionEnabled : socket.encryptionEnabled = agreement.encryptionEnabled
  localCheck : socket.localCompatibilityCheck = agreement.checks party
  remoteCheck : socket.remoteCompatibilityCheck = agreement.checks party.other
  mergedSpec : socket.mergedSpec
    = if party ∈ done ∧ agreement.checks party = true then some (ends party.other).xml else none
  compatible : ∀ checker ∈ done, agreement.checks checker = true
    → (ends checker).checkSpecification (ends checker.other).xml = some true

/-- Messages are protected as agreed. -/
theorem Socket.Agrees.protection {ends : Party → Endpoint} {done : List Party} {party : Party}
    {socket : Socket} {agreement : Agreement} (agrees : socket.Agrees ends done party agreement)
    : socket.protection = agreement.protection := by
  rw [Socket.protection, Agreement.protection, agrees.serialization, agrees.options,
    agrees.cipher, agrees.compressionEnabled, agrees.checksumEnabled, agrees.encryptionEnabled]
  simp only [Option.some.injEq]

-----------------------------------------------------------------------------------------
-- Steps of the scripts
-----------------------------------------------------------------------------------------

/-- A part of the handshake follows a part of the protocol. -/
abbrev Obeys {α β : Type} (agrees : α → β → Prop) (party : Party) (dialogue : Dialogue α)
    (protocol : Protocol Frame β)
    : Prop :=
  Follows (fun failure : HandshakeError => failure.mismatch = true) agrees party dialogue protocol

section Steps

variable {α β : Type} {agrees : α → β → Prop} {party : Party} {socket : Socket}
  {serialization : Serialization} {protection : Protection} {message : HandshakeMessage}
  {allowed : HandshakeMessage → Prop} {rest : HandshakeMessage → Protocol Frame β}

/-- Writing an allowed message follows the protocol. -/
theorem obeys_writeMessage {following : Unit → Dialogue α}
    (serialized : socket.serialization = some serialization)
    (guarded : socket.protection = protection) (fits : allowed message)
    (goesOn : Obeys agrees party (following ()) (rest message))
    : Obeys agrees party (socket.writeMessage message >>= following)
        (next party serialization protection allowed rest) := by
  refine Follows.sending ⟨?_, guarded, fits⟩ Bool.false_ne_true goesOn
  simp [Socket.frame, serialized]

/-- Reading follows the protocol when every allowed message does. -/
theorem obeys_readMessage {sender : Party} {following : Socket × HandshakeMessage → Dialogue α}
    (serialized : socket.serialization = some serialization)
    (guarded : socket.protection = protection) (peer : sender = party.other)
    (goesOn : ∀ message, allowed message
      → Obeys agrees party (following (socket, message)) (rest message))
    : Obeys agrees party (socket.readMessage >>= following)
        (next sender serialization protection allowed rest) := by
  rw [Socket.readMessage, bind_assoc]
  refine Follows.receiving peer Bool.false_ne_true ?_
  rintro frame ⟨sameSerialization, sameProtection, fits⟩
  have adopted : socket.adopt frame.serialization = socket := by
    simp only [Socket.adopt, serialized, Option.getD_some]
    rw [← serialized]
  simp only [adopted, bind_assoc, pure_bind]
  refine Follows.guard (fun differs => absurd ⟨?_, ?_⟩ differs) fun _ => goesOn _ fits
  · rw [serialized, sameSerialization]
  · rw [sameProtection, guarded]

/-- A message with the expected name passes. -/
theorem expectMessage_eq {name shown : String} (named : message.name = name)
    : expectMessage message name shown = pure () :=
  Script.guard_of named

/-- A part that runs under a condition follows the protocol, when it does. -/
theorem obeys_when {condition : Bool} {part : Socket → Dialogue Socket}
    {agrees : Socket → β → Prop} {protocol : Protocol Frame β}
    (runs : condition = true → Obeys agrees party (part socket) protocol)
    (skips : condition = false → Obeys agrees party (pure socket) protocol)
    : Obeys agrees party (socket.when condition part) protocol := by
  cases condition with
  | true => exact runs rfl
  | false => exact skips rfl

end Steps

-----------------------------------------------------------------------------------------
-- Options in handshakes
-----------------------------------------------------------------------------------------

section Hello

variable (endpoint : Endpoint) (name : String) (serialization : Option Serialization)
  (options : Options) (check : Bool)

/-- A handshake of either end. -/
abbrev hello : HandshakeMessage :=
  ((endpoint.handshake name).chooseAll serialization options).checkCompatibility check

/-- The enum of the compression is the one of the first compression in the options. -/
theorem enumForName_hello_compression
    : (hello endpoint name serialization options check).enumForName "p7.handshake.compression"
      = if serialization = some .binary then
          (firstChoice Compression options).map Choices.flag
        else none := by
  by_cases binary : serialization = some .binary <;>
    cases found : firstChoice Compression options <;>
    simp [HandshakeMessage.enumForName, HandshakeMessage.chooseAll,
      HandshakeMessage.valueForName_choose, Endpoint.handshake, binary, found]

/-- The enum of the encryption is the one of the first encryption in the options. -/
theorem enumForName_hello_encryption
    : (hello endpoint name serialization options check).enumForName "p7.handshake.encryption"
      = if serialization = some .binary then
          (firstChoice Encryption options).map Choices.flag
        else none := by
  by_cases binary : serialization = some .binary <;>
    cases found : firstChoice Encryption options <;>
    simp [HandshakeMessage.enumForName, HandshakeMessage.chooseAll,
      HandshakeMessage.valueForName_choose, Endpoint.handshake, binary, found]

/-- The enum of the checksum is the one of the first checksum in the options. -/
theorem enumForName_hello_checksum
    : (hello endpoint name serialization options check).enumForName "p7.handshake.checksum"
      = if serialization = some .binary then
          (firstChoice Checksum options).map Choices.flag
        else none := by
  by_cases binary : serialization = some .binary <;>
    cases found : firstChoice Checksum options <;>
    simp [HandshakeMessage.enumForName, HandshakeMessage.chooseAll,
      HandshakeMessage.valueForName_choose, Endpoint.handshake, binary, found]

/-- The handshakes of either end have the fields of a handshake. -/
theorem isHandshake_hello
    : (hello endpoint name serialization options check).IsHandshake name where
  named := by simp [Endpoint.handshake]
  version := by
    by_cases binary : serialization = some .binary <;>
      simp [HandshakeMessage.stringForName, HandshakeMessage.chooseAll,
        HandshakeMessage.valueForName_choose, Endpoint.handshake, binary]
  protocolName := by
    refine ⟨endpoint.name, ?_⟩
    by_cases binary : serialization = some .binary <;>
      simp [HandshakeMessage.stringForName, HandshakeMessage.chooseAll,
        HandshakeMessage.valueForName_choose, Endpoint.handshake, binary]
  protocolVersion := by
    refine ⟨endpoint.version, ?_⟩
    by_cases binary : serialization = some .binary <;>
      simp [HandshakeMessage.stringForName, HandshakeMessage.chooseAll,
        HandshakeMessage.valueForName_choose, Endpoint.handshake, binary]
  compression := by
    rw [HandshakeMessage.Known, enumForName_hello_compression]
    split_ifs
    · exact ⟨_, rfl⟩
    · exact ⟨none, rfl⟩
  encryption := by
    rw [HandshakeMessage.Known, enumForName_hello_encryption]
    split_ifs
    · exact ⟨_, rfl⟩
    · exact ⟨none, rfl⟩
  checksum := by
    rw [HandshakeMessage.Known, enumForName_hello_checksum]
    split_ifs
    · exact ⟨_, rfl⟩
    · exact ⟨none, rfl⟩

/-- A handshake asks for a check when it was to. -/
theorem asksForCheck_hello
    : (hello endpoint name serialization options check).asksForCheck = check := by
  by_cases binary : serialization = some .binary <;> cases check <;>
    simp [HandshakeMessage.asksForCheck, HandshakeMessage.boolForName, HandshakeMessage.chooseAll,
      HandshakeMessage.valueForName_choose, Endpoint.handshake, binary]

end Hello

/-- An acknowledge asks for a check when it was to. -/
theorem asksForCheck_acknowledge (check : Bool)
    : ((HandshakeMessage.withName "p7.handshake.acknowledge").checkCompatibility
        check).asksForCheck = check := by
  cases check <;> rfl

/-- The client takes the option of the choice. -/
theorem HandshakeMessage.chosen_eq {ι : Type} [Choices ι] [LawfulChoices ι]
    {message : HandshakeMessage} {fieldName : String} {choice : Option ι}
    (known : message.enumForName fieldName = choice.map Choices.flag)
    : message.chosen ι fieldName = optionOf ι choice := by
  rw [chosen, known]
  cases choice with
  | none => rfl
  | some choice => exact enumToOptions_flag choice

/-- A shared choice is one that is offered. -/
theorem HandshakeMessage.shared_offered {ι : Type} [Choices ι] [LawfulChoices ι]
    {message : HandshakeMessage} {fieldName : String} (known : message.Known ι fieldName)
    (options : Options)
    : ∃ choice : Option ι, message.shared ι options fieldName = optionOf ι choice
      ∧ ∀ chosen, choice = some chosen → options.has chosen = true := by
  obtain ⟨choice, known⟩ := known
  rw [shared, known]
  cases choice with
  | none => exact ⟨none, rfl, by simp⟩
  | some choice =>
      simp only [Option.map_some, enumToOptions_flag]
      by_cases offered : options &&& option choice = 0
      · exact ⟨none, if_neg (not_not.mpr offered), by simp⟩
      · refine ⟨some choice, if_pos offered, ?_⟩
        rintro _ ⟨⟩
        exact decide_eq_true offered

/-- The options of the server have at most one choice of each kind. -/
theorem sharedOptions_eq {socket : Socket} (empty : socket.options = 0)
    {message : HandshakeMessage} {name : String} (handshake : message.IsHandshake name)
    (options : Options)
    : ∃ compression encryption checksum, socket.sharedOptions options message
      = if socket.serialization = some .binary then
          optionsOf compression encryption checksum
        else 0 := by
  obtain ⟨compression, shared, _⟩ :=
    HandshakeMessage.shared_offered handshake.compression options
  obtain ⟨encryption, sharedToo, _⟩ :=
    HandshakeMessage.shared_offered handshake.encryption options
  obtain ⟨checksum, sharedAlso, _⟩ :=
    HandshakeMessage.shared_offered handshake.checksum options
  refine ⟨compression, encryption, checksum, ?_⟩
  rw [Socket.sharedOptions, empty, shared, sharedToo, sharedAlso, UInt64.zero_or]
  rfl

/-- The client takes exactly the options of a server that has at most one choice of each kind. -/
theorem agreedOptions_hello (endpoint : Endpoint) (name : String) {serialization : Serialization}
    {options : Options} {compression : Option Compression} {encryption : Option Encryption}
    {checksum : Option Checksum}
    (single : options
      = if some serialization = some .binary then optionsOf compression encryption checksum
        else 0)
    (check : Bool)
    : (hello endpoint name (some serialization) options check).agreedOptions serialization
      = options := by
  rw [HandshakeMessage.agreedOptions, Socket.chosenOptions, single]
  cases serialization with
  | xml => rfl
  | binary =>
      rw [if_pos rfl, if_pos rfl,
        HandshakeMessage.chosen_eq (enumForName_hello_compression endpoint name _ _ check),
        HandshakeMessage.chosen_eq (enumForName_hello_encryption endpoint name _ _ check),
        HandshakeMessage.chosen_eq (enumForName_hello_checksum endpoint name _ _ check),
        firstChoice_compression, firstChoice_encryption, firstChoice_checksum]
      exact congrArg (· ||| _ ||| _) UInt64.zero_or

-----------------------------------------------------------------------------------------
-- The handshakes of both ends
-----------------------------------------------------------------------------------------

/-- A handshake tells who the other end is. -/
theorem Socket.meet_eq (socket : Socket) (endpoint : Endpoint) {message : HandshakeMessage}
    {name : String} (handshake : message.IsHandshake name)
    : ∃ name version, socket.meet endpoint message = pure
        {
          socket with
          remoteName := some name
          remoteVersion := some version
          localCompatibilityCheck := !endpoint.isCompatibleWithProtocol name version
        } := by
  obtain ⟨name, named⟩ := handshake.protocolName
  obtain ⟨version, versioned⟩ := handshake.protocolVersion
  refine ⟨name, version, ?_⟩
  simp only [Socket.meet, handshake.version, named, versioned, Script.ofOption_some, pure_bind,
    Script.guard_of]

/-- The client follows the protocol of the handshakes. -/
theorem connectHandshake_obeys (ends : Party → Endpoint) (client : Client)
    : Obeys (Socket.Agrees ends [] .left) .left
        (connectHandshake client { Socket.init with serialization := some client.serialization })
        handshakeProtocol := by
  rw [connectHandshake]
  refine Follows.sending ⟨?_, isHandshake_hello client.toEndpoint _ _ _ false⟩
    Bool.false_ne_true ?_
  · cases client.serialization <;> rfl
  refine obeys_readMessage rfl ?_ rfl fun reply handshake => ?_
  · cases client.serialization <;> rfl
  simp only [expectMessage_eq handshake.named, pure_bind]
  obtain ⟨name, version, met⟩ := Socket.meet_eq
    { Socket.init with serialization := some client.serialization } client.toEndpoint handshake
  simp only [met, pure_bind]
  refine obeys_writeMessage rfl ?_ (by simp) (.returned ?_)
  · cases client.serialization <;> rfl
  exact {
    serialization := rfl
    options := rfl
    cipher := rfl
    compressionEnabled := rfl
    checksumEnabled := rfl
    encryptionEnabled := rfl
    localCheck := (asksForCheck_acknowledge _).symm
    remoteCheck := rfl
    mergedSpec := by simp [Socket.init]
    compatible := by simp
  }

/-- The server follows the protocol of the handshakes. -/
theorem acceptHandshake_obeys {PrivateKey : Type} (ends : Party → Endpoint)
    (server : Server PrivateKey)
    : Obeys (Socket.Agrees ends [] .right) .right (acceptHandshake server Socket.init)
        handshakeProtocol := by
  rw [acceptHandshake, Socket.readMessage]
  simp only [bind_assoc, pure_bind]
  refine Follows.receiving rfl Bool.false_ne_true ?_
  rintro ⟨serialization, protection, message⟩ ⟨unprotected, handshake⟩
  obtain rfl : protection = .none := unprotected
  have readable : (Socket.init.adopt serialization).serialization = some serialization
      ∧ Protection.none = (Socket.init.adopt serialization).protection := by
    cases serialization <;> exact ⟨rfl, rfl⟩
  refine Follows.guard (fun differs => absurd readable differs) fun _ => ?_
  simp only [expectMessage_eq handshake.named, pure_bind]
  obtain ⟨name, version, met⟩ := Socket.meet_eq (Socket.init.adopt serialization)
    server.toEndpoint handshake
  obtain ⟨compression, encryption, checksum, single⟩ :=
    sharedOptions_eq (show (Socket.init.adopt serialization).options = 0 from rfl) handshake
      server.options
  simp only [met, pure_bind]
  refine obeys_writeMessage readable.1 readable.2.symm
    (isHandshake_hello server.toEndpoint _ _ _ _) ?_
  refine obeys_readMessage readable.1 readable.2.symm rfl fun acknowledge named => ?_
  simp only [expectMessage_eq named, pure_bind]
  exact .returned {
    serialization := readable.1
    options := (agreedOptions_hello server.toEndpoint _ single _).symm
    cipher := rfl
    compressionEnabled := rfl
    checksumEnabled := rfl
    encryptionEnabled := rfl
    localCheck := (asksForCheck_hello server.toEndpoint _ _ _ _).symm
    remoteCheck := rfl
    mergedSpec := by simp [Socket.init, Socket.adopt]
    compatible := by simp
  }

-----------------------------------------------------------------------------------------
-- The key exchange
-----------------------------------------------------------------------------------------

section KeyExchange

variable {PublicKey PrivateKey : Type} {crypto : Crypto PublicKey PrivateKey} {client : Client}
  {server : Server PrivateKey} {ends : Party → Endpoint} {socket : Socket} {agreement : Agreement}

/-- What the owner of a key decrypts is what was encrypted with its public part. -/
def Crypto.Faithful (crypto : Crypto PublicKey PrivateKey) : Prop :=
  ∀ privateKey publicKey random data encrypted plain,
    crypto.publicKeyWithData (crypto.publicKeyData privateKey) = some publicKey
      → crypto.rsaEncrypt random publicKey data = some encrypted
      → crypto.rsaDecrypt privateKey encrypted = some plain
      → plain = data

/-- A value that was encrypted for the server is concealed. -/
theorem conceals_of_encrypted (faithful : crypto.Faithful) {privateKey : PrivateKey}
    (owns : server.privateKey = some privateKey) {publicKey : PublicKey}
    (parsed : crypto.publicKeyWithData (crypto.publicKeyData privateKey) = some publicKey)
    {random : ℕ} {value data : Bytes.Block}
    (encrypted : crypto.rsaEncrypt random publicKey value = some data)
    {message : HandshakeMessage} {fieldName : String}
    (found : message.dataForName fieldName = some data)
    : Conceals crypto server message fieldName value := by
  refine ⟨data, found, fun other plain ownsToo decrypted => ?_⟩
  obtain rfl : privateKey = other := Option.some.inj (owns.symm.trans ownsToo)
  exact faithful privateKey publicKey random value data plain parsed encrypted decrypted

/-- The client makes its key message out of its session cipher. -/
theorem clientKey_obeys {α β : Type} {agrees : α → β → Prop} {party : Party}
    (faithful : crypto.Faithful) {privateKey : PrivateKey}
    (owns : server.privateKey = some privateKey) {publicKey : PublicKey}
    (parsed : crypto.publicKeyWithData (crypto.publicKeyData privateKey) = some publicKey)
    (type : CipherType) (userName clientPassword : Bytes.Block)
    {following : HandshakeMessage → Dialogue α} {protocol : Protocol Frame β}
    (goesOn : ∀ message, IsClientKey crypto server (client.randomCipher type) message
      → Obeys agrees party (following message) protocol)
    : Obeys agrees party
        (clientKey crypto client publicKey (client.randomCipher type) userName clientPassword
          >>= following)
        protocol := by
  simp only [clientKey, bind_assoc]
  refine Follows.ofOption (fun _ => Bool.false_ne_true) fun key keyEncrypted => ?_
  refine Follows.ofOption (fun _ => Bool.false_ne_true) fun iv ivEncrypted => ?_
  refine Follows.ofOption (fun _ => Bool.false_ne_true) fun name _ => ?_
  refine Follows.ofOption (fun _ => Bool.false_ne_true) fun password _ => ?_
  obtain ⟨data, encrypted, rfl⟩ : ∃ data, crypto.rsaEncrypt (client.randomNumber 1) publicKey
      (client.randomKey type).2 = some data ∧ iv = some data := by
    simpa [Client.randomCipher, eq_comm] using ivEncrypted
  refine goesOn _ {
    named := by simp
    key := conceals_of_encrypted faithful owns parsed keyEncrypted
      (by simp [HandshakeMessage.dataForName])
    iv := ⟨_, rfl, conceals_of_encrypted faithful owns parsed encrypted
      (by simp [HandshakeMessage.dataForName])⟩
    userName := ⟨name, by simp [HandshakeMessage.dataForName]⟩
    clientPassword := ⟨password, by simp [HandshakeMessage.dataForName]⟩
  }

/-- Options with an encryption have a cipher. -/
theorem cipher_of_enabled {options : Options} (encrypts : encryptionEnabled options = true)
    : ∃ type, encryptionOptionsToCipher options = some type := by
  rw [encryptionEnabled, enabled_eq_isSome, Option.isSome_iff_exists] at encrypts
  obtain ⟨encryption, first⟩ := encrypts
  exact ⟨encryption.cipher, by rw [encryptionOptionsToCipher, first]; rfl⟩

/-- The client follows the protocol of the key exchange. -/
theorem connectKeyExchange_obeys (faithful : crypto.Faithful)
    (agrees : socket.Agrees ends [] .left agreement)
    (encrypts : encryptionEnabled agreement.options = true)
    : Obeys (Socket.Agrees ends [] .left) .left (connectKeyExchange crypto client socket)
        (keyExchangeProtocol crypto client server agreement) := by
  obtain ⟨type, found⟩ := cipher_of_enabled encrypts
  simp only [keyExchangeProtocol, found, connectKeyExchange, requireData]
  refine obeys_readMessage agrees.serialization agrees.protection rfl fun serverKey isKey => ?_
  obtain ⟨named, privateKey, owns, present⟩ := isKey
  simp only [expectMessage_eq named, present, Script.ofOption_some, pure_bind]
  refine Follows.ofOption (fun _ => Bool.false_ne_true) fun publicKey parsed => ?_
  simp only [agrees.options, found, Script.ofOption_some, pure_bind]
  refine Follows.guard (fun _ => Bool.false_ne_true) fun _ => ?_
  refine clientKey_obeys faithful owns parsed type _ _ fun message isClientKey => ?_
  refine obeys_writeMessage agrees.serialization agrees.protection isClientKey ?_
  refine obeys_readMessage agrees.serialization agrees.protection rfl fun reply isReply => ?_
  refine Follows.guard (fun _ => Bool.false_ne_true) fun accepted => ?_
  obtain ⟨namedReply, data, answer⟩ := isReply.resolve_left accepted
  simp only [expectMessage_eq namedReply, answer, Script.ofOption_some, pure_bind]
  refine Follows.ofOption (fun _ => Bool.false_ne_true) fun serverPassword _ => ?_
  refine Follows.guard (fun _ => Bool.false_ne_true) fun _ => ?_
  exact .returned { agrees with cipher := rfl, encryptionEnabled := rfl }

/-- Refusing a client with an authentication error follows the protocol. -/
theorem obeys_authenticate {α β γ : Type} {agrees : γ → β → Prop} {party : Party}
    {serialization : Serialization} {protection : Protection}
    (serialized : socket.serialization = some serialization)
    (guarded : socket.protection = protection) {failure : HandshakeError}
    (harmless : failure.mismatch = false) {result : Option α} {following : α → Dialogue γ}
    {rest : HandshakeMessage → Protocol Frame β}
    (goesOn : ∀ value, result = some value
      → Obeys agrees party (following value)
          (next party serialization protection IsKeyReply rest))
    : Obeys agrees party (socket.authenticate failure result >>= following)
        (next party serialization protection IsKeyReply rest) := by
  have harmless : ¬failure.mismatch = true := by simp [harmless]
  cases result with
  | some value => exact goesOn value rfl
  | none =>
      refine .writes ⟨?_, guarded, .inl rfl⟩ (.failed harmless) ⟨failure, rfl, harmless⟩
      simp [Socket.frame, serialized]

/-- The server follows the protocol of the key exchange. -/
theorem acceptKeyExchange_obeys (agrees : socket.Agrees ends [] .right agreement)
    (encrypts : encryptionEnabled agreement.options = true)
    : Obeys (Socket.Agrees ends [] .right) .right (acceptKeyExchange crypto server socket)
        (keyExchangeProtocol crypto client server agreement) := by
  obtain ⟨type, found⟩ := cipher_of_enabled encrypts
  simp only [keyExchangeProtocol, found, acceptKeyExchange, requireData]
  refine Follows.ofOption (fun _ => Bool.false_ne_true) fun privateKey owns => ?_
  refine obeys_writeMessage agrees.serialization agrees.protection
    ⟨by simp, privateKey, owns, by simp [HandshakeMessage.dataForName]⟩ ?_
  refine obeys_readMessage agrees.serialization agrees.protection rfl fun clientKey isKey => ?_
  obtain ⟨named, ⟨keyData, keyFound, onlyKey⟩, ⟨iv, ivOf, ivData, ivFound, onlyIv⟩,
    ⟨nameData, nameFound⟩, ⟨passwordData, passwordFound⟩⟩ := isKey
  simp only [expectMessage_eq named, keyFound, ivFound, nameFound, passwordFound, initCipher,
    agrees.options, found, Script.ofOption_some, pure_bind, bind_assoc]
  refine Follows.ofOption (fun _ => Bool.false_ne_true) fun key keyDecrypted => ?_
  refine Follows.ofOption (fun _ => Bool.false_ne_true) fun decryptedIv ivDecrypted => ?_
  refine Follows.guard (fun _ => Bool.false_ne_true) fun _ => ?_
  refine Follows.ofOption (fun _ => Bool.false_ne_true) fun userName _ => ?_
  refine Follows.ofOption (fun _ => Bool.false_ne_true) fun clientPassword _ => ?_
  refine obeys_authenticate agrees.serialization agrees.protection rfl fun password _ => ?_
  refine obeys_authenticate agrees.serialization agrees.protection rfl fun _ _ => ?_
  refine Follows.ofOption (fun _ => Bool.false_ne_true) fun data _ => ?_
  refine obeys_writeMessage agrees.serialization agrees.protection
    (.inr ⟨by simp, data, by simp [HandshakeMessage.dataForName]⟩) (.returned ?_)
  -- What the server decrypted is the cipher of the client.
  obtain ⟨plain, decrypted, rfl⟩ : ∃ plain, crypto.rsaDecrypt privateKey ivData = some plain
      ∧ decryptedIv = some plain := by
    simpa [eq_comm] using ivDecrypted
  have sameKey : key = (client.randomCipher type).key := onlyKey _ _ owns keyDecrypted
  have sameIv : some plain = (client.randomCipher type).iv := by
    rw [ivOf, onlyIv _ _ owns decrypted]
  subst sameKey
  rw [sameIv]
  exact { agrees with options := rfl, cipher := rfl, encryptionEnabled := rfl }

end KeyExchange

-----------------------------------------------------------------------------------------
-- The compatibility checks
-----------------------------------------------------------------------------------------

section Checks

variable {ends : Party → Endpoint} (checker : Party) {done : List Party} {socket : Socket}
  {agreement : Agreement}

/-- The end that is checked follows the protocol of a check. -/
theorem sendCompatibilityCheck_obeys
    (agrees : socket.Agrees ends done checker.other agreement)
    (fresh : checker ∉ done)
    : Obeys (Socket.Agrees ends (checker :: done) checker.other) checker.other
        (socket.when socket.remoteCompatibilityCheck
          (sendCompatibilityCheck (ends checker.other)))
        (compatibilityProtocol ends checker agreement) := by
  have asked := agrees.remoteCheck
  rw [Party.other_other] at asked
  have keeps := agrees.mergedSpec
  refine obeys_when (fun checks => ?_) fun skips => ?_
  · rw [asked] at checks
    simp only [compatibilityProtocol, checks, if_true, sendCompatibilityCheck]
    refine obeys_writeMessage agrees.serialization agrees.protection
      ⟨by simp, by simp [HandshakeMessage.stringForName]⟩ ?_
    refine obeys_readMessage agrees.serialization agrees.protection (by simp)
      fun status isStatus => ?_
    obtain ⟨named, compatible, verdict, told⟩ := isStatus
    simp only [expectMessage_eq named, told, Script.ofOption_some, pure_bind]
    refine Follows.guard (fun _ => Bool.false_ne_true) fun accepted => .returned ?_
    subst accepted
    refine { agrees with mergedSpec := ?_, compatible := ?_ }
    · simpa using keeps
    · intro other listed checksToo
      obtain rfl | listed := List.mem_cons.mp listed
      · exact verdict
      · exact agrees.compatible other listed checksToo
  · rw [asked] at skips
    simp only [compatibilityProtocol, skips]
    refine .returned { agrees with mergedSpec := ?_, compatible := ?_ }
    · simpa using keeps
    · intro other listed checks
      obtain rfl | listed := List.mem_cons.mp listed
      · simp [skips] at checks
      · exact agrees.compatible other listed checks

/-- The end that checks follows the protocol of a check. -/
theorem receiveCompatibilityCheck_obeys (agrees : socket.Agrees ends done checker agreement)
    (fresh : checker ∉ done)
    : Obeys (Socket.Agrees ends (checker :: done) checker) checker
        (socket.when socket.localCompatibilityCheck (receiveCompatibilityCheck (ends checker)))
        (compatibilityProtocol ends checker agreement) := by
  have asked := agrees.localCheck
  have keeps := agrees.mergedSpec
  refine obeys_when (fun checks => ?_) fun skips => ?_
  · rw [asked] at checks
    simp only [compatibilityProtocol, checks, if_true, receiveCompatibilityCheck]
    refine obeys_readMessage agrees.serialization agrees.protection rfl
      fun specification isSpecification => ?_
    obtain ⟨named, text⟩ := isSpecification
    simp only [expectMessage_eq named, text, Script.ofOption_some, pure_bind]
    refine Follows.ofOption (fun _ => Bool.false_ne_true) fun compatible verdict => ?_
    refine obeys_writeMessage agrees.serialization agrees.protection
      ⟨by simp, compatible, verdict, by simp [HandshakeMessage.boolForName]⟩ ?_
    refine Follows.guard (fun _ => Bool.false_ne_true) fun accepted => .returned ?_
    subst accepted
    refine { agrees with mergedSpec := ?_, compatible := ?_ }
    · simp [checks]
    · intro other listed checksToo
      obtain rfl | listed := List.mem_cons.mp listed
      · exact verdict
      · exact agrees.compatible other listed checksToo
  · rw [asked] at skips
    simp only [compatibilityProtocol, skips]
    refine .returned { agrees with mergedSpec := ?_, compatible := ?_ }
    · simpa [fresh, skips] using keeps
    · intro other listed checks
      obtain rfl | listed := List.mem_cons.mp listed
      · simp [skips] at checks
      · exact agrees.compatible other listed checks

end Checks

-----------------------------------------------------------------------------------------
-- The whole handshake
-----------------------------------------------------------------------------------------

section Configuration

variable {ends : Party → Endpoint} {done : List Party} {party : Party} {socket : Socket}
  {agreement : Agreement}

/-- Setting up the compression exchanges no messages. -/
theorem configureCompression_obeys (endpoint : Endpoint)
    (agrees : socket.Agrees ends done party agreement)
    : Obeys
        (fun socket agreement => Socket.Agrees ends done party socket
          { agreement with
            compressionEnabled := agreement.compressionEnabled
              || P7.compressionEnabled agreement.options })
        party
        (socket.when (P7.compressionEnabled socket.options) (configureCompression endpoint))
        (.stop agreement) := by
  refine obeys_when (fun enabled => ?_) fun disabled => .returned ?_
  · rw [configureCompression]
    refine Follows.guard (fun _ => Bool.false_ne_true) fun _ => .returned ?_
    rw [agrees.options] at enabled
    exact { agrees with compressionEnabled := by simp [enabled] }
  · rw [agrees.options] at disabled
    exact { agrees with compressionEnabled := by simp [disabled, agrees.compressionEnabled] }

/-- Setting up the checksums turns them on. -/
theorem Socket.Agrees.configure
    (agrees : socket.Agrees ends done party
      { agreement with
        compressionEnabled := agreement.compressionEnabled
          || P7.compressionEnabled agreement.options })
    : (if P7.checksumEnabled socket.options then socket.configureChecksum else socket).Agrees
        ends done party agreement.configure := by
  have options := agrees.options
  cases enabled : P7.checksumEnabled agreement.options with
  | true =>
      rw [options, if_pos enabled]
      exact { agrees with checksumEnabled := by simp [Socket.configureChecksum,
        Agreement.configure, enabled] }
  | false =>
      rw [options, if_neg (by simp [enabled])]
      exact { agrees with checksumEnabled := by simp [Agreement.configure, enabled,
        agrees.checksumEnabled] }

end Configuration

section Session

variable {PublicKey PrivateKey : Type} {crypto : Crypto PublicKey PrivateKey}

/-- Options without an encryption need no key exchange. -/
theorem keyExchangeProtocol_of_disabled {client : Client} {server : Server PrivateKey}
    {agreement : Agreement} (disabled : encryptionEnabled agreement.options = false)
    : keyExchangeProtocol crypto client server agreement = .stop agreement := by
  rw [encryptionEnabled, enabled_eq_isSome, Option.isSome_eq_false_iff, Option.isNone_iff_eq_none]
    at disabled
  rw [keyExchangeProtocol, encryptionOptionsToCipher, disabled]
  rfl

/-- Either end runs its part of the key exchange when the options have an encryption. -/
theorem obeys_keyExchange {client : Client} {server : Server PrivateKey} {ends : Party → Endpoint}
    {party : Party} {socket : Socket} {agreement : Agreement} {part : Socket → Dialogue Socket}
    (agrees : socket.Agrees ends [] party agreement)
    (runs : encryptionEnabled agreement.options = true
      → Obeys (Socket.Agrees ends [] party) party (part socket)
          (keyExchangeProtocol crypto client server agreement))
    : Obeys (Socket.Agrees ends [] party) party
        (socket.when (encryptionEnabled socket.options) part)
        (keyExchangeProtocol crypto client server agreement) := by
  rw [agrees.options]
  refine obeys_when runs fun disabled => ?_
  rw [keyExchangeProtocol_of_disabled disabled]
  exact .returned agrees

/-- The client follows the protocol of the session. -/
theorem connect_obeys (faithful : crypto.Faithful) (client : Client) (server : Server PrivateKey)
    : Obeys (Socket.Agrees (ends client server) [.left, .right] .left) .left
        (connect crypto client) (sessionProtocol crypto client server) := by
  rw [connect, sessionProtocol]
  refine Follows.bind (connectHandshake_obeys (ends client server) client)
    fun socket agreement agrees => ?_
  refine Follows.silent (configureCompression_obeys client.toEndpoint agrees)
    fun socket agrees => ?_
  have agrees := agrees.configure
  refine Follows.bind (obeys_keyExchange agrees (connectKeyExchange_obeys faithful agrees))
    fun socket agreement agrees => ?_
  refine Follows.bind (sendCompatibilityCheck_obeys .right agrees (by simp))
    fun socket agreement agrees => ?_
  exact receiveCompatibilityCheck_obeys .left agrees (by simp)

/-- The server follows the protocol of the session. -/
theorem accept_obeys (client : Client) (server : Server PrivateKey)
    : Obeys (Socket.Agrees (ends client server) [.left, .right] .right) .right
        (accept crypto server) (sessionProtocol crypto client server) := by
  rw [accept, sessionProtocol]
  refine Follows.bind (acceptHandshake_obeys (ends client server) server)
    fun socket agreement agrees => ?_
  refine Follows.silent (configureCompression_obeys server.toEndpoint agrees)
    fun socket agrees => ?_
  have agrees := agrees.configure
  refine Follows.bind (obeys_keyExchange agrees (acceptKeyExchange_obeys agrees))
    fun socket agreement agrees => ?_
  refine Follows.bind (receiveCompatibilityCheck_obeys .right agrees (by simp))
    fun socket agreement agrees => ?_
  exact sendCompatibilityCheck_obeys .left agrees (by simp)

/-- Two sockets that both ends of a connection got agree on the options, on the session cipher,
and on which end has checked the specification of the other and found it compatible.
-/
structure SameView (ends : Party → Endpoint) (socket : Party → Socket) : Prop where
  options : (socket .left).options = (socket .right).options
  cipher : (socket .left).cipher = (socket .right).cipher
  protection : (socket .left).protection = (socket .right).protection
  checks : ∀ party, (socket party).localCompatibilityCheck
    = (socket party.other).remoteCompatibilityCheck
  compatible : ∀ party, (socket party).localCompatibilityCheck = true
    → (ends party).checkSpecification (ends party.other).xml = some true
  mergedSpec : ∀ party, (socket party).mergedSpec
    = if (socket party).localCompatibilityCheck = true then some (ends party.other).xml else none

/-- Two sockets that agree with one agreement have the same view. -/
theorem sameView_of_agrees {ends : Party → Endpoint} {socket : Party → Socket}
    {agreement : Agreement}
    (agrees : ∀ party, (socket party).Agrees ends [.left, .right] party agreement)
    : SameView ends socket where
  options := (agrees .left).options.trans (agrees .right).options.symm
  cipher := (agrees .left).cipher.trans (agrees .right).cipher.symm
  protection := (agrees .left).protection.trans (agrees .right).protection.symm
  checks party := by
    rw [(agrees party).localCheck, (agrees party.other).remoteCheck, Party.other_other]
  compatible party checks :=
    (agrees party).compatible party (by cases party <;> simp)
      (((agrees party).localCheck).symm.trans checks)
  mergedSpec party := by
    rw [(agrees party).mergedSpec, (agrees party).localCheck]
    cases party <;> simp

/-- Ends that have both succeeded have the same view. -/
theorem sameView_of_reachable (faithful : crypto.Faithful) (client : Client)
    (server : Server PrivateKey) {config : Config Frame HandshakeError Socket}
    (reachable : Reachable (connect crypto client) (accept crypto server) config)
    {socket : Party → Socket}
    (returned : ∀ party, config.script party = .done (.ok (socket party)))
    : SameView (ends client server) socket := by
  obtain ⟨sender, behind, ahead, linked⟩ :=
    linked_of_reachable (Socket.Agrees (ends client server) [.left, .right])
      (connect_obeys faithful client server) (accept_obeys client server) reachable
  obtain ⟨agreement, agrees⟩ := linked.agreement returned
  exact sameView_of_agrees agrees

/-- In every state that a connecting and an accepting end can reach, no end has failed or is
about to fail because it reads something else than what the other was to send, the two do not
wait for each other with nothing in flight, and if both have succeeded then they agree.
Witness: both scripts follow the protocol of the session.
-/
theorem handshake_agrees (faithful : crypto.Faithful) (client : Client)
    (server : Server PrivateKey) {config : Config Frame HandshakeError Socket}
    (reachable : Reachable (connect crypto client) (accept crypto server) config)
    : (∀ party failure, config.script party = .done (.error failure)
        → failure.mismatch = false)
      ∧ (∀ party following frame waiting failure, config.script party = .read following
        → config.sent party.other = frame :: waiting
        → following (some frame) = .done (.error failure)
        → failure.mismatch = false)
      ∧ ¬((∀ party, config.sent party = [])
        ∧ ∀ party, ∃ following, config.script party = .read following)
      ∧ ∀ socket : Party → Socket, (∀ party, config.script party = .done (.ok (socket party)))
        → SameView (ends client server) socket := by
  obtain ⟨sender, behind, ahead, linked⟩ :=
    linked_of_reachable (Socket.Agrees (ends client server) [.left, .right])
      (connect_obeys faithful client server) (accept_obeys client server) reachable
  refine ⟨fun party failure failed => ?_, fun party following frame waiting failure reads sent
    failed => ?_, fun stuck => linked.no_deadlock stuck.1 stuck.2, fun socket returned => ?_⟩
  · exact Bool.eq_false_of_not_eq_true (linked.no_mismatch failed)
  · exact Bool.eq_false_of_not_eq_true (linked.reads reads sent failed)
  · exact sameView_of_reachable faithful client server reachable returned

end Session

/-- Keys and ciphers that leave everything as it is. -/
def plainCrypto : Crypto Unit Unit where
  publicKeyData _ := []
  publicKeyWithData _ := some ()
  rsaEncrypt _ _ data := some data
  rsaDecrypt _ data := some data
  cipherWorks _ := true
  cipherEncrypt _ data := some data
  cipherDecrypt _ data := some data
  digest _ data := data

/-- A client with an encryption and a checksum, and a specification of its own. -/
def someClient : Client where
  name := [1]
  version := [1]
  xml := [1, 1]
  checkSpecification _ := some true
  compressionWorks := true
  options := optionsOf (some .deflate) (some ⟨.aes256, .sha256⟩) (some .sha256)
  serialization := .binary
  userName := some [5]
  password := some [6]
  randomKey _ := ([7], [8])
  randomNumber _ := 0

/-- A server that offers the same and knows the user of the client. -/
def someServer : Server Unit where
  name := [2]
  version := [1]
  xml := [2, 1]
  checkSpecification _ := some true
  compressionWorks := true
  options := optionsOf (some .deflate) (some ⟨.aes256, .sha256⟩) (some .sha256)
  privateKey := some ()
  passwordProvider := some fun userName => if userName = [5] then some [6] else none

/-- A whole run of both: they succeed with an encryption, after both checks. -/
def someRun : Config Frame HandshakeError Socket :=
  (Config.start (connect plainCrypto someClient) (accept plainCrypto someServer)).run 14

/-- Both ends of the run return, with an encryption and a check by the server. -/
theorem someRun_returned
    : ∃ socket : Party → Socket, (∀ party, someRun.script party = .done (.ok (socket party)))
      ∧ (socket .left).encryptionEnabled = true
      ∧ (socket .right).mergedSpec = some someClient.xml := by
  have finished : (someRun.script .left).value.map (fun socket => socket.encryptionEnabled)
        = some true
      ∧ (someRun.script .right).value.map (fun socket => socket.mergedSpec)
        = some (some someClient.xml) := by
    decide
  obtain ⟨client, clientReturned, encrypted⟩ := Option.map_eq_some_iff.mp finished.1
  obtain ⟨server, serverReturned, merged⟩ := Option.map_eq_some_iff.mp finished.2
  let socket : Party → Socket
    | .left => client
    | .right => server
  refine ⟨socket, fun party => ?_, encrypted, merged⟩
  cases party with
  | left => exact Script.eq_done_of_value clientReturned
  | right => exact Script.eq_done_of_value serverReturned

/-- The run is one of the two ends. -/
theorem someRun_reachable
    : Reachable (connect plainCrypto someClient) (accept plainCrypto someServer) someRun :=
  Config.run_steps 14 _

/-- Keys that leave everything as it is lose nothing. -/
theorem plainCrypto_faithful : plainCrypto.Faithful := by
  intro _ _ _ data encrypted plain _ sent received
  cases sent
  cases received
  rfl

theorem handshake_agrees_someRun
    : ∃ socket : Party → Socket, (socket .left).encryptionEnabled = true
      ∧ (socket .right).mergedSpec = some someClient.xml
      ∧ SameView (ends someClient someServer) socket := by
  obtain ⟨socket, returned, encrypted, merged⟩ := someRun_returned
  exact ⟨socket, encrypted, merged, (handshake_agrees plainCrypto_faithful someClient someServer
    someRun_reachable).2.2.2 socket returned⟩

end WiredServer.P7
