import Mathlib
import WiredServer.P7.HandshakeProtocol

/-! What a finished handshake leaves in a socket, whatever the other end sends: the options, and
which of the compression, the checksums and the encryption they turn on.
-/

namespace WiredServer.P7

open Session Session.Script

-----------------------------------------------------------------------------------------
-- Settings
-----------------------------------------------------------------------------------------

/-- The part of a socket that decides how messages are written and read. -/
structure Settings where
  options : Options
  compressionEnabled : Bool
  checksumEnabled : Bool
  checksumLength : ℕ
  encryptionEnabled : Bool
  cipher : Option Cipher

/-- The settings of a socket. -/
def Socket.settings (socket : Socket) : Settings where
  options := socket.options
  compressionEnabled := socket.compressionEnabled
  checksumEnabled := socket.checksumEnabled
  checksumLength := socket.checksumLength
  encryptionEnabled := socket.encryptionEnabled
  cipher := socket.cipher

section Parts

variable {α : Type} {socket result : Socket} {received : List (Option Frame)}

/-- A read that did not fail got a frame that is protected like the socket. -/
theorem returns_readMessage {following : Socket × HandshakeMessage → Dialogue α} {value : α}
    (returned : Returns (socket.readMessage >>= following) received (.ok value))
    : ∃ frame later, received = some frame :: later
      ∧ (socket.adopt frame.serialization).serialization = some frame.serialization
      ∧ Returns (following (socket.adopt frame.serialization, frame.message)) later
          (.ok value) := by
  rw [Socket.readMessage, bind_assoc] at returned
  obtain ⟨frame, later, rfl, rest⟩ := returns_receiving returned
  simp only [bind_assoc, pure_bind] at rest
  obtain ⟨⟨same, _⟩, rest⟩ := returns_guard rest
  exact ⟨frame, later, rfl, same, rest⟩

/-- A message that was expected has the expected name. -/
theorem returns_expectMessage {message : HandshakeMessage} {name shown : String}
    {following : Unit → Dialogue α} {value : α}
    (returned : Returns (expectMessage message name shown >>= following) received (.ok value))
    : Returns (following ()) received (.ok value) :=
  (returns_guard returned).2

/-- Meeting the other end keeps everything but its name and the check. -/
theorem returns_meet {endpoint : Endpoint} {message : HandshakeMessage}
    {following : Socket → Dialogue α} {value : α}
    (returned : Returns (socket.meet endpoint message >>= following) received (.ok value))
    : ∃ met : Socket, met.settings = socket.settings ∧ met.serialization = socket.serialization
      ∧ Returns (following met) received (.ok value) := by
  simp only [Socket.meet, bind_assoc, pure_bind] at returned
  obtain ⟨_, _, returned⟩ := returns_ofOption returned
  obtain ⟨_, returned⟩ := returns_guard returned
  obtain ⟨_, _, returned⟩ := returns_ofOption returned
  obtain ⟨_, _, returned⟩ := returns_ofOption returned
  refine ⟨_, ?_, ?_, returned⟩ <;> rfl

/-- A part under a condition ran, or the socket stayed as it was. -/
theorem returns_when {condition : Bool} {part : Socket → Dialogue Socket}
    (returned : Returns (socket.when condition part) received (.ok result))
    : condition = true ∧ Returns (part socket) received (.ok result)
      ∨ condition = false ∧ result = socket := by
  cases condition with
  | true => exact .inl ⟨rfl, returned⟩
  | false =>
      cases returned
      exact .inr ⟨rfl, rfl⟩

/-- A value that is returned at once is the result. -/
theorem returns_pure {value other : α}
    (returned : Returns (pure value : Dialogue α) received (.ok other))
    : other = value := by
  cases returned
  rfl

/-- The client takes its options from the first message of the server. -/
theorem connectHandshake_settings {client : Client}
    (returned : Returns (connectHandshake client socket) received (.ok result))
    : ∃ frame later, received = some frame :: later
      ∧ result.settings
        = { socket.settings with
            options := (socket.adopt frame.serialization).chosenOptions frame.message } := by
  rw [connectHandshake] at returned
  have returned := returns_sending returned
  obtain ⟨frame, later, rfl, _, returned⟩ := returns_readMessage returned
  have returned := returns_expectMessage returned
  obtain ⟨met, same, serialized, returned⟩ := returns_meet returned
  have returned := returns_sending returned
  obtain rfl := returns_pure returned
  refine ⟨frame, later, rfl, ?_⟩
  have options : met.options = socket.options := congrArg Settings.options same
  change { met.settings with options := met.chosenOptions frame.message } = _
  rw [same, Socket.chosenOptions, Socket.chosenOptions, serialized, options]
  rfl

/-- The server takes its options from the first message of the client. -/
theorem acceptHandshake_settings {PrivateKey : Type} {server : Server PrivateKey}
    (returned : Returns (acceptHandshake server socket) received (.ok result))
    : ∃ frame later, received = some frame :: later
      ∧ (socket.adopt frame.serialization).serialization = some frame.serialization
      ∧ result.settings
        = { socket.settings with
            options := (socket.adopt frame.serialization).sharedOptions server.options
              frame.message } := by
  rw [acceptHandshake] at returned
  obtain ⟨frame, later, rfl, adopted, returned⟩ := returns_readMessage returned
  have returned := returns_expectMessage returned
  obtain ⟨met, same, serialized, returned⟩ := returns_meet returned
  have returned := returns_sending returned
  obtain ⟨_, _, _, _, returned⟩ := returns_readMessage returned
  have returned := returns_expectMessage returned
  obtain rfl := returns_pure returned
  refine ⟨frame, later, rfl, adopted, ?_⟩
  have options : met.options = socket.options := congrArg Settings.options same
  change { met.settings with options := met.sharedOptions server.options frame.message } = _
  rw [same, Socket.sharedOptions, Socket.sharedOptions, serialized, options]
  rfl

/-- The compression turns itself on. -/
theorem configureCompression_settings {endpoint : Endpoint}
    (returned : Returns (configureCompression endpoint socket) received (.ok result))
    : result.settings = { socket.settings with compressionEnabled := true } := by
  obtain ⟨_, returned⟩ := returns_guard returned
  obtain rfl := returns_pure returned
  rfl

/-- A check of the specifications keeps the settings of the end that is checked. -/
theorem sendCompatibilityCheck_settings {endpoint : Endpoint}
    (returned : Returns (sendCompatibilityCheck endpoint socket) received (.ok result))
    : result.settings = socket.settings := by
  rw [sendCompatibilityCheck] at returned
  have returned := returns_sending returned
  obtain ⟨frame, _, _, _, returned⟩ := returns_readMessage returned
  have returned := returns_expectMessage returned
  obtain ⟨_, _, returned⟩ := returns_ofOption returned
  obtain ⟨_, returned⟩ := returns_guard returned
  obtain rfl := returns_pure returned
  rfl

/-- A check of the specifications keeps the settings of the end that checks. -/
theorem receiveCompatibilityCheck_settings {endpoint : Endpoint}
    (returned : Returns (receiveCompatibilityCheck endpoint socket) received (.ok result))
    : result.settings = socket.settings := by
  rw [receiveCompatibilityCheck] at returned
  obtain ⟨frame, _, _, _, returned⟩ := returns_readMessage returned
  have returned := returns_expectMessage returned
  obtain ⟨_, _, returned⟩ := returns_ofOption returned
  obtain ⟨_, _, returned⟩ := returns_ofOption returned
  have returned := returns_sending returned
  obtain ⟨_, returned⟩ := returns_guard returned
  obtain rfl := returns_pure returned
  rfl

end Parts

section KeyExchange

variable {PublicKey PrivateKey : Type} {crypto : Crypto PublicKey PrivateKey}
  {socket result : Socket} {received : List (Option Frame)}

/-- Settings after a key exchange: an encryption with a cipher of the agreed type. -/
def Settings.Encrypts (before after : Settings) : Prop :=
  ∃ cipher : Cipher, encryptionOptionsToCipher before.options = some cipher.type
    ∧ after = { before with cipher := some cipher, encryptionEnabled := true }

/-- The client turns on the encryption with its own cipher. -/
theorem connectKeyExchange_settings {client : Client}
    (returned : Returns (connectKeyExchange crypto client socket) received (.ok result))
    : socket.settings.Encrypts result.settings := by
  rw [connectKeyExchange] at returned
  obtain ⟨first, _, _, _, returned⟩ := returns_readMessage returned
  have returned := returns_expectMessage returned
  obtain ⟨_, _, returned⟩ := returns_ofOption returned
  obtain ⟨_, _, returned⟩ := returns_ofOption returned
  obtain ⟨type, found, returned⟩ := returns_ofOption returned
  obtain ⟨_, returned⟩ := returns_guard returned
  obtain ⟨_, _, _, _, _, returned⟩ := returns_bind_ok returned
  have returned := returns_sending returned
  obtain ⟨second, _, _, _, returned⟩ := returns_readMessage returned
  obtain ⟨_, returned⟩ := returns_guard returned
  have returned := returns_expectMessage returned
  obtain ⟨_, _, returned⟩ := returns_ofOption returned
  obtain ⟨_, _, returned⟩ := returns_ofOption returned
  obtain ⟨_, returned⟩ := returns_guard returned
  obtain rfl := returns_pure returned
  exact ⟨client.randomCipher type, found, rfl⟩

/-- The server turns on the encryption with the cipher that it received. -/
theorem acceptKeyExchange_settings {server : Server PrivateKey}
    (returned : Returns (acceptKeyExchange crypto server socket) received (.ok result))
    : socket.settings.Encrypts result.settings := by
  rw [acceptKeyExchange] at returned
  obtain ⟨_, _, returned⟩ := returns_ofOption returned
  have returned := returns_sending returned
  obtain ⟨frame, _, _, _, returned⟩ := returns_readMessage returned
  have returned := returns_expectMessage returned
  obtain ⟨_, _, returned⟩ := returns_ofOption returned
  obtain ⟨key, _, returned⟩ := returns_ofOption returned
  obtain ⟨iv, _, returned⟩ := returns_ofOption returned
  obtain ⟨cipher, _, _, _, initialised, returned⟩ := returns_bind_ok returned
  obtain ⟨type, found, initialised⟩ := returns_ofOption initialised
  obtain ⟨_, initialised⟩ := returns_guard initialised
  obtain rfl := returns_pure initialised
  obtain ⟨_, _, returned⟩ := returns_ofOption returned
  obtain ⟨_, _, returned⟩ := returns_ofOption returned
  obtain ⟨_, _, returned⟩ := returns_ofOption returned
  obtain ⟨_, _, returned⟩ := returns_ofOption returned
  obtain ⟨_, _, _, _, _, returned⟩ := returns_bind_ok returned
  obtain ⟨_, _, _, _, _, returned⟩ := returns_bind_ok returned
  obtain ⟨_, _, returned⟩ := returns_ofOption returned
  have returned := returns_sending returned
  obtain rfl := returns_pure returned
  exact ⟨⟨type, key, iv⟩, found, rfl⟩

end KeyExchange

-----------------------------------------------------------------------------------------
-- Finished handshakes
-----------------------------------------------------------------------------------------

/-- The settings that options lead to. -/
structure Settings.Configured (settings : Settings) : Prop where
  compression : settings.compressionEnabled = P7.compressionEnabled settings.options
  checksum : settings.checksumEnabled = P7.checksumEnabled settings.options
  length : ∀ checksum, firstChoice Checksum settings.options = some checksum
    → settings.checksumLength = checksum.digestLength
  encryption : settings.encryptionEnabled = P7.encryptionEnabled settings.options
  cipher : settings.encryptionEnabled = true
    → ∃ cipher, settings.cipher = some cipher
      ∧ encryptionOptionsToCipher settings.options = some cipher.type

/-- The settings of a socket with the given options, after the handshake and before the key
exchange.
-/
def Settings.configure (options : Options) : Settings where
  options
  compressionEnabled := P7.compressionEnabled options
  checksumEnabled := P7.checksumEnabled options
  checksumLength :=
    match firstChoice Checksum options with
    | some checksum => checksum.digestLength
    | none => 0
  encryptionEnabled := false
  cipher := none

/-- The checksums turn themselves on. -/
theorem configureChecksum_settings (socket : Socket)
    : socket.configureChecksum.settings
      = {
          socket.settings with
          checksumLength :=
            match firstChoice Checksum socket.options with
            | some checksum => checksum.digestLength
            | none => socket.checksumLength
          checksumEnabled := true
        } :=
  rfl

/-- Both ends configure their sockets in the same way. -/
theorem configure_settings {endpoint : Endpoint} {socket result : Socket} {options : Options}
    (fresh : socket.settings = { Socket.init.settings with options })
    {received : List (Option Frame)}
    (returned : Returns
      (socket.when (compressionEnabled socket.options) (configureCompression endpoint))
      received (.ok result))
    : (if checksumEnabled result.options then result.configureChecksum else result).settings
      = .configure options := by
  have same : socket.options = options := congrArg Settings.options fresh
  have settings : result.settings
      = { socket.settings with compressionEnabled := compressionEnabled options } := by
    obtain ⟨enabled, ran⟩ | ⟨disabled, rfl⟩ := returns_when returned
    · rw [same] at enabled
      rw [configureCompression_settings ran, enabled]
    · rw [same] at disabled
      rw [disabled, fresh]
      rfl
  have kept : result.options = options := (congrArg Settings.options settings).trans same
  rw [fresh] at settings
  rw [kept]
  cases found : firstChoice Checksum options with
  | none =>
      have disabled : checksumEnabled options = false := by
        rw [checksumEnabled, enabled_eq_isSome, found]
        rfl
      rw [if_neg (by simp [disabled]), settings]
      simp [Settings.configure, found, disabled, Socket.init, Socket.settings]
  | some checksum =>
      have enabled : checksumEnabled options = true := by
        rw [checksumEnabled, enabled_eq_isSome, found]
        rfl
      rw [if_pos enabled, configureChecksum_settings, kept, settings]
      simp [Settings.configure, found, enabled, Socket.init, Socket.settings]

/-- The configured settings are those that the options lead to, apart from the encryption. -/
theorem configure_configured {options : Options} {settings : Settings}
    (exchanged : encryptionEnabled options = true ∧ (Settings.configure options).Encrypts settings
      ∨ encryptionEnabled options = false ∧ settings = .configure options)
    : settings.Configured ∧ settings.options = options := by
  have length : ∀ checksum, firstChoice Checksum options = some checksum
      → (Settings.configure options).checksumLength = checksum.digestLength := by
    intro checksum found
    simp [Settings.configure, found]
  obtain ⟨enabled, cipher, found, rfl⟩ | ⟨disabled, rfl⟩ := exchanged
  · exact ⟨⟨rfl, rfl, length, enabled.symm, fun _ => ⟨cipher, rfl, found⟩⟩, rfl⟩
  · exact ⟨⟨rfl, rfl, length, disabled.symm, fun encrypts => absurd encrypts (by
      simp [Settings.configure])⟩, rfl⟩

section Finished

variable {PublicKey PrivateKey : Type} {crypto : Crypto PublicKey PrivateKey} {socket : Socket}
  {received : List (Option Frame)}

/-- The last checks keep the settings. -/
theorem checks_settings {condition : Bool} {part : Socket → Dialogue Socket}
    {socket result : Socket} {received : List (Option Frame)}
    (keeps : ∀ {received result}, Returns (part socket) received (.ok result)
      → result.settings = socket.settings)
    (returned : Returns (socket.when condition part) received (.ok result))
    : result.settings = socket.settings := by
  obtain ⟨_, ran⟩ | ⟨_, rfl⟩ := returns_when returned
  · exact keeps ran
  · rfl

/-- A key exchange under its condition configures the settings. -/
theorem keyExchange_settings {part : Socket → Dialogue Socket} {socket result : Socket}
    {options : Options} (configured : socket.settings = .configure options)
    {received : List (Option Frame)}
    (exchanges : ∀ {received result}, Returns (part socket) received (.ok result)
      → socket.settings.Encrypts result.settings)
    (returned : Returns (socket.when (encryptionEnabled socket.options) part) received
      (.ok result))
    : result.settings.Configured ∧ result.settings.options = options := by
  have same : socket.options = options := congrArg Settings.options configured
  rw [same] at returned
  refine configure_configured ?_
  rw [← configured]
  obtain ⟨enabled, ran⟩ | ⟨disabled, rfl⟩ := returns_when returned
  · exact .inl ⟨enabled, exchanges ran⟩
  · exact .inr ⟨disabled, rfl⟩

/-- A client that has connected has the options of the first message of the server, and the
settings that they lead to.
-/
theorem connect_settings {client : Client}
    (returned : Returns (connect crypto client) received (.ok socket))
    : ∃ frame later, received = some frame :: later
      ∧ socket.options = frame.message.agreedOptions client.serialization
      ∧ socket.settings.Configured := by
  rw [connect] at returned
  obtain ⟨first, early, _, rfl, handshake, rest⟩ := returns_bind_ok returned
  obtain ⟨frame, later, rfl, fresh⟩ := connectHandshake_settings handshake
  obtain ⟨second, _, _, rfl, compressed, rest⟩ := returns_bind_ok rest
  have configured := configure_settings fresh compressed
  obtain ⟨third, _, _, rfl, exchanged, rest⟩ := returns_bind_ok rest
  obtain ⟨settings, options⟩ :=
    keyExchange_settings configured connectKeyExchange_settings exchanged
  obtain ⟨fourth, _, _, rfl, sent, checked⟩ := returns_bind_ok rest
  have same := (checks_settings receiveCompatibilityCheck_settings checked).trans
    (checks_settings sendCompatibilityCheck_settings sent)
  rw [← same] at settings options
  exact ⟨frame, _, rfl, options, settings⟩

/-- The options that a server with given options takes from the first message of a client. -/
def HandshakeMessage.acceptedOptions (message : HandshakeMessage) (serialization : Serialization)
    (options : Options)
    : Options :=
  (Socket.init.adopt serialization).sharedOptions options message

/-- A server that has accepted has options of its own and of the first message of the client, and
the settings that they lead to.
-/
theorem accept_settings {server : Server PrivateKey}
    (returned : Returns (accept crypto server) received (.ok socket))
    : ∃ frame later, received = some frame :: later
      ∧ socket.options = frame.message.acceptedOptions frame.serialization server.options
      ∧ socket.settings.Configured := by
  rw [accept] at returned
  obtain ⟨first, early, _, rfl, handshake, rest⟩ := returns_bind_ok returned
  obtain ⟨frame, later, rfl, _, fresh⟩ := acceptHandshake_settings handshake
  obtain ⟨second, _, _, rfl, compressed, rest⟩ := returns_bind_ok rest
  have configured := configure_settings fresh compressed
  obtain ⟨third, _, _, rfl, exchanged, rest⟩ := returns_bind_ok rest
  obtain ⟨settings, options⟩ :=
    keyExchange_settings configured acceptKeyExchange_settings exchanged
  obtain ⟨fourth, _, _, rfl, checked, sent⟩ := returns_bind_ok rest
  have same := (checks_settings sendCompatibilityCheck_settings sent).trans
    (checks_settings receiveCompatibilityCheck_settings checked)
  rw [← same] at settings options
  exact ⟨frame, _, rfl, options, settings⟩

end Finished

-----------------------------------------------------------------------------------------
-- Negotiated options
-----------------------------------------------------------------------------------------

/-- Options with at most one choice of a kind, and only with an offered one. -/
def Options.ChooseFrom (ι : Type) [Choices ι] (offered options : Options) : Prop :=
  (∀ first second : ι, options.has first = true → options.has second = true → first = second)
    ∧ ∀ choice : ι, options.has choice = true → offered.has choice = true

/-- Options with at most one choice of each kind, and only with offered ones. -/
structure Negotiated (offered options : Options) : Prop where
  compression : offered.ChooseFrom Compression options
  encryption : offered.ChooseFrom Encryption options
  checksum : offered.ChooseFrom Checksum options

/-- A single choice is negotiated iff it is offered. -/
theorem negotiated_optionsOf_iff {offered : Options} {compression : Option Compression}
    {encryption : Option Encryption} {checksum : Option Checksum}
    : Negotiated offered (optionsOf compression encryption checksum)
      ↔ (∀ choice, compression = some choice → offered.has choice = true)
        ∧ (∀ choice, encryption = some choice → offered.has choice = true)
        ∧ ∀ choice, checksum = some choice → offered.has choice = true := by
  constructor
  · intro negotiated
    refine ⟨fun choice chosen => negotiated.compression.2 choice ?_,
      fun choice chosen => negotiated.encryption.2 choice ?_,
      fun choice chosen => negotiated.checksum.2 choice ?_⟩ <;> simpa using chosen
  · rintro ⟨compressions, encryptions, checksums⟩
    refine ⟨⟨fun first second has hasToo => ?_, fun choice has => ?_⟩,
      ⟨fun first second has hasToo => ?_, fun choice has => ?_⟩,
      ⟨fun first second has hasToo => ?_, fun choice has => ?_⟩⟩
    · exact Option.some.inj (((optionsOf_has_compression _ _ _ _).mp has).symm.trans
        ((optionsOf_has_compression _ _ _ _).mp hasToo))
    · exact compressions choice ((optionsOf_has_compression _ _ _ _).mp has)
    · exact Option.some.inj (((optionsOf_has_encryption _ _ _ _).mp has).symm.trans
        ((optionsOf_has_encryption _ _ _ _).mp hasToo))
    · exact encryptions choice ((optionsOf_has_encryption _ _ _ _).mp has)
    · exact Option.some.inj (((optionsOf_has_checksum _ _ _ _).mp has).symm.trans
        ((optionsOf_has_checksum _ _ _ _).mp hasToo))
    · exact checksums choice ((optionsOf_has_checksum _ _ _ _).mp has)

/-- No options are negotiated with anybody. -/
theorem negotiated_zero (offered : Options) : Negotiated offered 0 where
  compression := by constructor <;> simp
  encryption := by constructor <;> simp
  checksum := by constructor <;> simp

/-- Options with all bits are not negotiated: they have more than one checksum. -/
theorem not_negotiated_all {offered options : Options}
    (all : ∀ checksum : Checksum, options.has checksum = true)
    : ¬Negotiated offered options := by
  intro negotiated
  have same := negotiated.checksum.1 .sha1 .sha256 (all .sha1) (all .sha256)
  cases same

/-- The fields of the kinds of choices in a handshake message. -/
structure HandshakeMessage.AllKnown (message : HandshakeMessage) : Prop where
  compression : message.Known Compression "p7.handshake.compression"
  encryption : message.Known Encryption "p7.handshake.encryption"
  checksum : message.Known Checksum "p7.handshake.checksum"

/-- A message chooses from offered options: its enums are known, and their options are offered. -/
structure HandshakeMessage.ChoosesFrom (message : HandshakeMessage) (offered : Options)
    : Prop where
  compression : ∃ choice : Option Compression,
    message.enumForName "p7.handshake.compression" = choice.map Choices.flag
      ∧ ∀ chosen, choice = some chosen → offered.has chosen = true
  encryption : ∃ choice : Option Encryption,
    message.enumForName "p7.handshake.encryption" = choice.map Choices.flag
      ∧ ∀ chosen, choice = some chosen → offered.has chosen = true
  checksum : ∃ choice : Option Checksum,
    message.enumForName "p7.handshake.checksum" = choice.map Choices.flag
      ∧ ∀ chosen, choice = some chosen → offered.has chosen = true

/-- A field has an enum that is unknown, and becomes all options. -/
def HandshakeMessage.Unknown (ι : Type) [Choices ι] (message : HandshakeMessage)
    (fieldName : String)
    : Prop :=
  ∃ flag, message.enumForName fieldName = some flag ∧ enumToOptions ι flag = -1

/-- An enum is known or unknown. -/
theorem known_or_unknown (ι : Type) [Choices ι] (message : HandshakeMessage) (fieldName : String)
    : message.Known ι fieldName ∨ message.Unknown ι fieldName := by
  cases found : message.enumForName fieldName with
  | none => exact .inl ⟨none, found⟩
  | some flag =>
      cases standsFor : choiceWithFlag ι flag with
      | none => exact .inr ⟨flag, found, by rw [enumToOptions, standsFor]⟩
      | some choice =>
          have same := List.find?_some standsFor
          simp only [decide_eq_true_eq] at same
          exact .inl ⟨some choice, by rw [found, Option.map_some, same]⟩

/-- Some enum is unknown when not all are known. -/
theorem unknown_of_not_allKnown {message : HandshakeMessage} (unknown : ¬message.AllKnown)
    : message.Unknown Compression "p7.handshake.compression"
      ∨ message.Unknown Encryption "p7.handshake.encryption"
      ∨ message.Unknown Checksum "p7.handshake.checksum" := by
  obtain compression | compression :=
    known_or_unknown Compression message "p7.handshake.compression"
  · obtain encryption | encryption :=
      known_or_unknown Encryption message "p7.handshake.encryption"
    · obtain checksum | checksum := known_or_unknown Checksum message "p7.handshake.checksum"
      · exact absurd ⟨compression, encryption, checksum⟩ unknown
      · exact .inr (.inr checksum)
    · exact .inr (.inl encryption)
  · exact .inl compression

/-- The client takes all options from an unknown enum. -/
theorem HandshakeMessage.Unknown.chosen {ι : Type} [Choices ι] {message : HandshakeMessage}
    {fieldName : String} (unknown : message.Unknown ι fieldName)
    : message.chosen ι fieldName = -1 := by
  obtain ⟨flag, found, all⟩ := unknown
  rw [HandshakeMessage.chosen, found]
  exact all

/-- So does a server that offers anything. -/
theorem HandshakeMessage.Unknown.shared {ι : Type} [Choices ι] {message : HandshakeMessage}
    {fieldName : String} (unknown : message.Unknown ι fieldName) {options : Options}
    (offers : options ≠ 0)
    : message.shared ι options fieldName = -1 := by
  obtain ⟨flag, found, all⟩ := unknown
  rw [HandshakeMessage.shared, found]
  simp only [all, UInt64.and_neg_one]
  exact if_pos offers

/-- A server that offers nothing takes nothing. -/
theorem HandshakeMessage.shared_nothing (ι : Type) [Choices ι] (message : HandshakeMessage)
    (fieldName : String)
    : message.shared ι 0 fieldName = 0 := by
  rw [shared]
  cases message.enumForName fieldName <;> simp

/-- The enum of a choice determines it. -/
theorem flag_map_injective {ι : Type} [Choices ι] [LawfulChoices ι] {first second : Option ι}
    (same : first.map Choices.flag = second.map Choices.flag)
    : first = second :=
  Option.map_injective LawfulChoices.flag_injective same

/-- The options that the client takes are negotiated iff the message chooses from its own. -/
theorem negotiated_agreedOptions_iff (message : HandshakeMessage) (serialization : Serialization)
    (offered : Options)
    : Negotiated offered (message.agreedOptions serialization)
      ↔ serialization = .xml ∨ message.ChoosesFrom offered := by
  cases serialization with
  | xml => exact ⟨fun _ => .inl rfl, fun _ => negotiated_zero offered⟩
  | binary =>
      have options : message.agreedOptions .binary
          = message.chosen Compression "p7.handshake.compression"
            ||| message.chosen Encryption "p7.handshake.encryption"
            ||| message.chosen Checksum "p7.handshake.checksum" :=
        congrArg (· ||| _ ||| _) UInt64.zero_or
      rw [options]
      by_cases known : message.AllKnown
      · obtain ⟨⟨compression, first⟩, ⟨encryption, second⟩, ⟨checksum, third⟩⟩ := known
        rw [HandshakeMessage.chosen_eq first, HandshakeMessage.chosen_eq second,
          HandshakeMessage.chosen_eq third, ← optionsOf, negotiated_optionsOf_iff]
        constructor
        · rintro ⟨compressions, encryptions, checksums⟩
          exact .inr ⟨⟨_, first, compressions⟩, ⟨_, second, encryptions⟩, ⟨_, third, checksums⟩⟩
        · rintro (impossible | ⟨⟨_, same, compressions⟩, ⟨_, sameToo, encryptions⟩,
            ⟨_, sameAlso, checksums⟩⟩)
          · cases impossible
          · obtain rfl := flag_map_injective (first.symm.trans same)
            obtain rfl := flag_map_injective (second.symm.trans sameToo)
            obtain rfl := flag_map_injective (third.symm.trans sameAlso)
            exact ⟨compressions, encryptions, checksums⟩
      · refine iff_of_false (not_negotiated_all fun checksum => ?_) ?_
        · obtain unknown | unknown | unknown := unknown_of_not_allKnown known <;>
            simp [unknown.chosen]
        · rintro (impossible | ⟨⟨_, first, _⟩, ⟨_, second, _⟩, ⟨_, third, _⟩⟩)
          · cases impossible
          · exact known ⟨⟨_, first⟩, ⟨_, second⟩, ⟨_, third⟩⟩

/-- The options that the server takes are negotiated iff it offers nothing or knows all enums. -/
theorem negotiated_acceptedOptions_iff (message : HandshakeMessage)
    (serialization : Serialization) (offered : Options)
    : Negotiated offered (message.acceptedOptions serialization offered)
      ↔ serialization = .xml ∨ offered = 0 ∨ message.AllKnown := by
  cases serialization with
  | xml => exact ⟨fun _ => .inl rfl, fun _ => negotiated_zero offered⟩
  | binary =>
      have options : message.acceptedOptions .binary offered
          = message.shared Compression offered "p7.handshake.compression"
            ||| message.shared Encryption offered "p7.handshake.encryption"
            ||| message.shared Checksum offered "p7.handshake.checksum" :=
        congrArg (· ||| _ ||| _) UInt64.zero_or
      rw [options]
      by_cases known : message.AllKnown
      · obtain ⟨compression, first, compressions⟩ :=
          HandshakeMessage.shared_offered known.compression offered
        obtain ⟨encryption, second, encryptions⟩ :=
          HandshakeMessage.shared_offered known.encryption offered
        obtain ⟨checksum, third, checksums⟩ :=
          HandshakeMessage.shared_offered known.checksum offered
        rw [first, second, third, ← optionsOf, negotiated_optionsOf_iff]
        exact iff_of_true ⟨compressions, encryptions, checksums⟩ (.inr (.inr known))
      · by_cases offers : offered = 0
        · subst offers
          refine iff_of_true ?_ (.inr (.inl rfl))
          simp only [HandshakeMessage.shared_nothing, UInt64.zero_or]
          exact negotiated_zero 0
        · refine iff_of_false (not_negotiated_all fun checksum => ?_) ?_
          · obtain unknown | unknown | unknown := unknown_of_not_allKnown known <;>
              simp [unknown.shared offers]
          · rintro (impossible | none | all)
            · cases impossible
            · exact offers none
            · exact known all

/-- After connecting, the options are negotiated iff the messages are in XML or the server chose
from the options of the client. After accepting, they are negotiated iff the messages are in XML,
the server offers nothing, or the client sent known enums only. Two ends of this code have the
same options.
-/
theorem negotiated_iff {PublicKey PrivateKey : Type} {crypto : Crypto PublicKey PrivateKey}
    (faithful : crypto.Faithful) (client : Client) (server : Server PrivateKey)
    : (∀ received socket, Returns (connect crypto client) received (.ok socket)
        → ∃ frame later, received = some frame :: later
          ∧ (Negotiated client.options socket.options
            ↔ client.serialization = .xml ∨ frame.message.ChoosesFrom client.options))
      ∧ (∀ received socket, Returns (accept crypto server) received (.ok socket)
        → ∃ frame later, received = some frame :: later
          ∧ (Negotiated server.options socket.options
            ↔ frame.serialization = .xml ∨ server.options = 0 ∨ frame.message.AllKnown))
      ∧ ∀ config, Reachable (connect crypto client) (accept crypto server) config
        → ∀ socket : Party → Socket, (∀ party, config.script party = .done (.ok (socket party)))
        → (socket .left).options = (socket .right).options := by
  refine ⟨fun received socket returned => ?_, fun received socket returned => ?_,
    fun config reachable socket returned => ?_⟩
  · obtain ⟨frame, later, first, options, _⟩ := connect_settings returned
    refine ⟨frame, later, first, ?_⟩
    rw [options]
    exact negotiated_agreedOptions_iff frame.message client.serialization client.options
  · obtain ⟨frame, later, first, options, _⟩ := accept_settings returned
    refine ⟨frame, later, first, ?_⟩
    rw [options]
    exact negotiated_acceptedOptions_iff frame.message frame.serialization server.options
  · exact (sameView_of_reachable faithful client server reachable returned).options

/-- A client that offers nothing. -/
def plainClient : Client :=
  { someClient with options := 0 }

/-- A server that chooses the compression all the same. -/
def pressingFrame : Frame where
  serialization := .binary
  protection := .none
  message := hello plainClient.toEndpoint "p7.handshake.server_handshake" (some .binary)
    (option Compression.deflate) false

/-- The client takes what it did not offer. -/
theorem pressingFrame_returned
    : ∃ socket, Returns (connect plainCrypto plainClient) [some pressingFrame] (.ok socket)
      ∧ ¬Negotiated plainClient.options socket.options := by
  have played : ((connect plainCrypto plainClient).play [some pressingFrame]).map
      (fun outcome => outcome.toOption.map fun socket => socket.options)
      = some (some (option Compression.deflate)) := by
    decide
  obtain ⟨outcome, result, options⟩ := Option.map_eq_some_iff.mp played
  cases outcome with
  | error failure => simp [Except.toOption] at options
  | ok socket =>
      refine ⟨socket, returns_of_play result, fun negotiated => ?_⟩
      have chosen : socket.options = option Compression.deflate := Option.some.inj options
      have offered := negotiated.compression.2 .deflate (by rw [chosen]; simp)
      simp [plainClient] at offered

theorem not_negotiated_pressingFrame
    : ¬∀ received socket, Returns (connect plainCrypto plainClient) received (.ok socket)
        → Negotiated plainClient.options socket.options := by
  obtain ⟨socket, returned, plain⟩ := pressingFrame_returned
  exact fun always => plain (always _ socket returned)

theorem negotiated_iff_pressingFrame
    : ¬(plainClient.serialization = .xml
        ∨ pressingFrame.message.ChoosesFrom plainClient.options)
      ∧ ∃ socket : Party → Socket, (∀ party, someRun.script party = .done (.ok (socket party)))
        ∧ (socket .left).options = (socket .right).options := by
  obtain ⟨socket, returned, plain⟩ := pressingFrame_returned
  obtain ⟨sockets, finished, _⟩ := someRun_returned
  refine ⟨?_, sockets, finished, ?_⟩
  · obtain ⟨frame, later, first, negotiated⟩ :=
      (negotiated_iff plainCrypto_faithful plainClient someServer).1 _ socket returned
    obtain ⟨same, rfl⟩ := List.cons.inj first
    obtain rfl := Option.some.inj same
    exact fun chooses => plain (negotiated.mpr chooses)
  · exact (negotiated_iff plainCrypto_faithful someClient someServer).2.2 someRun
      someRun_reachable sockets finished

end WiredServer.P7
