import Mathlib
import WiredServer.P7.Transport

/-! All writes to the buffers of a socket stay inside, except those of the checksums: the size of
their buffers on the stack fits the agreed checksum for some options only.
-/

namespace WiredServer.P7

open Action Session Session.Script

-----------------------------------------------------------------------------------------
-- Checksum buffers
-----------------------------------------------------------------------------------------

/-- The encryption whose option has the position of the enum of the last checksum. -/
def aes128Sha1 : Encryption where
  cipher := .aes128
  checksum := .sha1

/-- The buffers of the checksums are long enough: always for the shortest one, for the second one
beside the compression or the first encryption, and for the third one beside the first encryption
without the compression.
-/
def ChecksumFits (options : Options) : Prop :=
  match firstChoice Checksum options with
  | some .sha256 => options.has Compression.deflate = true ∨ options.has aes128Sha1 = true
  | some .sha512 => options.has Compression.deflate = false ∧ options.has aes128Sha1 = true
  | _ => True

instance (options : Options) : Decidable (ChecksumFits options) :=
  match found : firstChoice Checksum options with
  | none => isTrue (by simp [ChecksumFits, found])
  | some .sha1 => isTrue (by simp [ChecksumFits, found])
  | some .sha256 =>
      decidable_of_iff
        (options.has Compression.deflate = true ∨ options.has aes128Sha1 = true)
        (by simp [ChecksumFits, found])
  | some .sha512 =>
      decidable_of_iff
        (options.has Compression.deflate = false ∧ options.has aes128Sha1 = true)
        (by simp [ChecksumFits, found])

/-- The length of the buffers depends on the compression and on the first encryption. -/
theorem checksumOptionsToLength_eq (options : Options)
    : checksumOptionsToLength options
      = if options.has Compression.deflate = true then 32
        else if options.has aes128Sha1 = true then 64
        else 20 := by
  have first : (Choices.flag Checksum.sha1).toUInt64 = 0 := by decide
  have second : (Choices.flag Checksum.sha256).toUInt64 = option Compression.deflate := by decide
  have third : (Choices.flag Checksum.sha512).toUInt64 = option aes128Sha1 := by decide
  simp only [checksumOptionsToLength, first, second, third, UInt64.and_zero, ne_eq,
    not_true_eq_false, if_false, Options.has, decide_eq_true_eq, Checksum.digestLength]

/-- The buffers are long enough iff the agreed digest fits into them. -/
theorem checksumFits_iff {options : Options}
    : ChecksumFits options
      ↔ ∀ checksum, firstChoice Checksum options = some checksum
        → checksum.digestLength ≤ checksumOptionsToLength options := by
  rw [ChecksumFits, checksumOptionsToLength_eq]
  cases firstChoice Checksum options with
  | none => simp
  | some checksum =>
      cases options.has Compression.deflate <;> cases options.has aes128Sha1 <;>
        cases checksum <;> simp [Checksum.digestLength]

-----------------------------------------------------------------------------------------
-- Writes inside the buffers
-----------------------------------------------------------------------------------------

/-- A state with given settings whose writes have all stayed inside their buffers. -/
structure Inside (settings : Settings) (wire : Wire) : Prop where
  settings : wire.settings = settings
  fits : ∀ access ∈ wire.accesses, access.Fits

/-- Configured settings with checksums have one. -/
theorem Settings.Configured.checksum_of_enabled {settings : Settings}
    (configured : settings.Configured) (enabled : settings.checksumEnabled = true)
    : ∃ checksum, firstChoice Checksum settings.options = some checksum := by
  rw [configured.checksum, P7.checksumEnabled, enabled_eq_isSome] at enabled
  exact Option.isSome_iff_exists.mp enabled

/-- Settings with a checksum have turned it on. -/
theorem Settings.Configured.enabled_of_checksum {settings : Settings}
    (configured : settings.Configured) {checksum : Checksum}
    (found : firstChoice Checksum settings.options = some checksum)
    : settings.checksumEnabled = true := by
  rw [configured.checksum, P7.checksumEnabled, enabled_eq_isSome, found]
  rfl

section Inside

variable {settings : Settings} {codec : Codec}

/-- A write that fits stays inside. -/
theorem Inside.touched {wire : Wire} (inside : Inside settings wire) {buffer : Buffer}
    {capacity reach : ℕ} (fits : reach ≤ capacity)
    : Inside settings (wire.touched buffer capacity reach) := by
  refine ⟨inside.settings, fun access listed => ?_⟩
  obtain listed | rfl := List.mem_append.mp listed |>.imp id List.mem_singleton.mp
  · exact inside.fits access listed
  · exact fits

/-- Noting a write that fits stays inside. -/
theorem touch_inside {buffer : Buffer} {capacity reach : ℕ} (fits : reach ≤ capacity)
    : Keeps (Inside settings) (touch buffer capacity reach) :=
  keeps_modify fun _ inside => inside.touched fits

/-- Writing to the stream writes to no buffer. -/
theorem writeBuffer_inside (bytes : Bytes.Block)
    : Keeps (Inside settings) (writeBuffer bytes) := by
  intro wire inside
  rw [after, writeBuffer]
  split <;> rename_i result <;> split at result
  all_goals
    cases result
    all_goals exact ⟨inside.settings, inside.fits⟩

/-- A read from the stream stays inside a buffer that holds the wanted length. -/
theorem readBuffer_inside {buffer : Buffer} {capacity length : ℕ} (fits : length ≤ capacity)
    : Keeps (Inside settings) (readBuffer buffer capacity length) := by
  intro wire inside
  have dropped : Inside settings { wire with incoming := wire.incoming.drop length } :=
    ⟨inside.settings, inside.fits⟩
  have next := @Inside.touched settings _ dropped buffer _ _
    ((List.length_take_le length wire.incoming).trans fits)
  rw [after, readBuffer]
  by_cases short : (wire.incoming.take length).length < length ∨ length = 0
  · simpa only [if_pos short] using next
  · simpa only [if_neg short] using next

/-- The buffers of the cipher hold what they have to. -/
theorem size_le_cipherBuffer (allocated : Option ℕ) (size : ℕ)
    : size ≤ cipherBuffer allocated size := by
  cases allocated with
  | none => exact le_rfl
  | some length =>
      rw [cipherBuffer]
      split_ifs <;> omega

/-- The deflation stays inside. -/
theorem deflateBytes_inside (bytes : Bytes.Block)
    : Keeps (Inside settings) (deflateBytes codec bytes) := by
  refine keeps_get fun wire _ => .bind (keeps_modify fun _ inside => ⟨inside.1, inside.2⟩)
    fun _ => .bind (touch_inside (min_le_right _ _)) fun _ => ?_
  exact keeps_ite (fun _ => keeps_pure _) fun _ => keeps_throw _

/-- The encryption stays inside. -/
theorem encryptBytes_inside (cipher : Cipher) (bytes : Bytes.Block)
    : Keeps (Inside settings) (encryptBytes codec cipher bytes) := by
  refine keeps_get fun wire _ => .bind (keeps_modify fun _ inside => ⟨inside.1, inside.2⟩)
    fun _ => .bind (touch_inside (size_le_cipherBuffer _ _)) fun _ => ?_
  split
  · exact keeps_pure _
  · exact keeps_throw _

/-- The decryption stays inside. -/
theorem decryptBytes_inside (cipher : Cipher) (bytes : Bytes.Block)
    : Keeps (Inside settings) (decryptBytes codec cipher bytes) := by
  refine keeps_get fun wire _ => .bind (keeps_modify fun _ inside => ⟨inside.1, inside.2⟩)
    fun _ => .bind (touch_inside (size_le_cipherBuffer _ _)) fun _ => ?_
  split
  · exact keeps_pure _
  · exact keeps_throw _

/-- The inflation stays inside, by induction on the rounds. -/
theorem inflateRounds_inside (bytes : Bytes.Block) (multiples : List ℕ) (inflated : Bytes.Block)
    : Keeps (Inside settings) (inflateRounds codec bytes multiples inflated) := by
  induction multiples generalizing inflated with
  | nil => exact keeps_pure _
  | cons multiple multiples ih =>
      refine keeps_ite (fun _ => keeps_throw _) fun _ => ?_
      refine .bind (keeps_modify fun _ inside => ⟨inside.1, inside.2⟩) fun _ => ?_
      refine .bind (touch_inside le_rfl) fun _ => ?_
      exact keeps_ite (fun _ => keeps_pure _) fun _ => ih _

/-- Copying a message back stays inside. -/
theorem storeMessage_inside (capacity : ℕ) (bytes : Bytes.Block)
    : Keeps (Inside settings) (storeMessage capacity bytes) := by
  refine .bind (touch_inside ?_) fun _ => keeps_pure _
  split_ifs <;> omega

/-- A checksum stays inside a buffer that is long enough. -/
theorem checksumBytes_inside (fits : ChecksumFits settings.options) (buffer : Buffer)
    (bytes : Bytes.Block)
    : Keeps (Inside settings) (checksumBytes codec settings buffer bytes) := by
  rw [checksumBytes]
  cases found : firstChoice Checksum settings.options with
  | none => exact keeps_pure _
  | some checksum =>
      exact .bind (touch_inside (checksumFits_iff.mp fits checksum found)) fun _ => keeps_pure _

/-- Writing a message stays inside. -/
theorem writeBinaryMessage_inside (fits : ChecksumFits settings.options) (message : Bytes.Block)
    : Keeps (Inside settings) (writeBinaryMessage codec message) := by
  refine keeps_get fun wire inside => ?_
  rw [inside.settings]
  refine .bind (keeps_ite (fun _ => deflateBytes_inside _) fun _ => keeps_pure _)
    fun compressed => ?_
  refine .bind (keeps_ite (fun _ => ?_) fun _ => keeps_pure _) fun encrypted => ?_
  · split
    · exact encryptBytes_inside _ _
    · exact keeps_throw _
  refine .bind (writeBuffer_inside _) fun _ => .bind (writeBuffer_inside _) fun _ => ?_
  refine keeps_ite (fun _ => ?_) fun _ => keeps_pure _
  exact .bind (checksumBytes_inside fits _ _) fun _ => writeBuffer_inside _

/-- Reading a message stays inside. -/
theorem readMessage_inside (configured : settings.Configured)
    (fits : ChecksumFits settings.options)
    : Keeps (Inside settings) (readMessage codec) := by
  refine keeps_get fun wire inside => ?_
  rw [inside.settings]
  refine .bind (keeps_ite (fun _ => ?_) fun _ => keeps_pure _) fun size => ?_
  · exact .bind (readBuffer_inside le_rfl) fun _ =>
      .bind (keeps_modify fun _ inside => ⟨inside.1, inside.2⟩) fun _ => keeps_pure _
  refine .bind (keeps_ite (fun _ => keeps_throw _) fun _ => ?_) fun message =>
    keeps_ite (fun _ => keeps_throw _) fun _ => keeps_pure _
  refine .bind (readBuffer_inside le_rfl) fun bytes =>
    .bind (keeps_modify fun _ inside => ⟨inside.1, inside.2⟩) fun _ => ?_
  refine .bind (keeps_ite (fun _ => ?_) fun _ => keeps_pure _) fun decrypted => ?_
  · split
    · exact .bind (decryptBytes_inside _ _) fun _ =>
        .bind (storeMessage_inside _ _) fun _ => keeps_pure _
    · exact keeps_throw _
  refine .bind (keeps_ite (fun _ => ?_) fun _ => keeps_pure _) fun message => ?_
  · refine .bind (keeps_ite (fun _ => keeps_pure _) fun _ => inflateRounds_inside _ _ _)
      fun _ => ?_
    exact .bind (storeMessage_inside _ _) fun _ => keeps_pure _
  refine .bind (keeps_ite (fun enabled => ?_) fun _ => keeps_pure _) fun _ => keeps_pure _
  obtain ⟨checksum, found⟩ := configured.checksum_of_enabled enabled
  have long : settings.checksumLength ≤ checksumOptionsToLength settings.options := by
    rw [configured.length checksum found]
    exact checksumFits_iff.mp fits checksum found
  refine .bind (readBuffer_inside long) fun _ => .bind (checksumBytes_inside fits _ _)
    fun _ => ?_
  exact keeps_ite (fun _ => keeps_pure _) fun _ => keeps_throw _

/-- Every run stays inside, by induction on the calls. -/
theorem run_inside (configured : settings.Configured) (fits : ChecksumFits settings.options)
    (operations : List Operation) {wire : Wire} (inside : Inside settings wire)
    : Inside settings (wire.run codec operations) := by
  induction operations generalizing wire with
  | nil => exact inside
  | cons operation operations ih =>
      refine ih ?_
      cases operation with
      | write message sends =>
          exact writeBinaryMessage_inside fits message _ ⟨inside.settings, inside.fits⟩
      | read arriving =>
          exact readMessage_inside configured fits _ ⟨inside.settings, inside.fits⟩

end Inside

-----------------------------------------------------------------------------------------
-- Checksums that do not fit
-----------------------------------------------------------------------------------------

/-- What the libraries promise: the bound of the compression on its output, and ciphers that
encrypt every message whose length is an `int`.
-/
structure Codec.Works (codec : Codec) : Prop where
  deflate_le : ∀ bytes : Bytes.Block, (codec.deflate bytes).length
    ≤ bytes.length + bytes.length / 2 ^ 12 + bytes.length / 2 ^ 14 + bytes.length / 2 ^ 25 + 13
  encrypts : ∀ cipher (bytes : Bytes.Block), bytes.length < 2 ^ 31
    → ∃ encrypted, codec.encrypt cipher bytes = some encrypted

/-- A socket with given settings that has not exchanged any message. -/
def Wire.fresh (settings : Settings) : Wire where
  settings
  messageBinarySize := 0
  compressionBuffer := none
  encryptionBuffer := none
  decryptionBuffer := none
  sends := []
  incoming := []
  outgoing := []
  accesses := []

section Overflow

variable {codec : Codec} {settings : Settings} {wire : Wire}

/-- A byte can be compressed with a buffer of its own. -/
theorem compressMessage_byte (works : codec.Works) (unallocated : wire.compressionBuffer = none)
    : ∃ compressed next, compressMessage codec settings [0] wire = .ok compressed next
      ∧ compressed.length < 2 ^ 31 ∧ next.sends = wire.sends := by
  rw [compressMessage]
  split_ifs
  · have bound : (codec.deflate [0]).length ≤ 14 := by simpa using works.deflate_le [0]
    rw [deflateBytes_apply, if_pos (by simp [unallocated, compressionBuffer]; omega)]
    exact ⟨_, _, rfl, by omega, rfl⟩
  · exact ⟨[0], wire, rfl, by simp, rfl⟩

/-- Short messages can be encrypted. -/
theorem encryptMessage_short (works : codec.Works) (configured : settings.Configured)
    {bytes : Bytes.Block} (short : bytes.length < 2 ^ 31)
    : ∃ encrypted next, encryptMessage codec settings bytes wire = .ok encrypted next
      ∧ next.sends = wire.sends := by
  rw [encryptMessage]
  split_ifs with enabled
  · obtain ⟨cipher, found, _⟩ := configured.cipher enabled
    obtain ⟨encrypted, works⟩ := works.encrypts cipher bytes short
    simp only [found, encryptBytes_apply, works]
    exact ⟨_, _, rfl, rfl⟩
  · exact ⟨bytes, wire, rfl, rfl⟩

/-- A byte can be written, and the digest of its checksum goes to the buffer of the stack. -/
theorem writeBinaryMessage_byte (works : codec.Works) (configured : settings.Configured)
    {checksum : Checksum} (found : firstChoice Checksum settings.options = some checksum)
    : ∃ next, writeBinaryMessage codec [0] (Wire.fresh settings) = .ok () next
      ∧ ⟨.checksum, checksumOptionsToLength settings.options, checksum.digestLength⟩
        ∈ next.accesses := by
  have enabled := configured.enabled_of_checksum found
  obtain ⟨compressed, second, compresses, small, willing⟩ :=
    @compressMessage_byte codec settings (.fresh settings) works rfl
  obtain ⟨encrypted, third, encrypts, stillWilling⟩ :=
    @encryptMessage_short codec settings second works configured _ small
  have willing : third.sends = [] := stillWilling.trans willing
  have sizedByte : sized [0] = [0] := rfl
  have governed : (Wire.fresh settings).settings = settings := rfl
  change ∃ next, (compressMessage codec settings (sized [0]) >>= _) (Wire.fresh settings)
    = .ok () next ∧ _
  rw [sizedByte, bind_of_ok compresses, governed, sized_of_lt (by omega), bind_of_ok encrypts,
    bind_of_ok (writeBuffer_apply willing _),
    bind_of_ok (writeBuffer_apply (show (third.sent _).sends = [] from willing) _),
    writeChecksum, if_pos enabled, bind_of_ok (checksumBytes_apply codec found _ _ _),
    writeBuffer_apply (by exact willing)]
  exact ⟨_, rfl, List.mem_append_right _ (List.mem_singleton.mpr rfl)⟩

/-- Settings whose checksums do not fit have a checksum that is too long. -/
theorem Settings.Configured.tooLong (configured : settings.Configured)
    (overflows : ¬ChecksumFits settings.options)
    : settings.checksumEnabled = true ∧ ∃ checksum,
      firstChoice Checksum settings.options = some checksum
      ∧ checksumOptionsToLength settings.options < checksum.digestLength := by
  rw [checksumFits_iff] at overflows
  push Not at overflows
  obtain ⟨checksum, found, short⟩ := overflows
  exact ⟨configured.enabled_of_checksum found, checksum, found, short⟩

/-- A write of a byte overflows the buffer of the checksum, when that does not fit. -/
theorem writeBinaryMessage_overflows (works : codec.Works) (configured : settings.Configured)
    (overflows : ¬ChecksumFits settings.options)
    : ∃ next, writeBinaryMessage codec [0] (Wire.fresh settings) = .ok () next
      ∧ ∃ access ∈ next.accesses, ¬access.Fits := by
  obtain ⟨_, checksum, found, short⟩ := configured.tooLong overflows
  obtain ⟨next, written, listed⟩ := writeBinaryMessage_byte works configured found
  exact ⟨next, written, _, listed, Nat.not_le.mpr short⟩

end Overflow

-----------------------------------------------------------------------------------------
-- Sockets after a handshake
-----------------------------------------------------------------------------------------

/-- A socket that connected or accepted, whatever the other end sent. -/
def Finished {PublicKey PrivateKey : Type} (crypto : Crypto PublicKey PrivateKey)
    (socket : Socket)
    : Prop :=
  (∃ client received, Returns (connect crypto client) received (.ok socket))
    ∨ ∃ server received, Returns (accept crypto server) received (.ok socket)

/-- A finished handshake configures the socket. -/
theorem Finished.configured {PublicKey PrivateKey : Type} {crypto : Crypto PublicKey PrivateKey}
    {socket : Socket} (finished : Finished crypto socket)
    : socket.settings.Configured := by
  obtain ⟨client, received, returned⟩ | ⟨server, received, returned⟩ := finished
  · obtain ⟨_, _, _, _, configured⟩ := connect_settings returned
    exact configured
  · obtain ⟨_, _, _, _, configured⟩ := accept_settings returned
    exact configured

/-- No sequence of calls on a socket writes outside a buffer, whatever the other end sends. -/
def StaysInside (codec : Codec) (settings : Settings) : Prop :=
  ∀ wire : Wire, wire.settings = settings → wire.accesses = [] → ∀ operations,
    ∀ access ∈ (wire.run codec operations).accesses, access.Fits

/-- A first write that succeeds leaves its writes to buffers. -/
theorem listed_of_written {codec : Codec} {settings : Settings} {next : Wire}
    {message : Bytes.Block}
    (written : writeBinaryMessage codec message (Wire.fresh settings) = .ok () next)
    {access : BufferAccess} (listed : access ∈ next.accesses)
    : access ∈ ((Wire.fresh settings).run codec [.write message []]).accesses := by
  change access ∈ (after (writeBinaryMessage codec message) (Wire.fresh settings)).accesses
  rw [after, written]
  exact listed

/-- After a handshake, no sequence of reads and writes leaves a buffer iff the buffers of the
checksums fit.
-/
theorem staysInside_iff {PublicKey PrivateKey : Type} {crypto : Crypto PublicKey PrivateKey}
    {codec : Codec} (works : codec.Works) {socket : Socket} (finished : Finished crypto socket)
    : StaysInside codec socket.settings ↔ ChecksumFits socket.options := by
  constructor
  · intro inside
    by_contra overflows
    obtain ⟨next, written, access, listed, outside⟩ :=
      writeBinaryMessage_overflows works finished.configured overflows
    exact outside (inside (.fresh socket.settings) rfl rfl [.write [0] []] access
      (listed_of_written written listed))
  · intro fits wire settings fresh operations
    have start : Inside socket.settings wire := ⟨settings, by simp [fresh]⟩
    exact (run_inside finished.configured fits operations start).fits

/-- Libraries that leave everything as it is, with a byte of padding. -/
def plainCodec : Codec where
  deflate bytes := bytes
  inflate bytes room := (bytes.take room, bytes.length ≤ room)
  blockSize _ := 16
  encrypt _ bytes := some (bytes ++ [0])
  decrypt _ bytes := some bytes.dropLast
  digest checksum _ := List.replicate checksum.digestLength 0

/-- They keep their promises. -/
theorem plainCodec_works : plainCodec.Works where
  deflate_le bytes := by
    change bytes.length ≤ _
    omega
  encrypts cipher bytes _ := ⟨bytes ++ [0], rfl⟩

/-- A client that offers given options. -/
def offeringClient (options : Options) : Client :=
  { someClient with options }

/-- The handshake of a server that takes the offer. -/
def takingFrame (options : Options) : Frame where
  serialization := .binary
  protection := .none
  message := hello someClient.toEndpoint "p7.handshake.server_handshake" (some .binary) options
    false

/-- The offer is taken. -/
theorem offeringClient_finished (options : Options)
    (taken : ((connect plainCrypto (offeringClient options)).play [some (takingFrame options)]).map
      (fun outcome => outcome.toOption.map Socket.options) = some (some options))
    : ∃ socket, Finished plainCrypto socket ∧ socket.options = options := by
  obtain ⟨outcome, result, chosen⟩ := Option.map_eq_some_iff.mp taken
  cases outcome with
  | error failure => simp [Except.toOption] at chosen
  | ok socket =>
      exact ⟨socket, .inl ⟨_, _, returns_of_play result⟩, Option.some.inj chosen⟩

/-- A client that offers only the second checksum gets it. -/
theorem sha256_finished
    : ∃ socket, Finished plainCrypto socket ∧ socket.options = option Checksum.sha256
      ∧ ¬ChecksumFits socket.options := by
  obtain ⟨socket, finished, options⟩ :=
    offeringClient_finished (option Checksum.sha256) (by decide)
  refine ⟨socket, finished, options, ?_⟩
  rw [options]
  decide

theorem not_staysInside_sha256
    : ∃ socket, (Finished plainCrypto socket ∧ socket.options = option Checksum.sha256)
      ∧ ¬StaysInside plainCodec socket.settings := by
  obtain ⟨socket, finished, options, overflows⟩ := sha256_finished
  obtain ⟨next, written, access, listed, outside⟩ :=
    writeBinaryMessage_overflows plainCodec_works finished.configured overflows
  exact ⟨socket, ⟨finished, options⟩, fun inside =>
    outside (inside (.fresh socket.settings) rfl rfl [.write [0] []] access
      (listed_of_written written listed))⟩

theorem staysInside_iff_sha1
    : ∃ socket, (Finished plainCrypto socket ∧ socket.options = option Checksum.sha1)
      ∧ StaysInside plainCodec socket.settings := by
  obtain ⟨socket, finished, options⟩ :=
    offeringClient_finished (option Checksum.sha1) (by decide)
  refine ⟨socket, ⟨finished, options⟩, (staysInside_iff plainCodec_works finished).mpr ?_⟩
  rw [options]
  decide

end WiredServer.P7
