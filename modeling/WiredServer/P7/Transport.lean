import Mathlib
import WiredServer.Lib.Action
import WiredServer.P7.Negotiation

/-! How a P7 socket writes and reads binary messages: compression, encryption and checksums, the
buffers that they need, and every write to one of these buffers with the size of the buffer.
-/

namespace WiredServer.P7

open Action

-----------------------------------------------------------------------------------------
-- Libraries and buffers
-----------------------------------------------------------------------------------------

/-- The libraries that transform messages. -/
structure Codec where
  /-- The whole stream that `deflate` makes of its input. -/
  deflate : Bytes.Block → Bytes.Block
  /-- What `inflate` makes of its input in a given room, and whether the stream ends there. -/
  inflate : Bytes.Block → ℕ → Bytes.Block × Bool
  /-- `wi_cipher_block_size`. -/
  blockSize : CipherType → ℕ
  /-- `wi_cipher_encrypt_bytes`. -/
  encrypt : Cipher → Bytes.Block → Option Bytes.Block
  /-- `wi_cipher_decrypt_bytes`. -/
  decrypt : Cipher → Bytes.Block → Option Bytes.Block
  /-- `wi_sha1_digest` and its siblings. -/
  digest : Checksum → Bytes.Block → Bytes.Block

/-- The buffers of a socket, of a received message and of the stack. -/
inductive Buffer where
  | length | received | compression | encryption | decryption
  | checksum | localChecksum | remoteChecksum
deriving DecidableEq, Repr

/-- A write to a buffer: the capacity of the buffer, and how far the write reaches. -/
structure BufferAccess where
  buffer : Buffer
  capacity : ℕ
  reach : ℕ
deriving DecidableEq, Repr

/-- A write that stays inside its buffer. -/
def BufferAccess.Fits (access : BufferAccess) : Prop :=
  access.reach ≤ access.capacity

instance (access : BufferAccess) : Decidable access.Fits :=
  inferInstanceAs (Decidable (_ ≤ _))

/-- The state of a socket that writes and reads: the lengths of the buffers it has allocated, the
results of its next writes to the stream, what has arrived and what it has sent, and all its
writes to buffers.
-/
structure Wire where
  settings : Settings
  messageBinarySize : UInt32
  compressionBuffer : Option ℕ
  encryptionBuffer : Option ℕ
  decryptionBuffer : Option ℕ
  sends : List Bool
  incoming : Bytes.Block
  outgoing : Bytes.Block
  accesses : List BufferAccess

/-- Why a message is not written or not read. -/
inductive TransportError where
  | disconnected
  | messageTooLarge
  | decompressedTooLarge
  | checksumMismatch
  | invalidMessage
  | libraryFailure
deriving DecidableEq, Repr

/-- A part of writing or reading. -/
abbrev Transport := EStateM TransportError Wire

/-- `_WI_P7_SOCKET_MAX_BINARY_SIZE`. -/
def maxBinarySize : ℕ :=
  10 * 1024 * 1024

/-- `_WI_P7_SOCKET_MAX_DECOMPRESSED_SIZE`. -/
def maxDecompressedSize : ℕ :=
  64 * 1024 * 1024

/-- `_WI_P7_CHECKSUM_OPTIONS_TO_LENGTH`, which tests the enums of the checksums. -/
def checksumOptionsToLength (options : Options) : ℕ :=
  let test (checksum : Checksum) := options &&& (Choices.flag checksum).toUInt64 ≠ 0
  if test .sha1 then Checksum.sha1.digestLength
  else if test .sha256 then Checksum.sha256.digestLength
  else if test .sha512 then Checksum.sha512.digestLength
  else Checksum.sha1.digestLength

/-- A state with one more write to a buffer. -/
def Wire.touched (wire : Wire) (buffer : Buffer) (capacity reach : ℕ) : Wire :=
  { wire with accesses := wire.accesses ++ [⟨buffer, capacity, reach⟩] }

/-- A state that has sent more bytes. -/
def Wire.sent (wire : Wire) (bytes : Bytes.Block) : Wire :=
  { wire with outgoing := wire.outgoing ++ bytes }

/-- Notes a write to a buffer. -/
def touch (buffer : Buffer) (capacity reach : ℕ) : Transport Unit :=
  modify fun wire => wire.touched buffer capacity reach

/-- `wi_socket_write_buffer`. -/
def writeBuffer (bytes : Bytes.Block) : Transport Unit := fun wire =>
  match wire.sends with
  | false :: sends => .error .disconnected { wire with sends }
  | sends => .ok () ({ wire with sends := sends.tail }.sent bytes)

/-- `wi_socket_read_buffer`, with a result that is neither negative nor zero. -/
def readBuffer (buffer : Buffer) (capacity length : ℕ) : Transport Bytes.Block := fun wire =>
  let bytes := wire.incoming.take length
  let next := { wire with incoming := wire.incoming.drop length }.touched buffer capacity
    bytes.length
  if bytes.length < length ∨ length = 0 then .error .disconnected next else .ok bytes next

/-- The bytes that a size of 32 bits counts. -/
def sized (bytes : Bytes.Block) : Bytes.Block :=
  bytes.take (bytes.length % 2 ^ 32)

/-- The length of the buffer of the compression that has to hold some bytes. -/
def compressionBuffer (allocated : Option ℕ) (size : ℕ) : ℕ :=
  match allocated with
  | none => size
  | some length => if length < size then size else length

/-- The length of a buffer of the cipher that has to hold some bytes. -/
def cipherBuffer (allocated : Option ℕ) (size : ℕ) : ℕ :=
  match allocated with
  | none => size
  | some length => if size > length then size * 2 else length

-----------------------------------------------------------------------------------------
-- Writing
-----------------------------------------------------------------------------------------

section Transport

variable (codec : Codec)

/-- `_wi_p7_socket_deflate`. -/
def deflateBytes (bytes : Bytes.Block) : Transport Bytes.Block := do
  let wire ← get
  let size := (bytes.length * 2 + 16) % 2 ^ 32
  let capacity := compressionBuffer wire.compressionBuffer size
  modify fun wire => { wire with compressionBuffer := some capacity }
  let deflated := codec.deflate bytes
  -- The stream never goes beyond the available output.
  touch .compression capacity (min deflated.length capacity)
  if deflated.length ≤ capacity then pure deflated else throw .libraryFailure

/-- The cipher writes as much as a block more than it reads. -/
def encryptBytes (cipher : Cipher) (bytes : Bytes.Block) : Transport Bytes.Block := do
  let wire ← get
  let size := bytes.length + codec.blockSize cipher.type
  let capacity := cipherBuffer wire.encryptionBuffer size
  modify fun wire => { wire with encryptionBuffer := some capacity }
  touch .encryption capacity size
  match codec.encrypt cipher bytes with
  | some encrypted => pure encrypted
  | none => throw .libraryFailure

/-- `_wi_p7_socket_checksum_buffer`, into a buffer of the stack. -/
def checksumBytes (settings : Settings) (buffer : Buffer) (bytes : Bytes.Block)
    : Transport Bytes.Block :=
  match firstChoice Checksum settings.options with
  | some checksum => do
      touch buffer (checksumOptionsToLength settings.options) checksum.digestLength
      pure (codec.digest checksum (sized bytes))
  | none => pure []

/-- The compression of a message to write. -/
def compressMessage (settings : Settings) (bytes : Bytes.Block) : Transport Bytes.Block :=
  if settings.compressionEnabled then deflateBytes codec bytes else pure bytes

/-- The encryption of a message to write. -/
def encryptMessage (settings : Settings) (bytes : Bytes.Block) : Transport Bytes.Block :=
  if settings.encryptionEnabled then
    match settings.cipher with
    | some cipher => encryptBytes codec cipher bytes
    | none => throw .libraryFailure
  else pure bytes

/-- The checksum behind a message. -/
def writeChecksum (settings : Settings) (message : Bytes.Block) : Transport Unit :=
  if settings.checksumEnabled then do
    let checksum ← checksumBytes codec settings .checksum message
    writeBuffer (checksum.take settings.checksumLength)
  else pure ()

/-- `_wi_p7_socket_write_binary_message`. -/
def writeBinaryMessage (message : Bytes.Block) : Transport Unit := do
  let wire ← get
  let compressed ← compressMessage codec wire.settings (sized message)
  let encrypted ← encryptMessage codec wire.settings (sized compressed)
  let sending := sized encrypted
  writeBuffer (Bytes.be32 (.ofNat sending.length))
  writeBuffer sending
  writeChecksum codec wire.settings message

-----------------------------------------------------------------------------------------
-- Reading
-----------------------------------------------------------------------------------------

/-- The cipher may write as much as a block more than it reads. -/
def decryptBytes (cipher : Cipher) (bytes : Bytes.Block) : Transport Bytes.Block := do
  let wire ← get
  let size := bytes.length + codec.blockSize cipher.type
  let capacity := cipherBuffer wire.decryptionBuffer size
  modify fun wire => { wire with decryptionBuffer := some capacity }
  touch .decryption capacity size
  match codec.decrypt cipher bytes with
  | some decrypted => pure decrypted
  | none => throw .libraryFailure

/-- The rounds of `_wi_p7_socket_inflate`, with what the last one left. -/
def inflateRounds (bytes : Bytes.Block) : List ℕ → Bytes.Block → Transport Bytes.Block
  | [], inflated => pure inflated
  | multiple :: multiples, _ =>
      let proposed := bytes.length * 2 ^ multiple % 2 ^ 32
      if proposed > maxDecompressedSize then throw .decompressedTooLarge
      else do
        modify fun wire => { wire with compressionBuffer := some proposed }
        -- The stream may use all of the available output.
        touch .compression proposed proposed
        let (inflated, ended) := codec.inflate bytes proposed
        if ended then pure inflated else inflateRounds bytes multiples inflated

/-- `_wi_p7_socket_inflate`. -/
def inflateBytes (bytes : Bytes.Block) : Transport Bytes.Block :=
  if bytes.length = 0 then pure [] else inflateRounds codec bytes (List.range' 2 14) []

/-- Copies a transformed message back to its own buffer, which grows when it has to. -/
def storeMessage (capacity : ℕ) (bytes : Bytes.Block) : Transport ℕ := do
  let grown := if bytes.length > capacity then bytes.length else capacity
  touch .received grown bytes.length
  pure grown

/-- The decryption of a received message, in a buffer of the given capacity. -/
def decryptMessage (settings : Settings) (capacity : ℕ) (bytes : Bytes.Block)
    : Transport (Bytes.Block × ℕ) :=
  if settings.encryptionEnabled then
    match settings.cipher with
    | some cipher => do
        let decrypted ← decryptBytes codec cipher bytes
        let capacity ← storeMessage capacity decrypted
        pure (decrypted, capacity)
    | none => throw .libraryFailure
  else pure (bytes, capacity)

/-- The decompression of a received message, in a buffer of the given capacity. -/
def decompressMessage (settings : Settings) (capacity : ℕ) (bytes : Bytes.Block)
    : Transport Bytes.Block :=
  if settings.compressionEnabled then do
    let inflated ← inflateBytes codec bytes
    let _ ← storeMessage capacity inflated
    pure inflated
  else pure bytes

/-- The check of the checksum behind a message. -/
def readChecksum (settings : Settings) (message : Bytes.Block) : Transport Unit :=
  if settings.checksumEnabled then do
    let remote ← readBuffer .remoteChecksum (checksumOptionsToLength settings.options)
      settings.checksumLength
    let checksum ← checksumBytes codec settings .localChecksum message
    if remote = checksum.take settings.checksumLength then pure () else throw .checksumMismatch
  else pure ()

/-- `_wi_p7_socket_read_binary_message`. -/
def readBinaryMessage (settings : Settings) (messageSize : ℕ) : Transport Bytes.Block :=
  if messageSize > maxBinarySize then throw .messageTooLarge
  else do
    let bytes ← readBuffer .received messageSize messageSize
    modify fun wire => { wire with messageBinarySize := 0 }
    let (decrypted, capacity) ← decryptMessage codec settings messageSize bytes
    let message ← decompressMessage codec settings capacity decrypted
    readChecksum codec settings message
    pure message

/-- The size in front of a message, unless it has been read before. -/
def readSize (size : UInt32) : Transport UInt32 :=
  if size = 0 then do
    let bytes ← readBuffer .length 4 4
    modify fun wire => { wire with messageBinarySize := Bytes.ofBe32 bytes }
    pure (Bytes.ofBe32 bytes)
  else pure size

/-- `wi_p7_socket_read_message`, for a socket whose messages are binary. -/
def readMessage : Transport Bytes.Block := do
  let wire ← get
  let size ← readSize wire.messageBinarySize
  let message ← readBinaryMessage codec wire.settings size.toNat
  if message = [] then throw .invalidMessage else pure message

-----------------------------------------------------------------------------------------
-- What the parts do
-----------------------------------------------------------------------------------------

/-- A deflation succeeds when its output fits into the buffer. -/
theorem deflateBytes_apply (bytes : Bytes.Block) (wire : Wire)
    : deflateBytes codec bytes wire
      = (if (codec.deflate bytes).length
            ≤ compressionBuffer wire.compressionBuffer ((bytes.length * 2 + 16) % 2 ^ 32) then
          pure (codec.deflate bytes)
        else throw .libraryFailure : Transport Bytes.Block)
          ({ wire with
            compressionBuffer := some (compressionBuffer wire.compressionBuffer
              ((bytes.length * 2 + 16) % 2 ^ 32)) }.touched .compression
            (compressionBuffer wire.compressionBuffer ((bytes.length * 2 + 16) % 2 ^ 32))
            (min (codec.deflate bytes).length (compressionBuffer wire.compressionBuffer
              ((bytes.length * 2 + 16) % 2 ^ 32)))) :=
  rfl

/-- An encryption succeeds when the cipher does. -/
theorem encryptBytes_apply (cipher : Cipher) (bytes : Bytes.Block) (wire : Wire)
    : encryptBytes codec cipher bytes wire
      = (match codec.encrypt cipher bytes with
          | some encrypted => pure encrypted
          | none => throw .libraryFailure : Transport Bytes.Block)
          ({ wire with
            encryptionBuffer := some (cipherBuffer wire.encryptionBuffer
              (bytes.length + codec.blockSize cipher.type)) }.touched .encryption
            (cipherBuffer wire.encryptionBuffer (bytes.length + codec.blockSize cipher.type))
            (bytes.length + codec.blockSize cipher.type)) :=
  rfl

/-- A decryption succeeds when the cipher does. -/
theorem decryptBytes_apply (cipher : Cipher) (bytes : Bytes.Block) (wire : Wire)
    : decryptBytes codec cipher bytes wire
      = (match codec.decrypt cipher bytes with
          | some decrypted => pure decrypted
          | none => throw .libraryFailure : Transport Bytes.Block)
          ({ wire with
            decryptionBuffer := some (cipherBuffer wire.decryptionBuffer
              (bytes.length + codec.blockSize cipher.type)) }.touched .decryption
            (cipherBuffer wire.decryptionBuffer (bytes.length + codec.blockSize cipher.type))
            (bytes.length + codec.blockSize cipher.type)) :=
  rfl

/-- A checksum fills its buffer with the digest of the agreed kind. -/
theorem checksumBytes_apply {settings : Settings} {checksum : Checksum}
    (found : firstChoice Checksum settings.options = some checksum) (buffer : Buffer)
    (bytes : Bytes.Block) (wire : Wire)
    : checksumBytes codec settings buffer bytes wire
      = .ok (codec.digest checksum (sized bytes)) (wire.touched buffer
          (checksumOptionsToLength settings.options) checksum.digestLength) := by
  rw [checksumBytes, found]
  rfl

/-- A write to a willing stream succeeds. -/
theorem writeBuffer_apply {wire : Wire} (willing : wire.sends = []) (bytes : Bytes.Block)
    : writeBuffer bytes wire = .ok () (wire.sent bytes) := by
  cases wire
  cases willing
  rfl

/-- A read succeeds when everything has arrived. -/
theorem readBuffer_apply {wire : Wire} {bytes rest : Bytes.Block}
    (arrived : wire.incoming = bytes ++ rest) (some : bytes ≠ []) (buffer : Buffer)
    (capacity : ℕ)
    : readBuffer buffer capacity bytes.length wire
      = .ok bytes ({ wire with incoming := rest }.touched buffer capacity bytes.length) := by
  have positive := List.length_pos_iff.mpr some
  have all : ¬(bytes.length < bytes.length ∨ bytes.length = 0) := by omega
  simp only [readBuffer, arrived, List.take_left, List.drop_left, if_neg all]

end Transport

/-- Short bytes are counted by 32 bits. -/
theorem sized_of_lt {bytes : Bytes.Block} (short : bytes.length < 2 ^ 32) : sized bytes = bytes := by
  rw [sized, Nat.mod_eq_of_lt short, List.take_length]

section Runs

variable (codec : Codec)

-----------------------------------------------------------------------------------------
-- Runs
-----------------------------------------------------------------------------------------

/-- One call on a socket: a message to write, with the results of the writes to the stream, or
a read after more bytes of the other end have arrived.
-/
inductive Operation where
  | write (message : Bytes.Block) (sends : List Bool)
  | read (arriving : Bytes.Block)

/-- The state after a call. -/
def Wire.perform (wire : Wire) : Operation → Wire
  | .write message sends => after (writeBinaryMessage codec message) { wire with sends }
  | .read arriving => after (readMessage codec) { wire with incoming := wire.incoming ++ arriving }

/-- The state after a sequence of calls. -/
def Wire.run (wire : Wire) (operations : List Operation) : Wire :=
  operations.foldl (Wire.perform codec) wire

end Runs

end WiredServer.P7
