import Mathlib
import WiredServer.P7.BufferBounds

/-! Frames: what a socket that writes puts on the wire is read back by a socket with the same
settings, frame by frame, as far as the receiver guesses the size of the decompressed message.
-/

namespace WiredServer.P7

open Action

-----------------------------------------------------------------------------------------
-- Frames
-----------------------------------------------------------------------------------------

/-- What the libraries promise for the way there and back: inflation undoes deflation when there is
room, and does not end before; a stream expands at most 1032 times; decryption undoes encryption,
which adds at least a byte of padding; digests have their length.
-/
structure Codec.Lawful (codec : Codec) : Prop where
  inflates : ∀ bytes room, bytes.length ≤ room
    → codec.inflate (codec.deflate bytes) room = (bytes, true)
  unfinished : ∀ bytes room, room < bytes.length
    → (codec.inflate (codec.deflate bytes) room).2 = false
  expands : ∀ bytes, bytes.length ≤ 1032 * (codec.deflate bytes).length
  decrypts : ∀ cipher bytes encrypted, codec.encrypt cipher bytes = some encrypted
    → codec.decrypt cipher encrypted = some bytes
  pads : ∀ cipher bytes encrypted, codec.encrypt cipher bytes = some encrypted
    → bytes.length < encrypted.length
  digest_length : ∀ checksum bytes, (codec.digest checksum bytes).length = checksum.digestLength

section Frames

variable (codec : Codec) (settings : Settings)

/-- A message after the compression. -/
def compressed (message : Bytes.Block) : Bytes.Block :=
  if settings.compressionEnabled then codec.deflate message else message

/-- A message after the compression and the encryption. -/
def payload (message : Bytes.Block) : Option Bytes.Block :=
  if settings.encryptionEnabled then
    settings.cipher.bind fun cipher => codec.encrypt cipher (compressed codec settings message)
  else some (compressed codec settings message)

/-- The checksum behind a message. -/
def trailer (message : Bytes.Block) : Bytes.Block :=
  if settings.checksumEnabled then
    match firstChoice Checksum settings.options with
    | some checksum => (codec.digest checksum message).take settings.checksumLength
    | none => []
  else []

/-- The frame of a message: the size of its payload, the payload and the checksum. -/
def frame (message : Bytes.Block) : Bytes.Block :=
  let payload := (payload codec settings message).getD []
  Bytes.be32 (.ofNat payload.length) ++ payload ++ trailer codec settings message

/-- The frame of a message is not longer than a receiver accepts. -/
def FrameFits (message : Bytes.Block) : Prop :=
  ∃ bytes, payload codec settings message = some bytes ∧ bytes.length ≤ maxBinarySize

/-- The receiver finds the size of a compressed message: a power of two times the compressed
length that is large enough, but not larger than its limit.
-/
def Inflatable (message : Bytes.Block) : Prop :=
  settings.compressionEnabled = true
    → ∃ multiple ≥ 2, message.length ≤ (codec.deflate message).length * 2 ^ multiple
      ∧ (codec.deflate message).length * 2 ^ multiple ≤ maxDecompressedSize

end Frames

-----------------------------------------------------------------------------------------
-- Inflation
-----------------------------------------------------------------------------------------

/-- Two states with the same settings and the same bytes to read. -/
structure Wire.SameInput (wire next : Wire) : Prop where
  settings : next.settings = wire.settings
  incoming : next.incoming = wire.incoming
  messageBinarySize : next.messageBinarySize = wire.messageBinarySize

/-- Every state has the same input as itself. -/
theorem Wire.SameInput.refl (wire : Wire) : wire.SameInput wire :=
  ⟨rfl, rfl, rfl⟩

/-- Same inputs are so through a third state. -/
theorem Wire.SameInput.trans {first second third : Wire} (same : first.SameInput second)
    (sameToo : second.SameInput third)
    : first.SameInput third :=
  ⟨sameToo.settings.trans same.settings, sameToo.incoming.trans same.incoming,
    sameToo.messageBinarySize.trans same.messageBinarySize⟩

section Inflation

variable {codec : Codec} {message : Bytes.Block}

/-- A round proposes a size that does not overflow. -/
theorem inflateRounds_cons {multiple : ℕ} {multiples : List ℕ} {bytes inflated : Bytes.Block}
    (small : bytes.length * 2 ^ multiple ≤ maxDecompressedSize) (wire : Wire)
    : inflateRounds codec bytes (multiple :: multiples) inflated wire
      = (if (codec.inflate bytes (bytes.length * 2 ^ multiple)).2 then
          pure (codec.inflate bytes (bytes.length * 2 ^ multiple)).1
        else inflateRounds codec bytes multiples
          (codec.inflate bytes (bytes.length * 2 ^ multiple)).1 : Transport Bytes.Block)
          ({ wire with compressionBuffer := some (bytes.length * 2 ^ multiple) }.touched
            .compression (bytes.length * 2 ^ multiple) (bytes.length * 2 ^ multiple)) := by
  have limit : maxDecompressedSize < 2 ^ 32 := by decide
  have exact : bytes.length * 2 ^ multiple % 2 ^ 32 = bytes.length * 2 ^ multiple :=
    Nat.mod_eq_of_lt (by omega)
  simp only [inflateRounds, exact, if_neg (Nat.not_lt.mpr small)]
  rfl

/-- The rounds find the message when one of them has enough room within the limit, by induction on
the rounds.
-/
theorem inflateRounds_ok (lawful : codec.Lawful) (start count : ℕ) {multiple : ℕ}
    (after : start ≤ multiple)
    (before : multiple < start + count)
    (enough : message.length ≤ (codec.deflate message).length * 2 ^ multiple)
    (small : (codec.deflate message).length * 2 ^ multiple ≤ maxDecompressedSize)
    (inflated : Bytes.Block) (wire : Wire)
    : ∃ next, inflateRounds codec (codec.deflate message) (List.range' start count) inflated wire
        = .ok message next
      ∧ wire.SameInput next := by
  induction count generalizing start inflated wire with
  | zero => omega
  | succ count ih =>
      have grows : (codec.deflate message).length * 2 ^ start
          ≤ (codec.deflate message).length * 2 ^ multiple :=
        Nat.mul_le_mul_left _ (Nat.pow_le_pow_right (by decide) after)
      rw [List.range'_succ, inflateRounds_cons (grows.trans small)]
      by_cases room : message.length ≤ (codec.deflate message).length * 2 ^ start
      · rw [lawful.inflates message _ room]
        exact ⟨_, rfl, ⟨rfl, rfl, rfl⟩⟩
      · rw [lawful.unfinished message _ (Nat.not_le.mp room)]
        have differs : start ≠ multiple := by
          rintro rfl
          exact room enough
        have later : start + 1 ≤ multiple := by omega
        obtain ⟨next, found, same⟩ := ih (start + 1) later (by omega) _ _
        exact ⟨next, found, same.settings, same.incoming, same.messageBinarySize⟩

/-- The rounds end with an error when a round exceeds the limit before there is enough room. -/
theorem inflateRounds_fails (lawful : codec.Lawful) (start count : ℕ)
    (reached : ∃ multiple, start ≤ multiple ∧ multiple < start + count
      ∧ message.length ≤ (codec.deflate message).length * 2 ^ multiple)
    (exceeds : ∀ multiple, start ≤ multiple
      → message.length ≤ (codec.deflate message).length * 2 ^ multiple
      → maxDecompressedSize < (codec.deflate message).length * 2 ^ multiple)
    (counted : (codec.deflate message).length * 2 ^ start < 2 ^ 32)
    (inflated : Bytes.Block) (wire : Wire)
    : ∃ failure next, inflateRounds codec (codec.deflate message) (List.range' start count)
        inflated wire
      = .error failure next := by
  induction count generalizing start inflated wire with
  | zero =>
      obtain ⟨multiple, _, _, _⟩ := reached
      omega
  | succ count ih =>
      rw [List.range'_succ]
      by_cases small : (codec.deflate message).length * 2 ^ start ≤ maxDecompressedSize
      · have short : ¬message.length ≤ (codec.deflate message).length * 2 ^ start := fun room =>
          absurd (exceeds start le_rfl room) (Nat.not_lt.mpr small)
        rw [inflateRounds_cons small, lawful.unfinished message _ (Nat.not_le.mp short)]
        refine ih (start + 1) ?_ (fun multiple later => exceeds multiple (by omega)) ?_ _ _
        · obtain ⟨multiple, after, before, room⟩ := reached
          have later : start ≠ multiple := by
            rintro rfl
            exact short room
          exact ⟨multiple, by omega, by omega, room⟩
        · have limit : maxDecompressedSize * 2 < 2 ^ 32 := by decide
          rw [Nat.pow_succ, ← Nat.mul_assoc]
          omega
      · have exact : (codec.deflate message).length * 2 ^ start % 2 ^ 32
            = (codec.deflate message).length * 2 ^ start :=
          Nat.mod_eq_of_lt counted
        refine ⟨.decompressedTooLarge, wire, ?_⟩
        simp only [inflateRounds, exact, if_pos (Nat.not_le.mp small)]
        rfl

/-- A stream of a message that is not empty is not empty. -/
theorem deflate_length_pos (lawful : codec.Lawful) (nonempty : message ≠ [])
    : 0 < (codec.deflate message).length := by
  have expands := lawful.expands message
  have positive := List.length_pos_iff.mpr nonempty
  omega

/-- The twelfth power of two has room for every message. -/
theorem enough_room (lawful : codec.Lawful)
    : message.length ≤ (codec.deflate message).length * 2 ^ 11 := by
  have expands := lawful.expands message
  omega

/-- The decompression undoes the compression of a message that can be inflated. -/
theorem decompressMessage_ok (lawful : codec.Lawful) {settings : Settings} (nonempty : message ≠ [])
    (inflatable : Inflatable codec settings message) (capacity : ℕ) (wire : Wire)
    : ∃ next, decompressMessage codec settings capacity (compressed codec settings message) wire
        = .ok message next
      ∧ wire.SameInput next := by
  rw [decompressMessage, compressed]
  split_ifs with enabled
  · obtain ⟨multiple, atLeast, enough, small⟩ := inflatable enabled
    obtain ⟨multiple, atLeast, below, enough, small⟩ : ∃ multiple ≥ 2, multiple < 16
        ∧ message.length ≤ (codec.deflate message).length * 2 ^ multiple
        ∧ (codec.deflate message).length * 2 ^ multiple ≤ maxDecompressedSize := by
      by_cases below : multiple < 16
      · exact ⟨multiple, atLeast, below, enough, small⟩
      · refine ⟨11, by decide, by decide, enough_room lawful, le_trans ?_ small⟩
        exact Nat.mul_le_mul_left _ (Nat.pow_le_pow_right (by decide) (by omega))
    have positive := deflate_length_pos lawful nonempty
    obtain ⟨next, found, same⟩ := inflateRounds_ok lawful 2 14 atLeast below enough small [] wire
    have inflates : inflateBytes codec (codec.deflate message) wire = .ok message next := by
      rw [inflateBytes, if_neg (by omega)]
      exact found
    rw [bind_of_ok inflates]
    exact ⟨_, rfl, same.settings, same.incoming, same.messageBinarySize⟩
  · exact ⟨wire, rfl, .refl wire⟩

/-- The decompression fails for a message that cannot be inflated. -/
theorem decompressMessage_fails (lawful : codec.Lawful) {settings : Settings}
    (nonempty : message ≠ [])
    (fits : (compressed codec settings message).length ≤ maxBinarySize)
    (uninflatable : ¬Inflatable codec settings message) (capacity : ℕ) (wire : Wire)
    : ∃ failure next, decompressMessage codec settings capacity (compressed codec settings message)
        wire
      = .error failure next := by
  simp only [Inflatable, not_forall, not_exists, not_and, Nat.not_le] at uninflatable
  obtain ⟨enabled, exceeds⟩ := uninflatable
  rw [compressed, if_pos enabled] at fits
  rw [decompressMessage, if_pos enabled, compressed, if_pos enabled]
  have limit : maxBinarySize * 4 < 2 ^ 32 := by decide
  have positive := deflate_length_pos lawful nonempty
  obtain ⟨failure, next, failed⟩ := inflateRounds_fails lawful 2 14
    ⟨11, by decide, by decide, enough_room lawful⟩ exceeds (by omega) [] wire
  have inflates : inflateBytes codec (codec.deflate message) wire = .error failure next := by
    rw [inflateBytes, if_neg (by omega)]
    exact failed
  exact ⟨failure, next, bind_of_error inflates⟩

end Inflation

-----------------------------------------------------------------------------------------
-- Reading a frame
-----------------------------------------------------------------------------------------

section Reading

variable {codec : Codec} {settings : Settings} {message bytes rest : Bytes.Block}

/-- A message that is not empty has a payload that is not empty. -/
theorem payload_ne_nil (lawful : codec.Lawful) (nonempty : message ≠ [])
    (encrypted : payload codec settings message = some bytes)
    : bytes ≠ [] := by
  have some : compressed codec settings message ≠ [] := by
    rw [compressed]
    split_ifs
    · exact List.length_pos_iff.mp (deflate_length_pos lawful nonempty)
    · exact nonempty
  rw [payload] at encrypted
  split_ifs at encrypted
  · obtain ⟨cipher, _, encrypts⟩ := Option.bind_eq_some_iff.mp encrypted
    have pads := lawful.pads _ _ _ encrypts
    exact List.length_pos_iff.mp (by omega)
  · cases encrypted
    exact some

/-- The compressed message is not longer than the payload. -/
theorem compressed_le_payload (lawful : codec.Lawful)
    (encrypted : payload codec settings message = some bytes)
    : (compressed codec settings message).length ≤ bytes.length := by
  rw [payload] at encrypted
  split_ifs at encrypted
  · obtain ⟨cipher, _, encrypts⟩ := Option.bind_eq_some_iff.mp encrypted
    exact (lawful.pads _ _ _ encrypts).le
  · cases encrypted
    exact le_rfl

/-- The decryption undoes the encryption. -/
theorem decryptMessage_ok (lawful : codec.Lawful)
    (encrypted : payload codec settings message = some bytes) (capacity : ℕ) (wire : Wire)
    : ∃ grown next, decryptMessage codec settings capacity bytes wire
        = .ok (compressed codec settings message, grown) next
      ∧ wire.SameInput next := by
  rw [payload] at encrypted
  rw [decryptMessage]
  split_ifs at encrypted ⊢ with enabled
  · obtain ⟨cipher, found, encrypts⟩ := Option.bind_eq_some_iff.mp encrypted
    have decrypts := decryptBytes_apply codec cipher bytes wire
    rw [lawful.decrypts _ _ _ encrypts] at decrypts
    change _ = EStateM.Result.ok _ _ at decrypts
    simp only [found]
    rw [bind_of_ok decrypts]
    exact ⟨_, _, rfl, rfl, rfl, rfl⟩
  · cases encrypted
    exact ⟨capacity, wire, rfl, .refl wire⟩

/-- The checksum behind a message is the one of the message. -/
theorem readChecksum_ok (lawful : codec.Lawful) (configured : settings.Configured)
    (short : message.length < 2 ^ 32) {wire : Wire}
    (arrived : wire.incoming = trailer codec settings message ++ rest)
    : ∃ next, readChecksum codec settings message wire = .ok () next
      ∧ next.settings = wire.settings ∧ next.incoming = rest
      ∧ next.messageBinarySize = wire.messageBinarySize := by
  rw [readChecksum]
  rw [trailer] at arrived
  split_ifs at arrived ⊢ with enabled
  · obtain ⟨checksum, found⟩ := configured.checksum_of_enabled enabled
    rw [found] at arrived
    simp only at arrived
    have length := lawful.digest_length checksum message
    rw [← configured.length checksum found] at length
    have all : (codec.digest checksum message).take settings.checksumLength
        = codec.digest checksum message := by
      rw [← length, List.take_length]
    rw [all] at arrived
    have some : codec.digest checksum message ≠ [] := by
      refine List.length_pos_iff.mp ?_
      rw [lawful.digest_length]
      cases checksum <;> decide
    have reads := readBuffer_apply arrived some .remoteChecksum
      (checksumOptionsToLength settings.options)
    rw [length] at reads
    rw [bind_of_ok reads, bind_of_ok (checksumBytes_apply codec found _ _ _),
      sized_of_lt short, all, if_pos rfl]
    exact ⟨_, rfl, rfl, rfl, rfl⟩
  · exact ⟨wire, rfl, rfl, arrived, rfl⟩

/-- The size in front of a frame is read. -/
theorem readSize_frame {wire : Wire} (ready : wire.messageBinarySize = 0) (size : UInt32)
    (arrived : wire.incoming = Bytes.be32 size ++ rest)
    : ∃ next, readSize wire.messageBinarySize wire = .ok size next
      ∧ next.settings = wire.settings ∧ next.incoming = rest := by
  have some : Bytes.be32 size ≠ [] := by simp [Bytes.be32]
  have reads := readBuffer_apply arrived some .length 4
  rw [Bytes.be32_length] at reads
  rw [ready, readSize, if_pos rfl, bind_of_ok reads, Bytes.ofBe32_be32]
  exact ⟨_, rfl, rfl, rfl⟩

/-- What reading does after the decryption. -/
def finishMessage (codec : Codec) (settings : Settings) (capacity : ℕ) (decrypted : Bytes.Block)
    : Transport Bytes.Block := do
  let message ← decompressMessage codec settings capacity decrypted
  readChecksum codec settings message
  if message = [] then throw .invalidMessage else pure message

/-- A frame is read up to its checksum, and decrypted. -/
theorem readMessage_received (lawful : codec.Lawful) (nonempty : message ≠ [])
    (fits : FrameFits codec settings message) {wire : Wire} (agreed : wire.settings = settings)
    (ready : wire.messageBinarySize = 0)
    (arrived : wire.incoming = frame codec settings message ++ rest)
    : ∃ grown next, readMessage codec wire
        = finishMessage codec settings grown (compressed codec settings message) next
      ∧ next.settings = settings ∧ next.incoming = trailer codec settings message ++ rest
      ∧ next.messageBinarySize = 0 := by
  obtain ⟨bytes, encrypted, small⟩ := fits
  have limit : maxBinarySize < 2 ^ 32 := by decide
  have counted : (UInt32.ofNat bytes.length).toNat = bytes.length := by
    rw [UInt32.toNat_ofNat', Nat.mod_eq_of_lt (by omega)]
  have some := payload_ne_nil lawful nonempty encrypted
  simp only [frame, encrypted, Option.getD_some, List.append_assoc] at arrived
  obtain ⟨second, sizeRead, settingsKept, left⟩ := readSize_frame ready _ arrived
  have bytesRead := readBuffer_apply left some .received bytes.length
  obtain ⟨grown, third, decrypts, same⟩ :=
    decryptMessage_ok lawful encrypted bytes.length
      { ({ second with incoming := trailer codec settings message ++ rest }.touched .received
          bytes.length bytes.length) with messageBinarySize := 0 }
  refine ⟨grown, third, ?_, same.settings.trans (settingsKept.trans agreed), same.incoming,
    same.messageBinarySize⟩
  change (readSize wire.messageBinarySize >>= fun size => readBinaryMessage codec wire.settings
    size.toNat >>= _) wire = _
  rw [bind_of_ok sizeRead, agreed, counted, readBinaryMessage, if_neg (by omega)]
  simp only [bind_assoc, pure_bind]
  rw [bind_of_ok bytesRead]
  change (decryptMessage codec settings bytes.length bytes >>= _) _ = _
  rw [bind_of_ok decrypts]
  rfl

/-- A frame is read back, and leaves what stands behind it. -/
theorem readMessage_ok (lawful : codec.Lawful) (configured : settings.Configured)
    (nonempty : message ≠ []) (short : message.length < 2 ^ 32)
    (fits : FrameFits codec settings message) (inflatable : Inflatable codec settings message)
    {wire : Wire} (agreed : wire.settings = settings) (ready : wire.messageBinarySize = 0)
    (arrived : wire.incoming = frame codec settings message ++ rest)
    : ∃ next, readMessage codec wire = .ok message next ∧ next.settings = settings
      ∧ next.messageBinarySize = 0 ∧ next.incoming = rest := by
  obtain ⟨grown, second, reads, settingsKept, left, cleared⟩ :=
    readMessage_received lawful nonempty fits agreed ready arrived
  obtain ⟨third, decompresses, same⟩ :=
    decompressMessage_ok lawful nonempty inflatable grown second
  obtain ⟨fourth, checks, settingsToo, empty, clearedToo⟩ :=
    readChecksum_ok lawful configured short (same.incoming.trans left)
  refine ⟨fourth, ?_, (settingsToo.trans same.settings).trans settingsKept,
    (clearedToo.trans same.messageBinarySize).trans cleared, empty⟩
  rw [reads, finishMessage, bind_of_ok decompresses, bind_of_ok checks, if_neg nonempty]
  rfl

/-- The frame of a message that cannot be inflated is not read. -/
theorem readMessage_fails (lawful : codec.Lawful) (nonempty : message ≠ [])
    (fits : FrameFits codec settings message)
    (uninflatable : ¬Inflatable codec settings message) {wire : Wire}
    (agreed : wire.settings = settings) (ready : wire.messageBinarySize = 0)
    (arrived : wire.incoming = frame codec settings message ++ rest)
    : ∃ failure next, readMessage codec wire = .error failure next := by
  obtain ⟨grown, second, reads, _⟩ :=
    readMessage_received lawful nonempty fits agreed ready arrived
  obtain ⟨bytes, encrypted, small⟩ := fits
  obtain ⟨failure, third, fails⟩ := decompressMessage_fails lawful nonempty
    ((compressed_le_payload lawful encrypted).trans small) uninflatable grown second
  exact ⟨failure, third, by rw [reads, finishMessage, bind_of_error fails]⟩

end Reading

-----------------------------------------------------------------------------------------
-- Writing a frame
-----------------------------------------------------------------------------------------

/-- Two states with the same settings and output, of which the second has written to more buffers.
-/
structure Wire.SameOutput (wire next : Wire) : Prop where
  settings : next.settings = wire.settings
  outgoing : next.outgoing = wire.outgoing
  accesses : wire.accesses ⊆ next.accesses

section Writing

variable {codec : Codec} {settings : Settings} {message : Bytes.Block} {wire next : Wire}

/-- A write that did not fail has sent its bytes. -/
theorem writeBuffer_eq_ok {bytes : Bytes.Block}
    (written : writeBuffer bytes wire = .ok () next)
    : next.settings = wire.settings ∧ next.outgoing = wire.outgoing ++ bytes
      ∧ next.accesses = wire.accesses := by
  rw [writeBuffer] at written
  split at written <;> cases written
  exact ⟨rfl, rfl, rfl⟩

/-- A compression that did not fail compressed the message. -/
theorem compressMessage_eq_ok {result : Bytes.Block}
    (compresses : compressMessage codec settings message wire = .ok result next)
    : result = compressed codec settings message ∧ wire.SameOutput next := by
  rw [compressMessage] at compresses
  rw [compressed]
  split_ifs at compresses ⊢
  · rw [deflateBytes_apply] at compresses
    split_ifs at compresses
    all_goals cases compresses
    exact ⟨rfl, rfl, rfl, List.subset_append_left _ _⟩
  · cases compresses
    exact ⟨rfl, rfl, rfl, List.Subset.refl _⟩

/-- An encryption that did not fail made the payload. -/
theorem encryptMessage_eq_ok {result : Bytes.Block}
    (encrypts : encryptMessage codec settings (compressed codec settings message) wire
      = .ok result next)
    : payload codec settings message = some result ∧ wire.SameOutput next := by
  rw [encryptMessage] at encrypts
  rw [payload]
  split_ifs at encrypts ⊢
  · cases found : settings.cipher with
    | none =>
        simp only [found] at encrypts
        cases encrypts
    | some cipher =>
        simp only [found, encryptBytes_apply] at encrypts
        cases works : codec.encrypt cipher (compressed codec settings message) with
        | none =>
            rw [works] at encrypts
            cases encrypts
        | some encrypted =>
            rw [works] at encrypts
            cases encrypts
            exact ⟨works, rfl, rfl, List.subset_append_left _ _⟩
  · cases encrypts
    exact ⟨rfl, rfl, rfl, List.Subset.refl _⟩

/-- A checksum that was written is on the wire, and was in its buffer. -/
theorem writeChecksum_eq_ok (short : message.length < 2 ^ 32)
    (written : writeChecksum codec settings message wire = .ok () next)
    : next.settings = wire.settings
      ∧ next.outgoing = wire.outgoing ++ trailer codec settings message
      ∧ wire.accesses ⊆ next.accesses
      ∧ (settings.checksumEnabled = true → ∀ checksum,
        firstChoice Checksum settings.options = some checksum
          → ⟨.checksum, checksumOptionsToLength settings.options, checksum.digestLength⟩
            ∈ next.accesses) := by
  rw [writeChecksum] at written
  rw [trailer]
  split_ifs at written ⊢ with enabled
  · cases found : firstChoice Checksum settings.options with
    | none =>
        simp only [checksumBytes, found, pure_bind] at written
        obtain ⟨settingsKept, outgoing, accesses⟩ := writeBuffer_eq_ok written
        exact ⟨settingsKept, by simpa using outgoing, accesses ▸ List.Subset.refl _, by simp⟩
    | some checksum =>
        rw [bind_of_ok (checksumBytes_apply codec found _ _ _), sized_of_lt short] at written
        obtain ⟨settingsKept, outgoing, accesses⟩ := writeBuffer_eq_ok written
        refine ⟨settingsKept, outgoing, accesses ▸ List.subset_append_left _ _, ?_⟩
        rintro _ _ ⟨⟩
        rw [accesses]
        exact List.mem_append_right _ (List.mem_singleton.mpr rfl)
  · cases written
    exact ⟨rfl, by simp, List.Subset.refl _, fun enabledToo => absurd enabledToo enabled⟩

/-- A message that was written is on the wire as its frame, and its checksum was in its buffer. -/
theorem writeBinaryMessage_eq_ok (short : message.length < 2 ^ 32)
    (fits : FrameFits codec settings message) (agreed : wire.settings = settings)
    (lawful : codec.Lawful)
    (written : writeBinaryMessage codec message wire = .ok () next)
    : next.settings = settings ∧ next.outgoing = wire.outgoing ++ frame codec settings message
      ∧ wire.accesses ⊆ next.accesses
      ∧ (settings.checksumEnabled = true → ∀ checksum,
        firstChoice Checksum settings.options = some checksum
          → ⟨.checksum, checksumOptionsToLength settings.options, checksum.digestLength⟩
            ∈ next.accesses) := by
  obtain ⟨bytes, encrypted, small⟩ := fits
  have limit : maxBinarySize < 2 ^ 32 := by decide
  have compressedSmall := compressed_le_payload lawful encrypted
  change (compressMessage codec wire.settings (sized message) >>= _) wire = _ at written
  rw [agreed, sized_of_lt short] at written
  obtain ⟨result, second, compresses, written⟩ := bind_eq_ok.mp written
  obtain ⟨rfl, sameOutput⟩ := compressMessage_eq_ok compresses
  rw [sized_of_lt (by omega)] at written
  obtain ⟨result, third, encrypts, written⟩ := bind_eq_ok.mp written
  obtain ⟨found, sameOutputToo⟩ := encryptMessage_eq_ok encrypts
  obtain rfl : bytes = result := Option.some.inj (encrypted.symm.trans found)
  rw [sized_of_lt (by omega)] at written
  obtain ⟨_, fourth, sizeWritten, written⟩ := bind_eq_ok.mp written
  obtain ⟨settingsFourth, outgoingFourth, accessesFourth⟩ := writeBuffer_eq_ok sizeWritten
  obtain ⟨_, fifth, payloadWritten, written⟩ := bind_eq_ok.mp written
  obtain ⟨settingsFifth, outgoingFifth, accessesFifth⟩ := writeBuffer_eq_ok payloadWritten
  obtain ⟨settingsKept, outgoing, accesses, filled⟩ := writeChecksum_eq_ok short written
  refine ⟨?_, ?_, ?_, filled⟩
  · rw [settingsKept, settingsFifth, settingsFourth, sameOutputToo.settings, sameOutput.settings,
      agreed]
  · rw [outgoing, outgoingFifth, outgoingFourth, sameOutputToo.outgoing, sameOutput.outgoing,
      frame, encrypted, Option.getD_some]
    simp only [List.append_assoc]
  · refine List.Subset.trans (List.Subset.trans sameOutput.accesses sameOutputToo.accesses) ?_
    rw [← accessesFourth, ← accessesFifth]
    exact accesses

end Writing

-----------------------------------------------------------------------------------------
-- Sequences of frames
-----------------------------------------------------------------------------------------

/-- Writes messages back to back. -/
def writeAll (codec : Codec) : List Bytes.Block → Transport Unit
  | [] => pure ()
  | message :: messages => do
      writeBinaryMessage codec message
      writeAll codec messages

/-- Reads a number of messages. -/
def readAll (codec : Codec) : ℕ → Transport (List Bytes.Block)
  | 0 => pure []
  | count + 1 => do
      let message ← readMessage codec
      let messages ← readAll codec count
      pure (message :: messages)

/-- A message that a socket can serialize: it is not empty, and its size has 32 bits. -/
structure Serialized (message : Bytes.Block) : Prop where
  nonempty : message ≠ []
  short : message.length < 2 ^ 32

section Sequences

variable {codec : Codec} {settings : Settings} {messages : List Bytes.Block}

/-- Messages that were written are on the wire as their frames, by induction on the messages. -/
theorem writeAll_eq_ok (lawful : codec.Lawful) (serialized : ∀ message ∈ messages,
      Serialized message) (fits : ∀ message ∈ messages, FrameFits codec settings message)
    {wire next : Wire} (agreed : wire.settings = settings)
    (written : writeAll codec messages wire = .ok () next)
    : next.settings = settings
      ∧ next.outgoing = wire.outgoing ++ (messages.map (frame codec settings)).flatten
      ∧ wire.accesses ⊆ next.accesses
      ∧ (messages ≠ [] → settings.checksumEnabled = true → ∀ checksum,
        firstChoice Checksum settings.options = some checksum
          → ⟨.checksum, checksumOptionsToLength settings.options, checksum.digestLength⟩
            ∈ next.accesses) := by
  induction messages generalizing wire with
  | nil =>
      cases written
      exact ⟨agreed, by simp, List.Subset.refl _, fun none => absurd rfl none⟩
  | cons message messages ih =>
      obtain ⟨_, second, first, rest⟩ := bind_eq_ok.mp written
      obtain ⟨agreedToo, outgoing, accesses, filled⟩ :=
        writeBinaryMessage_eq_ok (serialized _ (.head _)).short (fits _ (.head _)) agreed lawful
          first
      obtain ⟨agreedLast, outgoingLast, accessesLast, _⟩ :=
        ih (fun other listed => serialized other (.tail _ listed))
          (fun other listed => fits other (.tail _ listed)) agreedToo rest
      refine ⟨agreedLast, ?_, List.Subset.trans accesses accessesLast,
        fun _ enabled checksum found => accessesLast (filled enabled checksum found)⟩
      rw [outgoingLast, outgoing]
      simp

/-- Frames are read back when all of them can be inflated, by induction on the messages. -/
theorem readAll_ok (lawful : codec.Lawful) (configured : settings.Configured)
    (serialized : ∀ message ∈ messages, Serialized message)
    (fits : ∀ message ∈ messages, FrameFits codec settings message)
    (inflatable : ∀ message ∈ messages, Inflatable codec settings message)
    {wire : Wire} {rest : Bytes.Block} (agreed : wire.settings = settings)
    (ready : wire.messageBinarySize = 0)
    (arrived : wire.incoming = (messages.map (frame codec settings)).flatten ++ rest)
    : ∃ next, readAll codec messages.length wire = .ok messages next
      ∧ next.messageBinarySize = 0 ∧ next.incoming = rest := by
  induction messages generalizing wire with
  | nil => exact ⟨wire, rfl, ready, by simpa using arrived⟩
  | cons message messages ih =>
      simp only [List.map_cons, List.flatten_cons, List.append_assoc] at arrived
      obtain ⟨second, reads, agreedToo, readyToo, left⟩ :=
        readMessage_ok lawful configured (serialized _ (.head _)).nonempty
          (serialized _ (.head _)).short (fits _ (.head _)) (inflatable _ (.head _)) agreed ready
          arrived
      obtain ⟨third, readsAll, readyLast, leftLast⟩ :=
        ih (fun other listed => serialized other (.tail _ listed))
          (fun other listed => fits other (.tail _ listed))
          (fun other listed => inflatable other (.tail _ listed)) agreedToo readyToo left
      refine ⟨third, ?_, readyLast, leftLast⟩
      rw [List.length_cons, readAll, bind_of_ok reads, bind_of_ok readsAll]
      rfl

/-- Frames that are read back can all be inflated, by induction on the messages. -/
theorem inflatable_of_readAll (lawful : codec.Lawful) (configured : settings.Configured)
    (serialized : ∀ message ∈ messages, Serialized message)
    (fits : ∀ message ∈ messages, FrameFits codec settings message)
    {wire next : Wire} {rest : Bytes.Block} (agreed : wire.settings = settings)
    (ready : wire.messageBinarySize = 0)
    (arrived : wire.incoming = (messages.map (frame codec settings)).flatten ++ rest)
    {result : List Bytes.Block}
    (reads : readAll codec messages.length wire = .ok result next)
    : ∀ message ∈ messages, Inflatable codec settings message := by
  induction messages generalizing wire next result with
  | nil => simp
  | cons message messages ih =>
      simp only [List.map_cons, List.flatten_cons, List.append_assoc] at arrived
      rw [List.length_cons, readAll] at reads
      obtain ⟨first, second, readsFirst, reads⟩ := bind_eq_ok.mp reads
      obtain ⟨others, third, readsOthers, _⟩ := bind_eq_ok.mp reads
      have inflatable : Inflatable codec settings message := by
        by_contra uninflatable
        obtain ⟨failure, fourth, failed⟩ := readMessage_fails lawful
          (serialized _ (.head _)).nonempty (fits _ (.head _)) uninflatable agreed ready arrived
        rw [failed] at readsFirst
        cases readsFirst
      obtain ⟨other, readsToo, agreedToo, readyToo, left⟩ :=
        readMessage_ok lawful configured (serialized _ (.head _)).nonempty
          (serialized _ (.head _)).short (fits _ (.head _)) inflatable agreed ready arrived
      rw [readsToo] at readsFirst
      cases readsFirst
      have others := ih (fun other listed => serialized other (.tail _ listed))
        (fun other listed => fits other (.tail _ listed)) agreedToo readyToo left readsOthers
      rintro listedMessage (_ | ⟨_, listed⟩)
      · exact inflatable
      · exact others listedMessage listed

end Sequences

/-- Both ends of a stream, before and after messages were written to it. -/
structure Delivery (codec : Codec) (settings : Settings) (messages : List Bytes.Block) where
  writer : Wire
  sent : Wire
  writerSettings : writer.settings = settings
  writerFresh : writer.accesses = []
  silent : writer.outgoing = []
  written : writeAll codec messages writer = .ok () sent

/-- A receiver reads exactly the messages that were written, no write to a buffer goes outside, and
what has arrived behind the messages is left.
-/
def FramesRoundTrip (codec : Codec) (settings : Settings) (messages : List Bytes.Block)
    (delivery : Delivery codec settings messages)
    : Prop :=
  ∀ reader : Wire, reader.settings = settings → reader.messageBinarySize = 0
    → reader.accesses = [] → ∀ rest, reader.incoming = delivery.sent.outgoing ++ rest
    → ∃ next, readAll codec messages.length reader = .ok messages next
      ∧ next.incoming = rest ∧ next.messageBinarySize = 0
      ∧ ∀ access ∈ delivery.sent.accesses ++ next.accesses, access.Fits

/-- Reading messages stays inside the buffers, by induction on their number. -/
theorem readAll_inside (codec : Codec) {settings : Settings} (configured : settings.Configured)
    (fits : ChecksumFits settings.options) (count : ℕ)
    : Keeps (Inside settings) (readAll codec count) := by
  induction count with
  | zero => exact keeps_pure _
  | succ count ih =>
      exact .bind (readMessage_inside configured fits) fun _ => .bind ih fun _ => keeps_pure _

/-- Writing messages stays inside the buffers, by induction on the messages. -/
theorem writeAll_inside (codec : Codec) {settings : Settings}
    (fits : ChecksumFits settings.options) (messages : List Bytes.Block)
    : Keeps (Inside settings) (writeAll codec messages) := by
  induction messages with
  | nil => exact keeps_pure _
  | cons message messages ih => exact .bind (writeBinaryMessage_inside fits message) fun _ => ih

/-- Frames that fit the receiver are read back iff the buffers of the checksums fit and the
receiver finds the sizes of all compressed messages.
-/
theorem framesRoundTrip_iff {PublicKey PrivateKey : Type} {crypto : Crypto PublicKey PrivateKey}
    {codec : Codec} (lawful : codec.Lawful) {socket : Socket} (finished : Finished crypto socket)
    {messages : List Bytes.Block} (serialized : ∀ message ∈ messages, Serialized message)
    (fits : ∀ message ∈ messages, FrameFits codec socket.settings message)
    (delivery : Delivery codec socket.settings messages)
    : FramesRoundTrip codec socket.settings messages delivery
      ↔ ∀ message ∈ messages, ChecksumFits socket.options
        ∧ Inflatable codec socket.settings message := by
  have configured := finished.configured
  obtain ⟨writer, sent, writerSettings, writerFresh, silent, written⟩ := delivery
  obtain ⟨_, outgoing, _, filled⟩ := writeAll_eq_ok lawful serialized fits writerSettings written
  rw [silent, List.nil_append] at outgoing
  constructor
  · intro roundTrips message listed
    obtain ⟨next, reads, _, _, inside⟩ := roundTrips
      { Wire.fresh socket.settings with incoming := sent.outgoing } rfl rfl rfl []
      (by simp)
    refine ⟨?_, ?_⟩
    · by_contra overflows
      obtain ⟨enabled, checksum, found, short⟩ := configured.tooLong overflows
      have access := filled (List.ne_nil_of_mem listed) enabled checksum found
      exact absurd (inside _ (List.mem_append_left _ access)) (Nat.not_le.mpr short)
    · exact inflatable_of_readAll lawful configured serialized fits rfl rfl
        (by rw [outgoing, List.append_nil]) reads message listed
  · intro readable reader agreed ready fresh rest arrived
    rw [outgoing] at arrived
    obtain ⟨next, reads, cleared, left⟩ := readAll_ok lawful configured serialized fits
      (fun message listed => (readable message listed).2) agreed ready arrived
    refine ⟨next, reads, left, cleared, ?_⟩
    cases messages with
    | nil =>
        cases written
        cases reads
        simp [writerFresh, fresh]
    | cons message messages =>
        have checksumFits := (readable message (.head _)).1
        have writes := writeAll_inside codec checksumFits (message :: messages) writer
          ⟨writerSettings, by simp [writerFresh]⟩
        have reading := readAll_inside codec configured checksumFits
          (message :: messages).length reader ⟨agreed, by simp [fresh]⟩
        rw [after, written] at writes
        rw [after, reads] at reading
        intro access listed
        obtain listed | listed := List.mem_append.mp listed
        · exact writes.fits access listed
        · exact reading.fits access listed

/-- The plain libraries are lawful. -/
theorem plainCodec_lawful : plainCodec.Lawful where
  inflates bytes room enough := by
    change (bytes.take room, decide (bytes.length ≤ room)) = _
    rw [List.take_of_length_le enough, decide_eq_true enough]
  unfinished bytes room short := decide_eq_false (Nat.not_le.mpr short)
  expands bytes := by
    change bytes.length ≤ 1032 * bytes.length
    omega
  decrypts cipher bytes encrypted encrypts := by
    cases encrypts
    exact congrArg some List.dropLast_concat
  pads cipher bytes encrypted encrypts := by
    cases encrypts
    simp
  digest_length checksum bytes := List.length_replicate

/-- A byte is a serialized message. -/
theorem serialized_byte : Serialized [0] :=
  ⟨by simp, by simp⟩

/-- The plain libraries add at most a byte to it. -/
theorem frameFits_byte {settings : Settings} (configured : settings.Configured)
    : FrameFits plainCodec settings [0] := by
  have same : compressed plainCodec settings [0] = [0] := by
    rw [compressed]
    split_ifs <;> rfl
  rw [FrameFits, payload, same]
  split_ifs with enabled
  · obtain ⟨cipher, found, _⟩ := configured.cipher enabled
    exact ⟨[0, 0], by rw [found]; rfl, by decide⟩
  · exact ⟨[0], rfl, by decide⟩

/-- The delivery of a byte that was written to a fresh socket. -/
def byteDelivery {settings : Settings} {sent : Wire}
    (written : writeBinaryMessage plainCodec [0] (Wire.fresh settings) = .ok () sent)
    : Delivery plainCodec settings [[0]] where
  writer := .fresh settings
  sent
  writerSettings := rfl
  writerFresh := rfl
  silent := rfl
  written := by
    rw [writeAll, bind_of_ok written]
    rfl

theorem not_framesRoundTrip_sha256
    : ∃ socket, (Finished plainCrypto socket ∧ socket.options = option Checksum.sha256)
      ∧ (Serialized [0] ∧ FrameFits plainCodec socket.settings [0])
      ∧ ∃ delivery, ¬FramesRoundTrip plainCodec socket.settings [[0]] delivery := by
  obtain ⟨socket, finished, options, overflows⟩ := sha256_finished
  obtain ⟨sent, written, access, listed, outside⟩ :=
    writeBinaryMessage_overflows plainCodec_works finished.configured overflows
  refine ⟨socket, ⟨finished, options⟩, ⟨serialized_byte, frameFits_byte finished.configured⟩,
    byteDelivery written, fun roundTrips => ?_⟩
  obtain ⟨next, _, _, _, inside⟩ := roundTrips
    { Wire.fresh socket.settings with incoming := sent.outgoing } rfl rfl rfl []
    (by simp [byteDelivery])
  exact outside (inside access (List.mem_append_left _ listed))

theorem framesRoundTrip_iff_sha1
    : ∃ socket, (Finished plainCrypto socket ∧ socket.options = option Checksum.sha1)
      ∧ ∃ delivery, FramesRoundTrip plainCodec socket.settings [[0]] delivery := by
  obtain ⟨socket, finished, options⟩ :=
    offeringClient_finished (option Checksum.sha1) (by decide)
  have found : firstChoice Checksum socket.settings.options = some .sha1 := by
    change firstChoice Checksum socket.options = _
    rw [options]
    decide
  obtain ⟨sent, written, _⟩ :=
    writeBinaryMessage_byte plainCodec_works finished.configured found
  refine ⟨socket, ⟨finished, options⟩, byteDelivery written,
    (framesRoundTrip_iff plainCodec_lawful finished (by simpa using serialized_byte)
      (by simpa using frameFits_byte finished.configured) _).mpr ?_⟩
  intro message listed
  obtain rfl := List.mem_singleton.mp listed
  refine ⟨?_, fun _ => ⟨2, le_rfl, by decide, by decide⟩⟩
  rw [options]
  decide

end WiredServer.P7
