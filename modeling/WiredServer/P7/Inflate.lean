import Mathlib
import WiredServer.P7.FrameCodec

/-! The decompression of a received message, call by call.
The loop doubles the room for the output until the stream ends. It does not tell a lack of room from
an error, and when its last room is used up it returns what the last call happened to produce.
-/

namespace WiredServer.P7

open Loop

-----------------------------------------------------------------------------------------
-- The library
-----------------------------------------------------------------------------------------

/-- What `inflate` and `inflateReset` return. -/
inductive ZlibCode where
  | ok | streamEnd | needDict | bufError | dataError | memError | streamError
deriving DecidableEq, Repr

/-- What a call of `inflate` does: its code, the bytes it consumes and produces, and the stream it
leaves.
-/
structure Inflation (σ : Type) where
  code : ZlibCode
  consumed : ℕ
  produced : Bytes.Block
  stream : σ

/-- The library with its streams: a call of `inflate` has an input and a room for its output. -/
structure Zlib (σ : Type) where
  inflate : σ → Bytes.Block → ℕ → Inflation σ
  inflateReset : σ → ZlibCode × σ
  totalOut : σ → ℕ

/-- What the library documents, for streams that it has initialized: a call consumes and produces no
more than there is, `total_out` counts the output, and a stream can be reset.
-/
structure Zlib.Documented {σ : Type} (zlib : Zlib σ) (initialized : σ → Prop) : Prop where
  consumed_le : ∀ {stream}, initialized stream → ∀ input room,
    (zlib.inflate stream input room).consumed ≤ input.length
  produced_le : ∀ {stream}, initialized stream → ∀ input room,
    (zlib.inflate stream input room).produced.length ≤ room
  totalOut_inflate : ∀ {stream}, initialized stream → ∀ input room,
    zlib.totalOut (zlib.inflate stream input room).stream
      = zlib.totalOut stream + (zlib.inflate stream input room).produced.length
  initialized_inflate : ∀ {stream}, initialized stream → ∀ input room,
    initialized (zlib.inflate stream input room).stream
  inflateReset : ∀ {stream}, initialized stream → (zlib.inflateReset stream).1 = .ok
    ∧ initialized (zlib.inflateReset stream).2 ∧ zlib.totalOut (zlib.inflateReset stream).2 = 0

-----------------------------------------------------------------------------------------
-- The loop
-----------------------------------------------------------------------------------------

/-- What the loop uses of a socket: its buffer for decompressed messages and its stream. -/
structure Inflater (σ : Type) where
  compressionBuffer : Option Bytes.Block
  stream : σ

/-- The state of the loop; `bytes` is what the last round has left. -/
structure InflateState (σ : Type) where
  multiple : ℕ
  bytes : ℕ
  inflater : Inflater σ

section Inflating

variable {σ : Type} (zlib : Zlib σ) (input : Bytes.Block)

/-- The room for the output in a round, a product of 32 bits. -/
def proposed (multiple : ℕ) : UInt32 :=
  .ofNat input.length * .ofNat (2 ^ multiple)

/-- One round of `_wi_p7_socket_inflate`. The bytes that `inflate` stores are checked against the
buffer.
-/
def inflateBody (state : InflateState σ)
    : Access (Turn (InflateState σ) (Except TransportError ℕ × Inflater σ)) := do
  if state.multiple < 16 then
    let room := (proposed input state.multiple).toNat
    if room > maxDecompressedSize then
      .ok (.stop (.error .decompressedTooLarge, state.inflater))
    else
      let buffer := Message.resize (state.inflater.compressionBuffer.getD []) room
      let inflation := zlib.inflate state.inflater.stream input room
      let buffer ← inside (Bytes.overwrite buffer 0 inflation.produced)
      let bytes := zlib.totalOut inflation.stream
      let (enderr, stream) := zlib.inflateReset inflation.stream
      let inflater := { compressionBuffer := some buffer, stream }
      if inflation.code = .streamEnd ∧ enderr ≠ .bufError then .ok (.stop (.ok bytes, inflater))
      else .ok (.again { multiple := state.multiple + 1, bytes, inflater })
  else .ok (.stop (.ok state.bytes, state.inflater))

/-- `_wi_p7_socket_inflate`. An empty input is taken as an empty message, without any call. -/
def socketInflate (inflater : Inflater σ) : Access (Except TransportError ℕ × Inflater σ) :=
  if input.length = 0 then .ok (.ok 0, inflater)
  else run (inflateBody zlib input) 15 { multiple := 2, bytes := 0, inflater }

-----------------------------------------------------------------------------------------
-- Calls
-----------------------------------------------------------------------------------------

/-- The stream before the call of a round, when no call before it has ended the loop. The first
round has the number zero here.
-/
def streamAt (stream : σ) : ℕ → σ
  | 0 => stream
  | round + 1 =>
      let before := streamAt stream round
      let room := (proposed input (round + 2)).toNat
      (zlib.inflateReset (zlib.inflate before input room).stream).2

/-- The call of a round. -/
def call (stream : σ) (round : ℕ) : Inflation σ :=
  zlib.inflate (streamAt zlib input stream round) input (proposed input (round + 2)).toNat

/-- The room of a round is more than a receiver accepts. -/
def TooLarge (round : ℕ) : Prop :=
  maxDecompressedSize < (proposed input (round + 2)).toNat

/-- The loop reaches a round: no room before is too large and no call before ends the stream. -/
def Reaches (stream : σ) (round : ℕ) : Prop :=
  input ≠ [] ∧ ∀ earlier < round, ¬TooLarge input earlier
    ∧ (call zlib input stream earlier).code ≠ .streamEnd

/-- The stream ends in a call that the loop makes. -/
def EndsIn (stream : σ) (round : ℕ) : Prop :=
  round < 14 ∧ Reaches zlib input stream round ∧ ¬TooLarge input round
    ∧ (call zlib input stream round).code = .streamEnd

/-- The result is the number of bytes that a call has produced, all of which are in the buffer. -/
def Stored (inflater after : Inflater σ) (bytes round : ℕ) : Prop :=
  bytes = (call zlib input inflater.stream round).produced.length
    ∧ ∃ buffer, after.compressionBuffer = some buffer ∧ bytes ≤ buffer.length
      ∧ buffer.take bytes = (call zlib input inflater.stream round).produced

/-- The function ends and tells what the stream did. It returns a length only if the stream has
ended in one of its calls with so many bytes, all of which are in the buffer, and a failure
otherwise.
-/
def TellsEnd (inflater : Inflater σ) : Prop :=
  ∃ result after, socketInflate zlib input inflater = .ok (result, after)
    ∧ (∀ bytes, result = .ok bytes → ∃ round, EndsIn zlib input inflater.stream round
      ∧ Stored zlib input inflater after bytes round)
    ∧ ((∃ round, EndsIn zlib input inflater.stream round) → ∃ bytes, result = .ok bytes)

end Inflating

-----------------------------------------------------------------------------------------
-- Rounds
-----------------------------------------------------------------------------------------

section Rounds

variable {σ : Type} {zlib : Zlib σ} {initialized : σ → Prop} {input : Bytes.Block}

/-- The stream before every call is initialized, and its output is counted from zero. -/
theorem streamAt_ready (documented : zlib.Documented initialized) {stream : σ}
    (fresh : initialized stream) (zero : zlib.totalOut stream = 0) (round : ℕ)
    : initialized (streamAt zlib input stream round)
      ∧ zlib.totalOut (streamAt zlib input stream round) = 0 := by
  induction round with
  | zero => exact ⟨fresh, zero⟩
  | succ round ih => exact (documented.inflateReset (documented.initialized_inflate ih.1 _ _)).2

/-- A call stores its output at the start of the buffer. -/
theorem overwrite_call (documented : zlib.Documented initialized) {stream : σ}
    (fresh : initialized stream) (zero : zlib.totalOut stream = 0) (round : ℕ)
    (block : Bytes.Block)
    : ∃ buffer, Bytes.overwrite (Message.resize block (proposed input (round + 2)).toNat) 0
        (call zlib input stream round).produced = some buffer
      ∧ (call zlib input stream round).produced.length ≤ buffer.length
      ∧ buffer.take (call zlib input stream round).produced.length
        = (call zlib input stream round).produced := by
  have room : (Message.resize block (proposed input (round + 2)).toNat).length
      = (proposed input (round + 2)).toNat := by
    simp only [Message.resize, List.length_append, List.length_take, List.length_replicate]
    omega
  have fits : 0 + (call zlib input stream round).produced.length
      ≤ (Message.resize block (proposed input (round + 2)).toNat).length := by
    rw [Nat.zero_add, room]
    exact documented.produced_le (streamAt_ready documented fresh zero round).1 _ _
  obtain ⟨buffer, written⟩ := Bytes.overwrite_inside fits
  refine ⟨buffer, written, ?_, ?_⟩
  · rw [(Bytes.overwrite_length written).1]
    omega
  · unfold Bytes.overwrite at written
    rw [if_pos fits] at written
    cases written
    simp

/-- What the loop can come to: the end of the stream, too large a room, or no more rounds. -/
inductive InflateOutcome (zlib : Zlib σ) (input : Bytes.Block) (inflater : Inflater σ)
    : Except TransportError ℕ → Inflater σ → Prop where
  | ended {round bytes : ℕ} {after : Inflater σ} (ends : EndsIn zlib input inflater.stream round)
      (stored : Stored zlib input inflater after bytes round)
      : InflateOutcome zlib input inflater (.ok bytes) after
  | tooLarge {round : ℕ} {after : Inflater σ} (within : round < 14)
      (reaches : Reaches zlib input inflater.stream round) (large : TooLarge input round)
      : InflateOutcome zlib input inflater (.error .decompressedTooLarge) after
  | exhausted {bytes : ℕ} {after : Inflater σ}
      (reaches : Reaches zlib input inflater.stream 14)
      : InflateOutcome zlib input inflater (.ok bytes) after

/-- A state of the loop before a round. -/
def roundState (zlib : Zlib σ) (input : Bytes.Block) (stream : σ) (round bytes : ℕ)
    (buffer : Option Bytes.Block)
    : InflateState σ where
  multiple := round + 2
  bytes
  inflater := { compressionBuffer := buffer, stream := streamAt zlib input stream round }

/-- Too large a room stops the loop with a failure. -/
theorem inflateBody_tooLarge {stream : σ} {round : ℕ} (within : round < 14)
    (large : TooLarge input round) (bytes : ℕ) (buffer : Option Bytes.Block)
    : ∃ after, inflateBody zlib input (roundState zlib input stream round bytes buffer)
      = .ok (.stop (.error .decompressedTooLarge, after)) := by
  have below : round + 2 < 16 := by omega
  have beyond : (proposed input (round + 2)).toNat > maxDecompressedSize := large
  refine ⟨(roundState zlib input stream round bytes buffer).inflater, ?_⟩
  simp only [inflateBody, roundState, below, beyond, if_true]

/-- A call of the loop ends it exactly when it ends the stream. Its output is at the start of the
buffer either way.
-/
theorem inflateBody_call (documented : zlib.Documented initialized) {stream : σ}
    (fresh : initialized stream) (zero : zlib.totalOut stream = 0) {round : ℕ}
    (within : round < 14) (room : ¬TooLarge input round) (bytes : ℕ)
    (buffer : Option Bytes.Block)
    : ∃ written, (call zlib input stream round).produced.length ≤ written.length
      ∧ written.take (call zlib input stream round).produced.length
        = (call zlib input stream round).produced
      ∧ inflateBody zlib input (roundState zlib input stream round bytes buffer)
        = .ok (if (call zlib input stream round).code = .streamEnd then
            .stop (.ok (call zlib input stream round).produced.length,
              { compressionBuffer := some written, stream := streamAt zlib input stream (round + 1) })
          else .again (roundState zlib input stream (round + 1)
            (call zlib input stream round).produced.length (some written))) := by
  have below : round + 2 < 16 := by omega
  obtain ⟨written, stores, fits, stored⟩ :=
    overwrite_call documented fresh zero round (buffer.getD [])
  obtain ⟨ready, counted⟩ := @streamAt_ready _ _ _ input documented _ fresh zero round
  have total : zlib.totalOut (call zlib input stream round).stream
      = (call zlib input stream round).produced.length := by
    rw [call, documented.totalOut_inflate ready, counted, Nat.zero_add]
  have reset : (zlib.inflateReset (call zlib input stream round).stream).1 = .ok :=
    (documented.inflateReset (documented.initialized_inflate ready _ _)).1
  refine ⟨written, fits, stored, ?_⟩
  have ran : inflateBody zlib input (roundState zlib input stream round bytes buffer)
      = (do
        let written ← inside (Bytes.overwrite
          (Message.resize (buffer.getD []) (proposed input (round + 2)).toNat) 0
          (call zlib input stream round).produced)
        if (call zlib input stream round).code = .streamEnd
            ∧ (zlib.inflateReset (call zlib input stream round).stream).1 ≠ .bufError then
          .ok (.stop (.ok (zlib.totalOut (call zlib input stream round).stream),
            { compressionBuffer := some written, stream := streamAt zlib input stream (round + 1) }))
        else .ok (.again (roundState zlib input stream (round + 1)
          (zlib.totalOut (call zlib input stream round).stream) (some written)))) := by
    have fitting : ¬(proposed input (round + 2)).toNat > maxDecompressedSize := room
    simp only [inflateBody, roundState, below, fitting, if_true, if_false]
    rfl
  rw [ran, stores, inside_some, reset, total]
  by_cases ended : (call zlib input stream round).code = .streamEnd <;>
    simp [ended, bind, Except.bind]

/-- From a round that it reaches the loop comes to an outcome, by induction on the rounds left. -/
theorem run_inflateBody (documented : zlib.Documented initialized) {inflater : Inflater σ}
    (fresh : initialized inflater.stream) (zero : zlib.totalOut inflater.stream = 0)
    {left round : ℕ} (last : round + left = 14)
    (reaches : Reaches zlib input inflater.stream round) (bytes : ℕ)
    (buffer : Option Bytes.Block)
    : ∃ result after, run (inflateBody zlib input) (left + 1)
        (roundState zlib input inflater.stream round bytes buffer) = .ok (result, after)
      ∧ InflateOutcome zlib input inflater result after := by
  induction left generalizing round bytes buffer with
  | zero =>
      obtain rfl : round = 14 := by omega
      exact ⟨_, _, run_stop rfl, .exhausted reaches⟩
  | succ left ih =>
      have within : round < 14 := by omega
      by_cases large : TooLarge input round
      · obtain ⟨after, stops⟩ := @inflateBody_tooLarge _ zlib _ inflater.stream _ within large bytes buffer
        exact ⟨_, after, run_stop stops, .tooLarge within reaches large⟩
      · obtain ⟨written, fits, stored, turn⟩ :=
          inflateBody_call documented fresh zero within large bytes buffer
        by_cases ended : (call zlib input inflater.stream round).code = .streamEnd
        · rw [if_pos ended] at turn
          exact ⟨_, _, run_stop turn, .ended ⟨within, reaches, large, ended⟩
            ⟨rfl, written, rfl, fits, stored⟩⟩
        · rw [if_neg ended] at turn
          rw [run_again turn]
          refine ih (by omega) ⟨reaches.1, fun earlier before => ?_⟩ _ _
          rcases Nat.lt_succ_iff_lt_or_eq.mp before with before | rfl
          · exact reaches.2 earlier before
          · exact ⟨large, ended⟩

/-- The function comes to an outcome for every input that is not empty. -/
theorem socketInflate_outcome (documented : zlib.Documented initialized) {inflater : Inflater σ}
    (fresh : initialized inflater.stream) (zero : zlib.totalOut inflater.stream = 0)
    (nonempty : input ≠ [])
    : ∃ result after, socketInflate zlib input inflater = .ok (result, after)
      ∧ InflateOutcome zlib input inflater result after := by
  have length : ¬input.length = 0 := fun empty => nonempty (List.length_eq_zero_iff.mp empty)
  unfold socketInflate
  rw [if_neg length]
  exact run_inflateBody documented fresh zero rfl
    ⟨nonempty, fun _ before => absurd before (Nat.not_lt_zero _)⟩ 0 inflater.compressionBuffer

/-- When the room of a reached round is too large, the stream ends in no call of the loop. -/
theorem not_endsIn_of_tooLarge {stream : σ} {round : ℕ} (reaches : Reaches zlib input stream round)
    (large : TooLarge input round) (other : ℕ)
    : ¬EndsIn zlib input stream other := by
  rintro ⟨-, reachesOther, room, ended⟩
  rcases lt_trichotomy other round with before | rfl | behind
  · exact (reaches.2 other before).2 ended
  · exact room large
  · exact (reachesOther.2 round behind).1 large

/-- The function tells whether the stream has ended exactly for the inputs that are not empty and
for which one of the fourteen rooms is too large or is enough for the stream to end.
-/
theorem tellsEnd_iff (documented : zlib.Documented initialized) {inflater : Inflater σ}
    (fresh : initialized inflater.stream) (zero : zlib.totalOut inflater.stream = 0)
    : TellsEnd zlib input inflater
      ↔ input ≠ [] ∧ ∃ round < 14, TooLarge input round
        ∨ (call zlib input inflater.stream round).code = .streamEnd := by
  constructor
  · rintro ⟨result, after, ran, only, -⟩
    have nonempty : input ≠ [] := by
      rintro rfl
      cases ran
      obtain ⟨round, ends, -⟩ := only 0 rfl
      exact ends.2.1.1 rfl
    refine ⟨nonempty, ?_⟩
    obtain ⟨_, _, same, outcome⟩ :=
      socketInflate_outcome documented fresh zero nonempty
    rw [ran] at same
    cases same
    cases outcome with
    | @ended round _ _ ends _ => exact ⟨round, ends.1, .inr ends.2.2.2⟩
    | @tooLarge round _ within _ large => exact ⟨round, within, .inl large⟩
    | exhausted reaches =>
        obtain ⟨round, ends, -⟩ := only _ rfl
        exact absurd ends.2.2.2 (reaches.2 round ends.1).2
  · rintro ⟨nonempty, round, within, decided⟩
    obtain ⟨result, after, ran, outcome⟩ := socketInflate_outcome documented fresh zero nonempty
    refine ⟨result, after, ran, ?_⟩
    cases outcome with
    | @ended last bytes _ ends stored =>
        exact ⟨fun _ same => Except.ok.inj same ▸ ⟨last, ends, stored⟩, fun _ => ⟨bytes, rfl⟩⟩
    | @tooLarge last _ _ reaches large =>
        exact ⟨nofun, fun ⟨other, ends⟩ => absurd ends (not_endsIn_of_tooLarge reaches large other)⟩
    | exhausted reaches =>
        obtain ⟨room, unfinished⟩ := reaches.2 round within
        exact absurd decided (not_or.mpr ⟨room, unfinished⟩)

end Rounds

-----------------------------------------------------------------------------------------
-- The transport
-----------------------------------------------------------------------------------------

section Transport

variable {σ : Type} {zlib : Zlib σ} {initialized : σ → Prop} {input : Bytes.Block}

/-- A codec inflates as the calls of the loop do. -/
def Codec.Inflates (codec : Codec) (zlib : Zlib σ) (input : Bytes.Block) (stream : σ) : Prop :=
  ∀ round < 14, codec.inflate input (proposed input (round + 2)).toNat
    = ((call zlib input stream round).produced,
      decide ((call zlib input stream round).code = .streamEnd))

/-- The transport of frames knows the decompressed bytes where the function returns their number. -/
def Agrees (result : Except TransportError ℕ) : EStateM.Result TransportError Wire Bytes.Block → Prop
  | .ok inflated _ => result = .ok inflated.length
  | .error failure _ => result = .error failure

/-- The room of a round as a product of natural numbers. -/
theorem proposed_toNat (multiple : ℕ)
    : (proposed input multiple).toNat = input.length * 2 ^ multiple % 2 ^ 32 := by
  simp [proposed, UInt32.toNat_mul, Nat.mul_mod]

/-- The rounds of the transport are the rounds of the function, by induction on the rounds left. -/
theorem inflateRounds_agrees (documented : zlib.Documented initialized) {codec : Codec}
    {stream : σ} (inflates : codec.Inflates zlib input stream) (fresh : initialized stream)
    (zero : zlib.totalOut stream = 0) {left round : ℕ} (last : round + left = 14)
    (inflated : Bytes.Block) (buffer : Option Bytes.Block) (wire : Wire)
    : ∃ result after, run (inflateBody zlib input) (left + 1)
        (roundState zlib input stream round inflated.length buffer) = .ok (result, after)
      ∧ Agrees result (inflateRounds codec input (List.range' (round + 2) left) inflated wire) := by
  induction left generalizing round inflated buffer wire with
  | zero =>
      obtain rfl : round = 14 := by omega
      exact ⟨_, _, run_stop rfl, rfl⟩
  | succ left ih =>
      have within : round < 14 := by omega
      rw [List.range'_succ, inflateRounds, ← proposed_toNat]
      by_cases large : TooLarge input round
      · have beyond : (proposed input (round + 2)).toNat > maxDecompressedSize := large
        obtain ⟨after, stops⟩ :=
          @inflateBody_tooLarge _ zlib _ stream _ within large inflated.length buffer
        refine ⟨_, after, run_stop stops, ?_⟩
        rw [if_pos beyond]
        rfl
      · have fitting : ¬(proposed input (round + 2)).toNat > maxDecompressedSize := large
        obtain ⟨written, -, -, turn⟩ :=
          inflateBody_call documented fresh zero within large inflated.length buffer
        simp only [fitting, if_false, inflates round within]
        by_cases ended : (call zlib input stream round).code = .streamEnd
        · rw [if_pos ended] at turn
          refine ⟨_, _, run_stop turn, ?_⟩
          simp only [ended, decide_true, if_true]
          rfl
        · rw [if_neg ended] at turn
          rw [run_again turn]
          simp only [ended, decide_false, Bool.false_eq_true, if_false]
          exact ih (by omega) _ (some written) _

/-- The transport of frames decompresses as the function does. -/
theorem inflateBytes_agrees (documented : zlib.Documented initialized) {codec : Codec}
    {inflater : Inflater σ} (inflates : codec.Inflates zlib input inflater.stream)
    (fresh : initialized inflater.stream) (zero : zlib.totalOut inflater.stream = 0) (wire : Wire)
    : ∃ result after, socketInflate zlib input inflater = .ok (result, after)
      ∧ Agrees result (inflateBytes codec input wire) := by
  unfold socketInflate inflateBytes
  split
  · exact ⟨_, _, rfl, rfl⟩
  · exact inflateRounds_agrees documented inflates fresh zero rfl [] inflater.compressionBuffer wire

end Transport

-----------------------------------------------------------------------------------------
-- A corrupt input
-----------------------------------------------------------------------------------------

/-- A library for which every input is corrupt: the header of the stream is wrong. -/
def corruptZlib : Zlib Unit where
  inflate stream _ _ := { code := .dataError, consumed := 0, produced := [], stream }
  inflateReset stream := (.ok, stream)
  totalOut _ := 0

/-- The library keeps to its documentation. -/
theorem corruptZlib_documented : corruptZlib.Documented fun _ => True where
  consumed_le _ _ _ := Nat.zero_le _
  produced_le _ _ _ := Nat.zero_le _
  totalOut_inflate _ _ _ := rfl
  initialized_inflate _ _ _ := trivial
  inflateReset _ := ⟨rfl, trivial, rfl⟩

/-- Two bytes that are no stream are taken as a message. -/
theorem not_tellsEnd_corrupt
    : (∃ bytes after, socketInflate corruptZlib [0xff, 0xff] ⟨none, ()⟩ = .ok (.ok bytes, after))
      ∧ ¬TellsEnd corruptZlib [0xff, 0xff] ⟨none, ()⟩ := by
  have rooms : ∀ round < 14, ¬TooLarge [0xff, 0xff] round := by
    unfold TooLarge
    decide
  have unfinished (round : ℕ) : ¬EndsIn corruptZlib [0xff, 0xff] () round := nofun
  obtain ⟨result, after, ran, outcome⟩ :=
    @socketInflate_outcome _ corruptZlib _ [0xff, 0xff] corruptZlib_documented ⟨none, ()⟩ trivial rfl
      nofun
  cases outcome with
  | ended ends _ => exact absurd ends (unfinished _)
  | tooLarge within _ large => exact absurd large (rooms _ within)
  | @exhausted bytes _ _ =>
      refine ⟨⟨bytes, after, ran⟩, ?_⟩
      rintro ⟨other, _, same, only, -⟩
      rw [ran] at same
      cases same
      obtain ⟨round, ends, -⟩ := only bytes rfl
      exact unfinished round ends

/-- Witness: the condition at two bytes that are no stream. -/
theorem tellsEnd_iff_corrupt
    : TellsEnd corruptZlib [0xff, 0xff] ⟨none, ()⟩
      ↔ [0xff, 0xff] ≠ ([] : Bytes.Block) ∧ ∃ round < 14, TooLarge [0xff, 0xff] round
        ∨ (call corruptZlib [0xff, 0xff] () round).code = .streamEnd :=
  tellsEnd_iff corruptZlib_documented trivial rfl

end WiredServer.P7
