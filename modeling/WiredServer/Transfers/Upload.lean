import Mathlib

/-! The upload of a file. What a client sends is credited to the two forks with unsigned counters,
and the partial file gets its final name when one total has been reached. The forks are then
exact precisely for the uploads that an account of both forks in natural numbers describes.
-/

namespace WiredServer.Transfers

/-- What the file system has for the path of an upload: whether the final name is taken, how long
the forks of the partial file are, and which calls on them succeed.
-/
structure Target where
  fileExists : Bool
  dataLength : UInt64
  rsrcLength : UInt64
  dataOpens : Bool
  rsrcSupported : Bool
  rsrcOpens : Bool
  renames : Bool

/-- The errors that `wd_transfer_upload_transfer` replies. -/
inductive UploadError where
  | fileExists
  | fileErrno
  | rsrcNotSupported
  deriving DecidableEq, Repr

/-- The fields of `wd_transfer_t` that an upload counts with and the lengths that its forks have on
disk. `debits` are the subtractions from the remaining sizes so far.
-/
structure Upload where
  dataSize : UInt64
  rsrcSize : UInt64
  dataOffset : UInt64
  rsrcOffset : UInt64
  rsrcOpen : Bool
  remainingDataSize : UInt64
  remainingRsrcSize : UInt64
  transferred : UInt64
  actualTransferred : UInt64
  dataLength : ℕ
  rsrcLength : ℕ
  debits : List (UInt64 × UInt64)
  deriving DecidableEq, Repr

/-- The offset at which the upload of a resource fork goes on: the fork is opened only when the
client announces one.
-/
def Target.rsrcOffset (target : Target) (rsrcSize : UInt64) : UInt64 :=
  if rsrcSize > 0 then target.rsrcLength else 0

/-- The transfer that `wd_transfer_upload_transfer` makes of the opened forks. -/
def Target.upload (target : Target) (dataSize rsrcSize : UInt64) : Upload where
  dataSize
  rsrcSize
  dataOffset := target.dataLength
  rsrcOffset := target.rsrcOffset rsrcSize
  rsrcOpen := rsrcSize > 0
  remainingDataSize := dataSize - target.dataLength
  remainingRsrcSize := rsrcSize - target.rsrcOffset rsrcSize
  transferred := target.dataLength + target.rsrcOffset rsrcSize
  actualTransferred := 0
  dataLength := target.dataLength.toNat
  rsrcLength := target.rsrcLength.toNat
  debits := [(dataSize, target.dataLength), (rsrcSize, target.rsrcOffset rsrcSize)]

/-- `wd_transfer_upload_transfer`, for the sizes that the client announces. -/
def uploadTransfer (target : Target) (dataSize rsrcSize : UInt64)
    : Except UploadError Upload := do
  if target.fileExists then throw .fileExists
  if !target.dataOpens then throw .fileErrno
  if rsrcSize > 0 then
    if !target.rsrcSupported then throw .rsrcNotSupported
    if !target.rsrcOpens then throw .fileErrno
  return target.upload dataSize rsrcSize

/-- A chunk of data that the client sends, and what `write` returns for it: the number of bytes it
has written, which may be less than it was given, or an error.
-/
structure Chunk where
  size : ℕ
  written : ℤ
  size_pos : 0 < size
  size_lt : size < 2 ^ 63
  written_le : written ≤ size

/-- The two forks of a file. -/
inductive Fork where
  | data
  | rsrc
  deriving DecidableEq, Repr

/-- What the loop of `wd_transfer_upload` does with a chunk that was written: it counts the bytes
it has read, and the file grows by those it has written.
-/
def Upload.credit (upload : Upload) (fork : Fork) (chunk : Chunk) : Upload :=
  let size := UInt64.ofNat chunk.size
  let upload := { upload with
    transferred := upload.transferred + size
    actualTransferred := upload.actualTransferred + size }
  match fork with
  | .data => { upload with
      remainingDataSize := upload.remainingDataSize - size
      dataLength := upload.dataLength + chunk.written.toNat
      debits := upload.debits ++ [(upload.remainingDataSize, size)] }
  | .rsrc => { upload with
      remainingRsrcSize := upload.remainingRsrcSize - size
      rsrcLength := upload.rsrcLength + chunk.written.toNat
      debits := upload.debits ++ [(upload.remainingRsrcSize, size)] }

/-- The fork that the next chunk is for, if the loop goes on: the data fork until the loop has
once found that nothing of it remains.
-/
def Upload.nextFork (upload : Upload) (data : Bool) : Option Fork :=
  if data && upload.remainingDataSize ≠ 0 then some .data
  else if upload.remainingRsrcSize = 0 then none
  else some .rsrc

/-- What `write` returns for a chunk: a fork that is not open cannot be written. -/
def Upload.write (upload : Upload) (chunk : Chunk) : Fork → ℤ
  | .data => chunk.written
  | .rsrc => if upload.rsrcOpen then chunk.written else -1

/-- The loop of `wd_transfer_upload`, over the chunks that arrive before the client stops sending
or the session ends.
-/
def uploadLoop (data : Bool) (upload : Upload) : List Chunk → Upload
  | [] => upload
  | chunk :: chunks =>
      match upload.nextFork data with
      | none => upload
      | some fork =>
          if upload.write chunk fork ≤ 0 then upload
          else uploadLoop (fork = .data) (upload.credit fork chunk) chunks

/-- The sizes in the message `wired.transfer.upload`, as far as it has them. -/
structure UploadMessage where
  data : Option UInt64
  rsrc : Option UInt64

/-- The transfer with the sizes of the message. -/
def Upload.expect (upload : Upload) (message : UploadMessage) : Upload := { upload with
  remainingDataSize := message.data.getD upload.remainingDataSize
  remainingRsrcSize := message.rsrc.getD upload.remainingRsrcSize }

/-- `wd_transfers_run_upload`: the transfer after it, and whether the file got its final name.
There is no message when it did not arrive or was not the expected one.
-/
def runUpload (target : Target) (upload : Upload) (message : Option UploadMessage)
    (chunks : List Chunk)
    : Upload × Bool :=
  match message with
  | none => (upload, false)
  | some message =>
      let upload := uploadLoop true (upload.expect message) chunks
      (upload, upload.transferred = upload.dataSize + upload.rsrcSize && target.renames)

/-- A file that gets its final name has forks of exactly the announced sizes, and no counter of a
remaining size goes below zero.
-/
structure KeepsIntegrity (target : Target) (upload : Upload) (message : Option UploadMessage)
    (chunks : List Chunk)
    : Prop where
  exact : (runUpload target upload message chunks).2 = true
    → (runUpload target upload message chunks).1.dataLength = upload.dataSize.toNat
      ∧ (runUpload target upload message chunks).1.rsrcLength = upload.rsrcSize.toNat
  covered : ∀ debit ∈ (runUpload target upload message chunks).1.debits, debit.2 ≤ debit.1

/-- What remains of both forks. -/
structure Remaining where
  data : ℕ
  rsrc : ℕ

/-- What remains of a fork. -/
def Remaining.of (remaining : Remaining) : Fork → ℕ
  | .data => remaining.data
  | .rsrc => remaining.rsrc

/-- The fork that a chunk is for: the data fork until nothing of it remains, then the other. -/
def Remaining.next (remaining : Remaining) : Option Fork :=
  if remaining.data ≠ 0 then some .data
  else if remaining.rsrc ≠ 0 then some .rsrc
  else none

/-- What remains after bytes of a fork. -/
def Remaining.less (remaining : Remaining) (fork : Fork) (size : ℕ) : Remaining :=
  match fork with
  | .data => { remaining with data := remaining.data - size }
  | .rsrc => { remaining with rsrc := remaining.rsrc - size }

/-- A chunk that is credited to a fork, and what remained of the fork before it. -/
structure Credit where
  fork : Fork
  remaining : ℕ
  chunk : Chunk

/-- The account of both forks in natural numbers, up to a chunk that cannot be written. -/
def credits (rsrcOpen : Bool) (remaining : Remaining) : List Chunk → List Credit
  | [] => []
  | chunk :: chunks =>
      match remaining.next with
      | none => []
      | some fork =>
          if 0 < chunk.written ∧ (fork = .data ∨ rsrcOpen) then
            ⟨fork, remaining.of fork, chunk⟩
              :: credits rsrcOpen (remaining.less fork chunk.size) chunks
          else []

/-- The chunk is not larger than what remains of its fork. -/
def Credit.Fits (credit : Credit) : Prop :=
  credit.chunk.size ≤ credit.remaining

instance (credit : Credit) : Decidable credit.Fits :=
  inferInstanceAs (Decidable (_ ≤ _))

/-- The bytes that the credits count. -/
def received (credits : List Credit) : ℕ :=
  (credits.map (·.chunk.size)).sum

/-- The bytes that were written to a fork. -/
def writtenTo (fork : Fork) (credits : List Credit) : ℕ :=
  ((credits.filter (·.fork = fork)).map (·.chunk.written.toNat)).sum

section Accounts

variable {upload : Upload} {data : Bool} {chunks : List Chunk}

/-- The transfer after credits, when all of them fit. -/
structure Upload.Counts (before after : Upload) (credits : List Credit) : Prop where
  transferred : after.transferred = before.transferred + .ofNat (received credits)
  dataLength : after.dataLength = before.dataLength + writtenTo .data credits
  rsrcLength : after.rsrcLength = before.rsrcLength + writtenTo .rsrc credits
  dataSize : after.dataSize = before.dataSize
  rsrcSize : after.rsrcSize = before.rsrcSize

/-- Without credits nothing changes. -/
theorem Upload.Counts.refl (upload : Upload)
    : upload.Counts upload [] := by
  constructor <;> simp [received, writtenTo]

/-- A credited chunk counts as the first of the credits. -/
theorem Upload.Counts.cons {after : Upload} {fork : Fork} {chunk : Chunk} {remaining : ℕ}
    {credits : List Credit} (rest : (upload.credit fork chunk).Counts after credits)
    : upload.Counts after (⟨fork, remaining, chunk⟩ :: credits) := by
  have transferred : (upload.credit fork chunk).transferred
      = upload.transferred + .ofNat chunk.size := by cases fork <;> rfl
  constructor
  · have sum : received (⟨fork, remaining, chunk⟩ :: credits) = chunk.size + received credits := by
      simp [received]
    rw [rest.transferred, transferred, sum, UInt64.ofNat_add, UInt64.add_assoc]
  · rw [rest.dataLength]
    cases fork <;> simp [Upload.credit, writtenTo, Nat.add_assoc]
  · rw [rest.rsrcLength]
    cases fork <;> simp [Upload.credit, writtenTo, Nat.add_assoc]
  · rw [rest.dataSize]
    cases fork <;> rfl
  · rw [rest.rsrcSize]
    cases fork <;> rfl

/-- Subtractions are never forgotten, by induction on the chunks. -/
theorem uploadLoop_debits (chunks : List Chunk) (data : Bool) (upload : Upload)
    : upload.debits ⊆ (uploadLoop data upload chunks).debits := by
  induction chunks generalizing data upload with
  | nil => exact List.Subset.refl _
  | cons chunk chunks ih =>
      rw [uploadLoop]
      split
      · exact List.Subset.refl _
      · rename_i fork _
        split_ifs
        · exact List.Subset.refl _
        · apply List.Subset.trans _ (ih _ _)
          cases fork <;> exact List.subset_append_left _ _

/-- The counter of the remaining size of a fork. -/
def Upload.remainingSize (upload : Upload) : Fork → UInt64
  | .data => upload.remainingDataSize
  | .rsrc => upload.remainingRsrcSize

/-- The counters of a transfer hold what remains of its forks, and the loop has left the data fork
only when nothing of it remains.
-/
structure Upload.Holds (upload : Upload) (data : Bool) (remaining : Remaining) : Prop where
  counters : ∀ fork, (upload.remainingSize fork).toNat = remaining.of fork
  finished : data = false → remaining.data = 0

variable {remaining : Remaining}

/-- The counters select the fork that the account selects. -/
theorem Upload.Holds.nextFork (holds : upload.Holds data remaining)
    : upload.nextFork data = remaining.next := by
  have zero (fork : Fork) : upload.remainingSize fork = 0 ↔ remaining.of fork = 0 := by
    rw [← holds.counters fork, ← UInt64.toNat_inj]
    rfl
  have dataZero : upload.remainingDataSize = 0 ↔ remaining.data = 0 := zero .data
  have rsrcZero : upload.remainingRsrcSize = 0 ↔ remaining.rsrc = 0 := zero .rsrc
  rw [Upload.nextFork, Remaining.next]
  cases data with
  | true => by_cases ended : remaining.data = 0 <;> simp [dataZero, rsrcZero, ended]
  | false => simp [rsrcZero, holds.finished rfl]

/-- A chunk that fits leaves what remains after it. -/
theorem Upload.Holds.credit (holds : upload.Holds data remaining) {fork : Fork} {chunk : Chunk}
    (next : remaining.next = some fork) (fits : chunk.size ≤ remaining.of fork)
    : (upload.credit fork chunk).Holds (fork = .data) (remaining.less fork chunk.size) := by
  have size : (UInt64.ofNat chunk.size).toNat = chunk.size :=
    UInt64.toNat_ofNat_of_lt' (chunk.size_lt.trans (by decide))
  have counter : (upload.remainingSize fork - .ofNat chunk.size).toNat
      = remaining.of fork - chunk.size := by
    rw [UInt64.toNat_sub_of_le, size, holds.counters]
    rw [UInt64.le_iff_toNat_le, size, holds.counters]
    exact fits
  constructor
  · intro other
    cases fork <;> cases other
    · exact counter
    · exact holds.counters .rsrc
    · exact holds.counters .data
    · exact counter
  · intro left
    cases fork with
    | data => cases left
    | rsrc =>
        change remaining.data = 0
        by_contra more
        simp [Remaining.next, more] at next

/-- The subtraction of a chunk is covered exactly when the chunk fits. -/
theorem Upload.Holds.covered_iff (holds : upload.Holds data remaining) (fork : Fork)
    (chunk : Chunk)
    : (∀ debit ∈ (upload.credit fork chunk).debits, debit.2 ≤ debit.1)
      ↔ (∀ debit ∈ upload.debits, debit.2 ≤ debit.1) ∧ chunk.size ≤ remaining.of fork := by
  have size : (UInt64.ofNat chunk.size).toNat = chunk.size :=
    UInt64.toNat_ofNat_of_lt' (chunk.size_lt.trans (by decide))
  have debits : (upload.credit fork chunk).debits
      = upload.debits ++ [(upload.remainingSize fork, .ofNat chunk.size)] := by
    cases fork <;> rfl
  simp only [debits, List.forall_mem_append, List.forall_mem_singleton, UInt64.le_iff_toNat_le,
    size, holds.counters]

/-- What is written, compared with the account. -/
theorem Upload.write_pos (upload : Upload) {fork : Fork} {chunk : Chunk}
    : ¬upload.write chunk fork ≤ 0
      ↔ 0 < chunk.written ∧ (fork = .data ∨ upload.rsrcOpen = true) := by
  cases fork with
  | data => simp [Upload.write]
  | rsrc => cases opened : upload.rsrcOpen <;> simp [Upload.write, opened]

/-- Crediting does not open or close a fork. -/
theorem Upload.credit_rsrcOpen (fork : Fork) (chunk : Chunk)
    : (upload.credit fork chunk).rsrcOpen = upload.rsrcOpen := by
  cases fork <;> rfl

/-- As long as the chunks fit, the loop counts what the account credits, by induction on the
chunks.
-/
theorem uploadLoop_counts (holds : upload.Holds data remaining)
    (fits : ∀ credit ∈ credits upload.rsrcOpen remaining chunks, credit.Fits)
    : upload.Counts (uploadLoop data upload chunks)
      (credits upload.rsrcOpen remaining chunks) := by
  induction chunks generalizing upload data remaining with
  | nil => exact .refl upload
  | cons chunk chunks ih =>
      rw [credits] at fits ⊢
      rw [uploadLoop, holds.nextFork]
      cases next : remaining.next with
      | none => exact .refl upload
      | some fork =>
          rw [next] at fits
          simp only [← upload.write_pos] at fits ⊢
          by_cases failed : upload.write chunk fork ≤ 0
          · simp only [failed, not_true_eq_false, ↓reduceIte]
            exact .refl upload
          · simp only [failed, not_false_eq_true, ↓reduceIte] at fits ⊢
            have first := holds.credit next (fits _ (.head _))
            rw [← Upload.credit_rsrcOpen fork chunk] at fits ⊢
            exact .cons (ih first fun credit listed => fits credit (.tail _ listed))

/-- The subtractions of the loop are covered exactly when the chunks fit, by induction on the
chunks.
-/
theorem uploadLoop_covered_iff (holds : upload.Holds data remaining)
    : (∀ debit ∈ (uploadLoop data upload chunks).debits, debit.2 ≤ debit.1)
      ↔ (∀ debit ∈ upload.debits, debit.2 ≤ debit.1)
        ∧ ∀ credit ∈ credits upload.rsrcOpen remaining chunks, credit.Fits := by
  induction chunks generalizing upload data remaining with
  | nil => simp [uploadLoop, credits]
  | cons chunk chunks ih =>
      rw [uploadLoop, credits, holds.nextFork]
      cases next : remaining.next with
      | none => simp
      | some fork =>
          simp only [← upload.write_pos]
          by_cases failed : upload.write chunk fork ≤ 0
          · simp [failed]
          · simp only [failed, not_false_eq_true, ↓reduceIte, List.forall_mem_cons]
            rw [Credit.Fits, ← and_assoc, ← holds.covered_iff fork chunk,
              ← Upload.credit_rsrcOpen fork chunk]
            by_cases fits : chunk.size ≤ remaining.of fork
            · exact ih (holds.credit next fits)
            · have uncovered := mt ((holds.covered_iff fork chunk).mp) (fun both => fits both.2)
              refine iff_of_false (fun covered => uncovered fun debit listed => ?_)
                (fun both => uncovered both.1)
              exact covered debit (uploadLoop_debits _ _ _ listed)

end Accounts

section Integrity

variable (target : Target) (dataSize rsrcSize : UInt64) (message : Option UploadMessage)
  (chunks : List Chunk)

/-- What the chunks of an upload are credited to: the forks lack what the second message says, or
else what the partial file does not have.
-/
def account : List Credit :=
  match message with
  | none => []
  | some message =>
      credits (rsrcSize > 0)
        ⟨(message.data.getD (dataSize - target.dataLength)).toNat,
          (message.rsrc.getD (rsrcSize - target.rsrcOffset rsrcSize)).toNat⟩
        chunks

/-- An upload that adds up: the partial file is not longer than the announced one, every chunk is
within what remains of its fork, and once the chunks bring the count of bytes to the announced
total, what was written to each fork is what the fork lacked.
-/
structure AddsUp : Prop where
  offsets : target.dataLength ≤ dataSize ∧ target.rsrcOffset rsrcSize ≤ rsrcSize
  fits : ∀ credit ∈ account target dataSize rsrcSize message chunks, credit.Fits
  exact : message.isSome → target.renames = true
    → target.dataLength + target.rsrcOffset rsrcSize
        + .ofNat (received (account target dataSize rsrcSize message chunks))
      = dataSize + rsrcSize
    → target.dataLength.toNat
        + writtenTo .data (account target dataSize rsrcSize message chunks) = dataSize.toNat
      ∧ target.rsrcLength.toNat
        + writtenTo .rsrc (account target dataSize rsrcSize message chunks) = rsrcSize.toNat

end Integrity

section Uploads

variable {target : Target} {dataSize rsrcSize : UInt64} {upload : Upload}

/-- An upload starts with the transfer that the opened forks give. -/
theorem uploadTransfer_eq_ok (started : uploadTransfer target dataSize rsrcSize = .ok upload)
    : upload = target.upload dataSize rsrcSize := by
  unfold uploadTransfer at started
  split_ifs at started
  all_goals cases started
  all_goals rfl

/-- The counters hold the sizes of the message. -/
theorem Upload.expect_holds (upload : Upload) (message : UploadMessage)
    : (upload.expect message).Holds true
      ⟨(message.data.getD upload.remainingDataSize).toNat,
        (message.rsrc.getD upload.remainingRsrcSize).toNat⟩ where
  counters fork := by cases fork <;> rfl
  finished := nofun

/-- An upload keeps its integrity exactly when it adds up. -/
theorem keepsIntegrity_iff (started : uploadTransfer target dataSize rsrcSize = .ok upload)
    (message : Option UploadMessage) (chunks : List Chunk)
    : KeepsIntegrity target upload message chunks
      ↔ AddsUp target dataSize rsrcSize message chunks := by
  obtain rfl := uploadTransfer_eq_ok started
  cases message with
  | none =>
      constructor
      · intro keeps
        exact ⟨⟨keeps.covered _ (.head _), keeps.covered _ (.tail _ (.head _))⟩, nofun, nofun⟩
      · intro adds
        refine ⟨nofun, ?_⟩
        intro debit listed
        rcases List.mem_pair.mp listed with rfl | rfl
        · exact adds.offsets.1
        · exact adds.offsets.2
  | some message =>
      have holds := (target.upload dataSize rsrcSize).expect_holds message
      have counts := @uploadLoop_counts _ _ chunks _ holds
      have covered := @uploadLoop_covered_iff _ _ chunks _ holds
      have start : (∀ debit ∈ ((target.upload dataSize rsrcSize).expect message).debits,
          debit.2 ≤ debit.1)
          ↔ target.dataLength ≤ dataSize ∧ target.rsrcOffset rsrcSize ≤ rsrcSize := by
        simp [Upload.expect, Target.upload]
      rw [start] at covered
      constructor
      · intro keeps
        obtain ⟨offsets, fits⟩ := covered.mp keeps.covered
        have counts := counts fits
        refine ⟨offsets, fits, fun _ renames total => ?_⟩
        have exact := keeps.exact
        simp only [runUpload, counts.transferred, counts.dataSize, counts.rsrcSize,
          counts.dataLength, counts.rsrcLength, Bool.and_eq_true, decide_eq_true_eq] at exact
        exact exact ⟨total, renames⟩
      · intro adds
        have counts := counts adds.fits
        refine ⟨?_, covered.mpr ⟨adds.offsets, adds.fits⟩⟩
        simp only [runUpload, counts.transferred, counts.dataSize, counts.rsrcSize,
          counts.dataLength, counts.rsrcLength, Bool.and_eq_true, decide_eq_true_eq]
        intro ⟨total, renames⟩
        exact adds.exact rfl renames total

/-- A chunk of ten bytes, of which five are written. -/
def shortChunk : Chunk where
  size := 10
  written := 5
  size_pos := by decide
  size_lt := by decide
  written_le := by decide

/-- A file system with room for a new file. -/
def emptyTarget : Target where
  fileExists := false
  dataLength := 0
  rsrcLength := 0
  dataOpens := true
  rsrcSupported := false
  rsrcOpens := false
  renames := true

/-- An upload of a file that is not there starts. -/
theorem emptyTarget_starts
    : uploadTransfer emptyTarget 10 0 = .ok (emptyTarget.upload 10 0) :=
  rfl

/-- A short write leaves a file with its final name that is too short. -/
theorem not_keepsIntegrity_shortChunk
    : ∃ upload, uploadTransfer emptyTarget 10 0 = .ok upload
      ∧ ¬KeepsIntegrity emptyTarget upload (some ⟨some 10, some 0⟩) [shortChunk] := by
  refine ⟨_, emptyTarget_starts, ?_⟩
  intro keeps
  exact absurd (keeps.exact (by decide)).1 (by decide)

/-- A chunk of ten bytes that is written completely. -/
def wholeChunk : Chunk where
  size := 10
  written := 10
  size_pos := by decide
  size_lt := by decide
  written_le := by decide

theorem keepsIntegrity_iff_wholeChunk
    : ∃ upload, uploadTransfer emptyTarget 10 0 = .ok upload
      ∧ KeepsIntegrity emptyTarget upload (some ⟨some 10, some 0⟩) [wholeChunk] := by
  refine ⟨_, emptyTarget_starts,
    (keepsIntegrity_iff emptyTarget_starts _ _).mpr ⟨by decide, by decide, ?_⟩⟩
  intro _ _ _
  decide

end Uploads

end WiredServer.Transfers
