import WiredServer.Transfers.Download
import WiredServer.Transfers.Queue

/-! The server's statistics of transfers. A transfer counts itself when it starts, notes what it has
transferred in batches, and counts itself out with the last batch, on every way out of its loop.
-/

namespace WiredServer.Transfers

-----------------------------------------------------------------------------------------
-- Totals
-----------------------------------------------------------------------------------------

/-- The current and the total number of transfers of a type, and the bytes of their traffic. -/
structure TypeTotals where
  current : UInt64
  total : UInt64
  traffic : UInt64
  deriving DecidableEq, Repr

/-- `wd_current_downloads`, `wd_total_downloads`, `wd_downloads_traffic` and their siblings for uploads. -/
structure TransferTotals where
  downloads : TypeTotals
  uploads : TypeTotals
  deriving DecidableEq, Repr

/-- What a note does to the totals of its type. -/
def TypeTotals.note (totals : TypeTotals) : TransferNote → TypeTotals
  | .add => { totals with current := totals.current + 1, total := totals.total + 1 }
  | .data bytes => { totals with traffic := totals.traffic + bytes }
  | .remove bytes =>
      { totals with current := totals.current - 1, traffic := totals.traffic + bytes }

/-- A change of the totals of a type. -/
def TransferTotals.change (totals : TransferTotals) (type : TransferType)
    (change : TypeTotals → TypeTotals)
    : TransferTotals :=
  match type with
  | .download => { totals with downloads := change totals.downloads }
  | .upload => { totals with uploads := change totals.uploads }

/-- `wd_transfers_note_statistics`. -/
def TransferTotals.noteStatistics (totals : TransferTotals) (noted : TransferType × TransferNote)
    : TransferTotals :=
  totals.change noted.1 (·.note noted.2)

-----------------------------------------------------------------------------------------
-- Uploads
-----------------------------------------------------------------------------------------

/-- What happens in a round of the loop of an upload: how waiting for the socket ends, the chunk that is
read, if there is one, and whether it is time to note statistics.
-/
structure UploadRound where
  wait : SocketWait
  chunk : Option Chunk
  notes : Bool

/-- An upload with the local `statsbytes` and the statistics that were noted. -/
structure NotedUpload where
  upload : Upload
  statsBytes : UInt64
  notes : List TransferNote

/-- The rest of a round, after a chunk has been written. -/
def NotedUpload.count (noted : NotedUpload) (fork : Fork) (chunk : Chunk) (notes : Bool)
    : NotedUpload :=
  let statsbytes := noted.statsBytes + .ofNat chunk.size
  { upload := noted.upload.credit fork chunk
    statsBytes := if notes then 0 else statsbytes
    notes := if notes then noted.notes ++ [TransferNote.data statsbytes] else noted.notes }

/-- The loop of `wd_transfer_upload` and its result, over the rounds for which the session is logged in
when they begin.
-/
def notedUploadLoop (data : Bool) (noted : NotedUpload) : List UploadRound → NotedUpload × Bool
  | [] => (noted, true)
  | round :: rounds =>
      match noted.upload.nextFork data with
      | none => (noted, true)
      | some fork =>
          if round.wait ≠ .ready then (noted, false)
          else
            match round.chunk with
            | none => (noted, false)
            | some chunk =>
                if noted.upload.write chunk fork ≤ 0 then (noted, false)
                else notedUploadLoop (fork = .data) (noted.count fork chunk round.notes) rounds

/-- `wd_transfer_upload`. -/
def transferUpload (upload : Upload) (rounds : List UploadRound) : NotedUpload × Bool :=
  let ended := notedUploadLoop true { upload, statsBytes := 0, notes := [.add] } rounds
  ({ ended.1 with notes := ended.1.notes ++ [.remove ended.1.statsBytes] }, ended.2)

/-- The chunks of the rounds up to one that brings none. -/
def arrived : List UploadRound → List Chunk
  | [] => []
  | round :: rounds =>
      match round.chunk with
      | some chunk => if round.wait = .ready then chunk :: arrived rounds else []
      | none => []

/-- The loop does to an upload what it does without the statistics. -/
theorem upload_notedUploadLoop (rounds : List UploadRound) (data : Bool) (noted : NotedUpload)
    : (notedUploadLoop data noted rounds).1.upload
      = uploadLoop data noted.upload (arrived rounds) := by
  induction rounds generalizing data noted with
  | nil => rfl
  | cons round rounds ih =>
      rw [notedUploadLoop, arrived]
      cases next : noted.upload.nextFork data with
      | none =>
          cases arrived : round.chunk with
          | none => rfl
          | some chunk =>
              simp only
              split
              · rw [uploadLoop, next]
              · rfl
      | some fork =>
          simp only
          cases arrived : round.chunk with
          | none => split <;> rfl
          | some chunk =>
              simp only
              by_cases ready : round.wait = .ready
              · rw [if_neg (not_not.mpr ready), if_pos ready, uploadLoop, next]
                simp only
                split
                · rfl
                · exact ih _ _
              · rw [if_pos ready, if_neg ready]
                rfl

-----------------------------------------------------------------------------------------
-- Batches
-----------------------------------------------------------------------------------------

/-- Notes of batches follow other notes, and with the bytes that are still to be noted they count what was
transferred in between.
-/
structure NotesBatches (notes notes' : List TransferNote) (statsBytes statsBytes' : UInt64)
    (actual actual' : UInt64) (batches : List UInt64)
    : Prop where
  notes : notes' = notes ++ batches.map .data
  bytes : statsBytes + actual' = batches.sum + statsBytes' + actual

section Batches

variable {notes notes' : List TransferNote} {statsBytes statsBytes' actual actual' : UInt64}

/-- At first there are no batches. -/
theorem NotesBatches.refl (notes : List TransferNote) (statsBytes actual : UInt64)
    : NotesBatches notes notes statsBytes statsBytes actual actual [] where
  notes := (List.append_nil notes).symm
  bytes := by simp

/-- A round adds to the bytes that are still to be noted, or notes them. -/
theorem NotesBatches.cons {batches : List UInt64} (time : Bool) (bytes : UInt64)
    (rest : NotesBatches (if time then notes ++ [.data (statsBytes + bytes)] else notes) notes'
      (if time then 0 else statsBytes + bytes) statsBytes' (actual + bytes) actual' batches)
    : ∃ batches, NotesBatches notes notes' statsBytes statsBytes' actual actual' batches := by
  obtain ⟨same, counted⟩ := rest
  cases time with
  | false =>
      refine ⟨batches, same, ?_⟩
      simp only [Bool.false_eq_true, if_false] at counted
      grind
  | true =>
      refine ⟨(statsBytes + bytes) :: batches, ?_, ?_⟩
      · simpa using same
      · simp only [if_true] at counted
        rw [List.sum_cons]
        grind

end Batches

-----------------------------------------------------------------------------------------
-- The notes of a transfer
-----------------------------------------------------------------------------------------

/-- The loop of a download notes what it sends, by induction on its rounds. -/
theorem downloadLoop_batches (source : DownloadSource) (rounds : List DownloadRound) (data : Bool)
    (download : Download)
    : ∃ batches, NotesBatches download.notes (downloadLoop source data download rounds).1.notes
        download.statsBytes (downloadLoop source data download rounds).1.statsBytes
        download.actualTransferred
        (downloadLoop source data download rounds).1.actualTransferred batches := by
  have stays : ∃ batches, NotesBatches download.notes download.notes download.statsBytes
      download.statsBytes download.actualTransferred download.actualTransferred batches :=
    ⟨[], .refl _ _ _⟩
  induction rounds generalizing data download with
  | nil => exact stays
  | cons round rounds ih =>
      simp only [downloadLoop]
      cases download.nextFork data with
      | none => exact stays
      | some fork =>
          simp only
          cases source.read download fork round with
          | none => exact stays
          | some bytes =>
              simp only
              split
              · exact stays
              · obtain ⟨batches, rest⟩ := ih (fork = .data)
                  (download.count fork bytes round.notes) ⟨[], .refl _ _ _⟩
                apply NotesBatches.cons round.notes (download.sendBytes fork bytes)
                cases fork <;> exact rest

/-- The loop of an upload notes what it reads, by induction on its rounds. -/
theorem notedUploadLoop_batches (rounds : List UploadRound) (data : Bool) (noted : NotedUpload)
    : ∃ batches, NotesBatches noted.notes (notedUploadLoop data noted rounds).1.notes
        noted.statsBytes (notedUploadLoop data noted rounds).1.statsBytes
        noted.upload.actualTransferred
        (notedUploadLoop data noted rounds).1.upload.actualTransferred batches := by
  have stays : ∃ batches, NotesBatches noted.notes noted.notes noted.statsBytes noted.statsBytes
      noted.upload.actualTransferred noted.upload.actualTransferred batches :=
    ⟨[], .refl _ _ _⟩
  induction rounds generalizing data noted with
  | nil => exact stays
  | cons round rounds ih =>
      rw [notedUploadLoop]
      cases noted.upload.nextFork data with
      | none => exact stays
      | some fork =>
          simp only
          split
          · exact stays
          · cases round.chunk with
            | none => exact stays
            | some chunk =>
                simp only
                split
                · exact stays
                · obtain ⟨batches, rest⟩ := ih (fork = .data) (noted.count fork chunk round.notes)
                    ⟨[], .refl _ _ _⟩
                  apply NotesBatches.cons round.notes (.ofNat chunk.size)
                  cases fork <;> exact rest

/-- The totals of a type with a whole transfer more. -/
def TypeTotals.transferred (totals : TypeTotals) (bytes : UInt64) : TypeTotals :=
  { totals with total := totals.total + 1, traffic := totals.traffic + bytes }

/-- Whether a note raises the current number. -/
def TransferNote.raises : TransferNote → Bool
  | .add => true
  | .data _ | .remove _ => false

/-- Whether a note lowers the current number. -/
def TransferNote.lowers : TransferNote → Bool
  | .remove _ => true
  | .data _ | .add => false

/-- The notes of a transfer raise and lower the current number once, and whatever other threads note in
between, the totals are those without the transfer, with it and its bytes added.
-/
structure IsCounted (type : TransferType) (notes : List TransferNote) (bytes : UInt64) : Prop where
  raises : notes.countP TransferNote.raises = 1
  lowers : notes.countP TransferNote.lowers = 1
  totals : ∀ (totals : TransferTotals) (others interleaved : List (TransferType × TransferNote)),
    interleaved.Perm (others ++ notes.map (type, ·)) →
    interleaved.foldl TransferTotals.noteStatistics totals
      = (others.foldl TransferTotals.noteStatistics totals).change type (·.transferred bytes)

/-- Notes of a type change the totals of it one after the other. -/
theorem TransferTotals.foldl_noteStatistics (type : TransferType) (notes : List TransferNote)
    (totals : TransferTotals)
    : (notes.map (type, ·)).foldl noteStatistics totals
      = totals.change type fun ofType => notes.foldl TypeTotals.note ofType := by
  induction notes generalizing totals with
  | nil => cases type <;> rfl
  | cons note notes ih =>
      rw [List.map_cons, List.foldl_cons, ih]
      cases type <;> rfl

/-- Two notes may come in any order. -/
theorem TransferTotals.noteStatistics_comm (totals : TransferTotals)
    (first second : TransferType × TransferNote)
    : (totals.noteStatistics first).noteStatistics second
      = (totals.noteStatistics second).noteStatistics first := by
  have comm (ofType : TypeTotals) (note note' : TransferNote)
      : (ofType.note note).note note' = (ofType.note note').note note := by
    cases note <;> cases note' <;> simp only [TypeTotals.note, TypeTotals.mk.injEq]
      <;> refine ⟨?_, ?_, ?_⟩ <;> grind
  obtain ⟨type, note⟩ := first
  obtain ⟨type', note'⟩ := second
  cases type <;> cases type' <;> simp only [noteStatistics, change, comm]

/-- Batches add their bytes to the traffic. -/
theorem TypeTotals.foldl_data (batches : List UInt64) (totals : TypeTotals)
    : (batches.map TransferNote.data).foldl note totals
      = { totals with traffic := totals.traffic + batches.sum } := by
  induction batches generalizing totals with
  | nil => simp
  | cons batch batches ih =>
      rw [List.map_cons, List.foldl_cons, ih, List.sum_cons]
      simp only [note, UInt64.add_assoc]

/-- A transfer that counts itself, then notes its bytes in batches, and counts itself out with the last of
them, is counted.
-/
theorem isCounted_of_batches {type : TransferType} {notes : List TransferNote}
    {batches : List UInt64} {last bytes : UInt64}
    (noted : notes = .add :: batches.map .data ++ [.remove last])
    (sum : batches.sum + last = bytes)
    : IsCounted type notes bytes where
  raises := by
    have none : (batches.map TransferNote.data).countP TransferNote.raises = 0 := by
      simp [List.countP_eq_zero, TransferNote.raises]
    rw [noted, List.countP_append, List.countP_cons, none]
    rfl
  lowers := by
    have none : (batches.map TransferNote.data).countP TransferNote.lowers = 0 := by
      simp [List.countP_eq_zero, TransferNote.lowers]
    rw [noted, List.countP_append, List.countP_cons, none]
    rfl
  totals totals others interleaved perm := by
    rw [perm.foldl_eq' fun first _ second _ totals => totals.noteStatistics_comm first second,
      List.foldl_append, TransferTotals.foldl_noteStatistics]
    congr 1
    funext ofType
    rw [noted, List.cons_append, List.foldl_cons, List.foldl_append, TypeTotals.foldl_data]
    simp only [List.foldl_cons, List.foldl_nil, TypeTotals.note, TypeTotals.transferred,
      TypeTotals.mk.injEq]
    refine ⟨?_, trivial, ?_⟩ <;> grind

/-- Every run of a download and of an upload is counted with the bytes that it transferred, whatever
happens in its rounds.
-/
theorem transfers_counted
    : (∀ (source : DownloadSource) (dataOffset rsrcOffset : UInt64) (rounds : List DownloadRound),
        IsCounted .download
          (transferDownload source (source.download dataOffset rsrcOffset) rounds).1.notes
          (transferDownload source (source.download dataOffset rsrcOffset)
            rounds).1.actualTransferred)
      ∧ (∀ (target : Target) (dataSize rsrcSize : UInt64) (message : UploadMessage)
        (rounds : List UploadRound),
        IsCounted .upload
          (transferUpload ((target.upload dataSize rsrcSize).expect message) rounds).1.notes
          (transferUpload ((target.upload dataSize rsrcSize).expect message)
            rounds).1.upload.actualTransferred) := by
  constructor
  · intro source dataOffset rsrcOffset rounds
    obtain ⟨batches, noted⟩ := downloadLoop_batches source rounds true
      ((source.download dataOffset rsrcOffset).note .add)
    have notes : (transferDownload source (source.download dataOffset rsrcOffset) rounds).1.notes
        = (downloadLoop source true ((source.download dataOffset rsrcOffset).note .add)
          rounds).1.notes ++ [.remove (downloadLoop source true
            ((source.download dataOffset rsrcOffset).note .add) rounds).1.statsBytes] := rfl
    refine isCounted_of_batches (by rw [notes, noted.notes]; rfl) ?_
    have bytes := noted.bytes
    change 0 + _ = _ + 0 at bytes
    rw [UInt64.zero_add, UInt64.add_zero] at bytes
    exact bytes.symm
  · intro target dataSize rsrcSize message rounds
    obtain ⟨batches, noted⟩ := notedUploadLoop_batches rounds true
      { upload := (target.upload dataSize rsrcSize).expect message, statsBytes := 0,
        notes := [.add] }
    have notes : (transferUpload ((target.upload dataSize rsrcSize).expect message) rounds).1.notes
        = _ ++ [.remove _] := rfl
    refine isCounted_of_batches (by rw [notes, noted.notes]; rfl) ?_
    have bytes := noted.bytes
    change 0 + _ = _ + 0 at bytes
    rw [UInt64.zero_add, UInt64.add_zero] at bytes
    exact bytes.symm

end WiredServer.Transfers
