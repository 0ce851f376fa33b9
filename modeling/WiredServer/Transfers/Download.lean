import WiredServer.Transfers.Upload

/-! The download of a file. The remaining sizes of the two forks are unsigned differences of the sizes on
disk and the offsets that the client sends, and the loop that sends them returns the same for a
session that has ended as for forks that have been sent.
-/

namespace WiredServer.Transfers

-----------------------------------------------------------------------------------------
-- Data model
-----------------------------------------------------------------------------------------

/-- What the file system has for the path of a download: the bytes of the two forks, if they exist, which
of them can be opened, and whether the client and the file system support resource forks.
-/
structure DownloadSource where
  data : Option (List UInt8)
  rsrc : Option (List UInt8)
  dataOpens : Bool
  rsrcOpens : Bool
  rsrcSupported : Bool
  data_lt : ∀ bytes, data = some bytes → bytes.length < 2 ^ 63
  rsrc_lt : ∀ bytes, rsrc = some bytes → bytes.length < 2 ^ 63

/-- The bytes of a fork that can be sent. -/
def DownloadSource.bytes (source : DownloadSource) : Fork → List UInt8
  | .data => source.data.getD []
  | .rsrc => if source.rsrcSupported then source.rsrc.getD [] else []

/-- The size of a fork, which is 0 when `stat` finds none. -/
def DownloadSource.size (source : DownloadSource) (fork : Fork) : UInt64 :=
  .ofNat (source.bytes fork).length

/-- Whether `open` succeeds for the resource fork. -/
def DownloadSource.rsrcOpen (source : DownloadSource) : Bool :=
  source.rsrcSupported && source.rsrc.isSome && source.rsrcOpens

/-- A call of `wd_transfers_note_statistics`. -/
inductive TransferNote where
  | add
  | data (bytes : UInt64)
  | remove (bytes : UInt64)
  deriving DecidableEq, Repr

/-- The fields of `wd_transfer_t` that a download counts with, the positions of its descriptors, the bytes
that were written to the client, the local `statsbytes` and the statistics that were noted. `debits`
are the subtractions from the remaining sizes so far.
-/
structure Download where
  dataSize : UInt64
  rsrcSize : UInt64
  rsrcOpen : Bool
  remainingDataSize : UInt64
  remainingRsrcSize : UInt64
  transferred : UInt64
  actualTransferred : UInt64
  dataPosition : ℕ
  rsrcPosition : ℕ
  sent : List UInt8
  statsBytes : UInt64
  notes : List TransferNote
  debits : List (UInt64 × UInt64)
  deriving DecidableEq, Repr

/-- Whether `lseek` accepts an offset, which it takes for a signed one. -/
def seeks (offset : UInt64) : Bool :=
  offset < 2 ^ 63

/-- The transfer that `wd_transfer_download_transfer` makes of the opened forks. -/
def DownloadSource.download (source : DownloadSource) (dataOffset rsrcOffset : UInt64) : Download where
  dataSize := source.size .data
  rsrcSize := source.size .rsrc
  rsrcOpen := source.rsrcOpen
  remainingDataSize := source.size .data - dataOffset
  remainingRsrcSize := source.size .rsrc - rsrcOffset
  transferred := dataOffset + rsrcOffset
  actualTransferred := 0
  dataPosition := dataOffset.toNat
  rsrcPosition := rsrcOffset.toNat
  sent := []
  statsBytes := 0
  notes := []
  debits := [(source.size .data, dataOffset), (source.size .rsrc, rsrcOffset)]

/-- `wd_transfer_download_transfer`, for the offsets that the client sends. -/
def downloadTransfer (source : DownloadSource) (dataOffset rsrcOffset : UInt64) : Option Download := do
  if !(source.data.isSome && source.dataOpens) then none
  else if !seeks dataOffset then none
  else if source.rsrcOpen && !seeks rsrcOffset then none
  else some (source.download dataOffset rsrcOffset)

-----------------------------------------------------------------------------------------
-- The loop
-----------------------------------------------------------------------------------------

/-- `WD_TRANSFER_BUFFER_SIZE`. -/
def transferBufferSize : ℕ := 16384

/-- How waiting for the client's socket ends: it is ready, waiting fails or takes too long, or the session
ends.
-/
inductive SocketWait where
  | ready
  | failed
  | ended
  deriving DecidableEq, Repr

/-- What happens in a round of the loop: how many bytes `read` returns at most, if it does not fail, how
waiting for the socket ends, whether the bytes are written, and whether it is time to note statistics.
-/
structure DownloadRound where
  reads : Option ℕ
  wait : SocketWait
  writes : Bool
  notes : Bool
  reads_pos : ∀ limit, reads = some limit → 0 < limit

/-- All calls of a round succeed. -/
def DownloadRound.succeeds (round : DownloadRound) : Bool :=
  round.reads.isSome && round.wait = .ready && round.writes

/-- The remaining size of a fork. -/
def Download.remainingSize (download : Download) : Fork → UInt64
  | .data => download.remainingDataSize
  | .rsrc => download.remainingRsrcSize

/-- The position of the descriptor of a fork. -/
def Download.position (download : Download) : Fork → ℕ
  | .data => download.dataPosition
  | .rsrc => download.rsrcPosition

/-- `read`, which fails for a fork that is not open. -/
def DownloadSource.read (source : DownloadSource) (download : Download) (fork : Fork)
    (round : DownloadRound)
    : Option (List UInt8) :=
  if fork = .rsrc ∧ download.rsrcOpen = false then none
  else round.reads.map fun limit =>
    ((source.bytes fork).drop (download.position fork)).take (min limit transferBufferSize)

/-- `sendbytes`: no more than what remains of the fork. -/
def Download.sendBytes (download : Download) (fork : Fork) (bytes : List UInt8) : UInt64 :=
  if download.remainingSize fork < .ofNat bytes.length then download.remainingSize fork
  else .ofNat bytes.length

/-- The rest of a round, after so many of the bytes that were read have been written. -/
def Download.count (download : Download) (fork : Fork) (bytes : List UInt8) (notes : Bool) : Download :=
  let sendbytes := download.sendBytes fork bytes
  let statsbytes := download.statsBytes + sendbytes
  let download := { download with
    transferred := download.transferred + sendbytes
    actualTransferred := download.actualTransferred + sendbytes
    sent := download.sent ++ bytes.take sendbytes.toNat
    statsBytes := if notes then 0 else statsbytes
    notes := if notes then download.notes ++ [TransferNote.data statsbytes] else download.notes
    debits := download.debits ++ [(download.remainingSize fork, sendbytes)] }
  match fork with
  | .data => { download with
      remainingDataSize := download.remainingDataSize - sendbytes
      dataPosition := download.dataPosition + bytes.length }
  | .rsrc => { download with
      remainingRsrcSize := download.remainingRsrcSize - sendbytes
      rsrcPosition := download.rsrcPosition + bytes.length }

/-- The fork that the next round is for, if there is one: the data fork until the loop has once found
that nothing of it remains.
-/
def Download.nextFork (download : Download) (data : Bool) : Option Fork :=
  if data && download.remainingDataSize ≠ 0 then some .data
  else if download.remainingRsrcSize = 0 then none
  else some .rsrc

/-- The loop of `wd_transfer_download` and its result, over the rounds for which the session is logged in
when they begin.
-/
def downloadLoop (source : DownloadSource) (data : Bool) (download : Download)
    : List DownloadRound → Download × Bool
  | [] => (download, true)
  | round :: rounds =>
      match download.nextFork data with
      | none => (download, true)
      | some fork =>
          match source.read download fork round with
          | none => (download, false)
          | some bytes =>
              if bytes = [] || round.wait ≠ .ready || !round.writes then (download, false)
              else downloadLoop source (fork = .data) (download.count fork bytes round.notes) rounds

/-- A further note of a download. -/
def Download.note (download : Download) (note : TransferNote) : Download :=
  { download with notes := download.notes ++ [note] }

/-- `wd_transfer_download`. -/
def transferDownload (source : DownloadSource) (download : Download) (rounds : List DownloadRound)
    : Download × Bool :=
  let ended := downloadLoop source true (download.note .add) rounds
  (ended.1.note (.remove ended.1.statsBytes), ended.2)

/-- What comes of a download: the sizes in the reply `wired.transfer.download`, the transfer, the result,
and what is added to the statistics of the account, which is whether the download is finished and the
bytes that were transferred.
-/
structure DownloadOutcome where
  announced : Option (UInt64 × UInt64)
  transfer : Download
  result : Bool
  statistics : Option (Bool × UInt64)
  deriving DecidableEq, Repr

/-- `wd_transfers_run_download`, which ends when the reply cannot be written. -/
def runDownload (source : DownloadSource) (download : Download) (replies : Bool)
    (rounds : List DownloadRound)
    : DownloadOutcome :=
  if replies then
    let ended := transferDownload source download rounds
    { announced := some (download.remainingDataSize, download.remainingRsrcSize)
      transfer := ended.1
      result := ended.2
      statistics := some (ended.1.transferred = ended.1.dataSize + ended.1.rsrcSize,
        ended.1.actualTransferred) }
  else { announced := none, transfer := download, result := false, statistics := none }

end WiredServer.Transfers
