import WiredServer.Lib.Machine

/-! The socket of one session, on which its own thread runs downloads while any number of other
threads send messages to the session. An action is what a thread does between two takings of the
socket's lock, of which `wd_user_write_message` is one.
-/

set_option linter.unusedSectionVars false

namespace WiredServer.Transfers

/-- What is written to the socket: messages of the session's own thread and of others, the reply
`wired.transfer.download` and its out-of-band data. The last marks where that data ends.
-/
inductive Written (θ : Type) where
  | message (sender : Option θ)
  | download (data rsrc : ℕ)
  | oobdata (bytes : ℕ)
  | ended
  deriving DecidableEq, Repr

/-- Where the session's own thread is in `wd_message_transfer_download_file`,
`wd_transfers_wait_until_ready`, `wd_transfers_run_download` and `wd_transfer_download`.
-/
inductive StreamPoint where
  | serving
  | attaching
  | waiting
  | checking
  | ready
  | replied
  | sending (data : Bool)
  | unlocking (result : Bool)
  | finishing (result : Bool)
  | detaching
  deriving DecidableEq, Repr

/-- What comes of one round of the loop in `wd_transfer_download`: nothing is read from the file, the
socket does not become ready, nothing is written, or a chunk is written.
-/
inductive StreamChunk where
  | unread
  | notReady
  | unwritten
  | written (readbytes : ℕ)
  deriving DecidableEq, Repr

/-- The session's socket and the threads at it. `locked` is whether the session's own thread holds the
socket's lock from one action to the next, `transferring` is `wd_user_transfer`, `loggedIn` is
whether its state is `WD_USER_LOGGED_IN`, and `passed` is whether a thread has found the session
without a transfer and has still to write its message.
-/
structure Stream (θ : Type) where
  point : StreamPoint
  locked : Bool
  transferring : Bool
  loggedIn : Bool
  remainingData : ℕ
  remainingRsrc : ℕ
  passed : θ → Bool
  written : List (Written θ)

/-- The actions of the session's own thread. -/
inductive OwnAction where
  | reply (writes : Bool)
  | logIn
  | start (data rsrc : ℕ)
  | position (queue : ℕ) (writes : Bool)
  | write (writes : Bool)
  | chunk (chunk : StreamChunk)
  | next
  deriving DecidableEq, Repr

/-- The actions of all threads: those of `wd_user_send_message` in another thread, and a change of the
session's state.
-/
inductive StreamAction (θ : Type) where
  | own (action : OwnAction)
  | test (thread : θ)
  | write (thread : θ) (writes : Bool)
  | disconnect
  deriving DecidableEq, Repr

namespace Stream

variable {θ : Type} [DecidableEq θ]

/-- A logged-in session before it downloads, which no thread is about to write to. -/
def initial : Stream θ where
  point := .serving
  locked := false
  transferring := false
  loggedIn := true
  remainingData := 0
  remainingRsrc := 0
  passed _ := false
  written := []

/-- A further entry is written. -/
def write (stream : Stream θ) (entry : Written θ) : Stream θ :=
  { stream with written := stream.written ++ [entry] }

/-- A round of the loop in `wd_transfer_download`. -/
def stepChunk (stream : Stream θ) (data : Bool) (chunk : StreamChunk) : Stream θ :=
  let stop := fun result => { stream.write .ended with point := .unlocking result }
  let data := data && stream.remainingData ≠ 0
  if !stream.loggedIn then stop true
  else if !data && stream.remainingRsrc = 0 then stop true
  else
    match chunk with
    | .unread | .notReady | .unwritten => stop false
    | .written readbytes =>
        if data then
          let sendbytes := min stream.remainingData readbytes
          { stream.write (.oobdata sendbytes) with
            remainingData := stream.remainingData - sendbytes
            point := .sending data }
        else
          let sendbytes := min stream.remainingRsrc readbytes
          { stream.write (.oobdata sendbytes) with
            remainingRsrc := stream.remainingRsrc - sendbytes
            point := .sending data }

/-- The next step of the session's own thread. -/
def stepOwn (stream : Stream θ) (action : OwnAction) : Option (Stream θ) :=
  match stream.point, action with
  | .serving, .reply writes =>
      some (if writes then stream.write (.message none) else { stream with loggedIn := false })
  | .serving, .logIn => some { stream with loggedIn := true }
  | .serving, .start data rsrc =>
      some { stream with remainingData := data, remainingRsrc := rsrc, point := .attaching }
  | .attaching, .next => some { stream with transferring := true, point := .waiting }
  | .waiting, .position queue writes =>
      some (if queue = 0 then { stream with point := .ready }
        else if writes then { stream.write (.message none) with point := .checking }
        else { stream with point := .finishing false })
  | .checking, .next =>
      some { stream with point := if stream.loggedIn then .waiting else .ready }
  | .ready, .write writes =>
      some (if writes then
          { stream.write (.download stream.remainingData stream.remainingRsrc) with
            point := .replied }
        else { stream with point := .finishing false })
  | .replied, .next => some { stream with locked := true, point := .sending true }
  | .sending data, .chunk chunk => some (stream.stepChunk data chunk)
  | .unlocking result, .next => some { stream with locked := false, point := .finishing result }
  | .finishing result, .next =>
      some { stream with loggedIn := stream.loggedIn && result, point := .detaching }
  | .detaching, .next => some { stream with transferring := false, point := .serving }
  | _, _ => none

/-- The next step of any thread. -/
def step (action : StreamAction θ) (stream : Stream θ) : Option (Stream θ) :=
  match action with
  | .own action => stream.stepOwn action
  | .test thread =>
      if stream.passed thread then none
      else some { stream with
        passed := Function.update stream.passed thread !stream.transferring }
  | .write thread writes =>
      if stream.passed thread ∧ !stream.locked then
        some { if writes then stream.write (.message (some thread))
          else { stream with loggedIn := false } with
            passed := Function.update stream.passed thread false }
      else none
  | .disconnect => some { stream with loggedIn := false }

/-- Whether the last download reply has data that has not ended. -/
def isStreaming (written : List (Written θ)) : Bool :=
  written.foldl (fun streaming entry =>
    match entry with
    | .download _ _ => true
    | .ended => false
    | .message _ | .oobdata _ => streaming) false

/-- No message of another thread is written between a download reply and the end of its data. -/
def IsExclusive (stream : Stream θ) : Prop :=
  ∀ before thread after, stream.written = before ++ .message (some thread) :: after →
    isStreaming before = false

/-- No other thread writes its message between the download reply and the lock under which its data
is written.
-/
def keepsOut (action : StreamAction θ) (stream : Stream θ) : Bool :=
  match action with
  | .write _ true => stream.point ≠ .replied
  | .write _ false | .own _ | .test _ | .disconnect => true

/-- The data of a download is still to come at two points, and the lock is held from the second on. -/
structure Ordered (stream : Stream θ) : Prop where
  streaming : isStreaming stream.written = true ↔ stream.point = .replied
    ∨ ∃ data, stream.point = .sending data
  locked : (∃ data, stream.point = .sending data) → stream.locked = true

section Steps

variable {stream next : Stream θ}

theorem isStreaming_append (written : List (Written θ)) (entry : Written θ)
    : isStreaming (written ++ [entry]) = match entry with
      | .download _ _ => true
      | .ended => false
      | .message _ | .oobdata _ => isStreaming written := by
  rw [isStreaming, List.foldl_append]
  rfl

/-- A further entry keeps the stream exclusive if it is no message of another thread while data is
still to come.
-/
theorem isExclusive_write (entry : Written θ)
    : (stream.write entry).IsExclusive ↔ stream.IsExclusive
      ∧ ∀ thread, entry = .message (some thread) → isStreaming stream.written = false := by
  constructor
  · intro exclusive
    refine ⟨fun before thread after same => exclusive before thread (after ++ [entry]) ?_,
      fun thread same => exclusive stream.written thread [] ?_⟩
    · simp [write, same]
    · simp [write, same]
  · rintro ⟨exclusive, last⟩ before thread after same
    rw [write] at same
    rcases List.eq_nil_or_concat after with rfl | ⟨after, other, rfl⟩
    · obtain ⟨rfl, equal⟩ := List.append_inj' same rfl
      exact last thread (List.singleton_inj.mp equal)
    · rw [List.concat_eq_append, ← List.cons_append, ← List.append_assoc] at same
      exact exclusive before thread after (List.append_inj' same rfl).1

/-- A stream is exclusive or not by what is written. -/
theorem isExclusive_congr (same : next.written = stream.written)
    : next.IsExclusive ↔ stream.IsExclusive := by
  rw [IsExclusive, IsExclusive, same]

/-- A further entry of the session's own thread keeps the stream exclusive or not. -/
theorem isExclusive_own {entry : Written θ} (written : next.written = stream.written ++ [entry])
    (own : ∀ thread, entry ≠ .message (some thread))
    : next.IsExclusive ↔ stream.IsExclusive := by
  have same : next.IsExclusive ↔ (stream.write entry).IsExclusive := isExclusive_congr written
  rw [same, isExclusive_write]
  exact and_iff_left fun thread same => absurd same (own thread)

/-- A round of the loop writes one entry, and stays in the loop or ends the data. -/
theorem stepChunk_cases {data : Bool} {chunk : StreamChunk} (stepped : stream.stepChunk data chunk = next)
    : ((∃ data, next.point = .sending data) ∧ next.locked = stream.locked
        ∧ ∃ bytes, next.written = stream.written ++ [.oobdata bytes])
      ∨ (∃ result, next.point = .unlocking result)
        ∧ next.written = stream.written ++ [.ended] := by
  unfold stepChunk at stepped
  simp only at stepped
  split at stepped
  · exact .inr (stepped ▸ ⟨⟨true, rfl⟩, rfl⟩)
  split at stepped
  · exact .inr (stepped ▸ ⟨⟨true, rfl⟩, rfl⟩)
  split at stepped
  · exact .inr (stepped ▸ ⟨⟨false, rfl⟩, rfl⟩)
  · exact .inr (stepped ▸ ⟨⟨false, rfl⟩, rfl⟩)
  · exact .inr (stepped ▸ ⟨⟨false, rfl⟩, rfl⟩)
  · split at stepped
    · exact .inl (stepped ▸ ⟨⟨_, rfl⟩, rfl, _, rfl⟩)
    · exact .inl (stepped ▸ ⟨⟨_, rfl⟩, rfl, _, rfl⟩)

/-- A step that writes nothing and ends at another point than those with data still to come, if none
was before.
-/
theorem ordered_quiet (ordered : Ordered stream) (written : next.written = stream.written)
    (before : stream.point ≠ .replied ∧ ∀ data, stream.point ≠ .sending data)
    (after : next.point ≠ .replied ∧ ∀ data, next.point ≠ .sending data)
    : Ordered next where
  streaming := by
    rw [written, ordered.streaming]
    simp [before, after]
  locked := fun ⟨data, here⟩ => absurd here (after.2 data)

/-- A step that writes a message of the session's own thread, with no data still to come. -/
theorem ordered_message (ordered : Ordered stream)
    (written : next.written = stream.written ++ [.message none])
    (before : stream.point ≠ .replied ∧ ∀ data, stream.point ≠ .sending data)
    (after : next.point ≠ .replied ∧ ∀ data, next.point ≠ .sending data)
    : Ordered next where
  streaming := by
    rw [written, isStreaming_append]
    simp only
    rw [ordered.streaming]
    simp [before, after]
  locked := fun ⟨data, here⟩ => absurd here (after.2 data)

/-- A step of the session's own thread writes nothing or one entry, which is no message of another
thread, and keeps the order of its points.
-/
theorem stepOwn_cases {action : OwnAction} (ordered : Ordered stream)
    (stepped : stream.stepOwn action = some next)
    : Ordered next ∧ (next.written = stream.written
      ∨ ∃ entry, next.written = stream.written ++ [entry]
        ∧ ∀ thread, entry ≠ .message (some thread)) := by
  unfold stepOwn at stepped
  split at stepped
  case h_1 writes here =>
      cases writes
      · cases stepped
        exact ⟨ordered_quiet ordered rfl (by simp [here]) (by simp [here]), .inl rfl⟩
      · cases stepped
        exact ⟨ordered_message ordered rfl (by simp [here]) (by simp [write, here]),
          .inr ⟨_, rfl, nofun⟩⟩
  case h_2 here | h_3 here | h_4 here | h_10 here | h_11 here | h_12 here =>
      cases stepped
      exact ⟨ordered_quiet ordered rfl (by simp [here]) (by simp [here]), .inl rfl⟩
  case h_5 queue writes here =>
      split at stepped
      · cases stepped
        exact ⟨ordered_quiet ordered rfl (by simp [here]) (by simp), .inl rfl⟩
      · cases writes <;> cases stepped
        · exact ⟨ordered_quiet ordered rfl (by simp [here]) (by simp), .inl rfl⟩
        · exact ⟨ordered_message ordered rfl (by simp [here]) (by simp), .inr ⟨_, rfl, nofun⟩⟩
  case h_6 here =>
      cases stepped
      refine ⟨ordered_quiet ordered rfl (by simp [here]) ?_, .inl rfl⟩
      cases stream.loggedIn <;> simp
  case h_7 writes here =>
      cases writes
      · cases stepped
        exact ⟨ordered_quiet ordered rfl (by simp [here]) (by simp), .inl rfl⟩
      · cases stepped
        refine ⟨⟨?_, by simp⟩, .inr ⟨_, rfl, nofun⟩⟩
        simp [write, isStreaming_append]
  case h_8 here =>
      cases stepped
      refine ⟨⟨?_, fun _ => rfl⟩, .inl rfl⟩
      simp [ordered.streaming, here]
  case h_9 data chunk here =>
      rcases stepChunk_cases (Option.some.inj stepped)
        with ⟨⟨still, there⟩, locked, bytes, written⟩ | ⟨⟨result, there⟩, written⟩
      · refine ⟨⟨?_, fun _ => locked.trans (ordered.locked ⟨data, here⟩)⟩, .inr ⟨_, written, nofun⟩⟩
        rw [written, isStreaming_append]
        simp [ordered.streaming, here, there]
      · refine ⟨⟨?_, by simp [there]⟩, .inr ⟨_, written, nofun⟩⟩
        rw [written, isStreaming_append]
        simp [there]
  case h_13 => cases stepped

/-- A step of any thread keeps the order of the points. -/
theorem ordered_of_step {action : StreamAction θ} (ordered : Ordered stream)
    (stepped : step action stream = some next)
    : Ordered next := by
  cases action with
  | own action => exact (stepOwn_cases ordered stepped).1
  | test thread =>
      rw [step] at stepped
      split at stepped <;> cases stepped
      exact ⟨ordered.streaming, ordered.locked⟩
  | write thread writes =>
      rw [step] at stepped
      split at stepped <;> cases stepped
      cases writes
      · exact ⟨ordered.streaming, ordered.locked⟩
      · refine ⟨?_, ordered.locked⟩
        simpa [write, isStreaming_append] using ordered.streaming
  | disconnect =>
      cases stepped
      exact ⟨ordered.streaming, ordered.locked⟩

/-- A step gives up that the stream is exclusive exactly when another thread writes its message between
the reply and the lock.
-/
theorem isExclusive_iff_of_step {action : StreamAction θ} (ordered : Ordered stream)
    (stepped : step action stream = some next)
    : next.IsExclusive ↔ stream.IsExclusive ∧ keepsOut action stream = true := by
  cases action with
  | own action =>
      rcases (stepOwn_cases ordered stepped).2 with written | ⟨entry, written, own⟩
      · rw [isExclusive_congr written]
        simp [keepsOut]
      · rw [isExclusive_own written own]
        simp [keepsOut]
  | test thread =>
      have written : next.written = stream.written := by
        rw [step] at stepped
        split at stepped <;> cases stepped
        rfl
      rw [isExclusive_congr written]
      simp [keepsOut]
  | write thread writes =>
      rw [step] at stepped
      split at stepped
      case isFalse => cases stepped
      case isTrue may =>
      cases writes with
      | false =>
          have written : next.written = stream.written := by
            cases stepped
            rfl
          rw [isExclusive_congr written]
          simp [keepsOut]
      | true =>
          have written : next.written = (stream.write (.message (some thread))).written := by
            cases stepped
            rfl
          -- the lock is free, so the only point with data still to come is after the reply
          have unlocked : ¬∃ data, stream.point = .sending data := fun sending => by
            simp [ordered.locked sending] at may
          have quiet : isStreaming stream.written = false ↔ stream.point ≠ .replied := by
            rw [← Bool.not_eq_true, ordered.streaming]
            simp [unlocked]
          rw [isExclusive_congr written, isExclusive_write]
          simp [keepsOut, quiet]
  | disconnect =>
      have written : next.written = stream.written := by
        cases stepped
        rfl
      rw [isExclusive_congr written]
      simp [keepsOut]

/-- In every run, no message of another thread is written between a download reply and the end of its
data exactly if none is written between the reply and the lock for the data.
-/
theorem isExclusive_iff_of_run {actions : List (StreamAction θ)} {last : Stream θ}
    (ran : Machine.run step actions initial = some last)
    : last.IsExclusive ↔ Machine.Meets step (keepsOut · ·) actions initial := by
  have before : Ordered (initial : Stream θ) := ⟨by simp [initial, isStreaming], nofun⟩
  have exclusive : (initial : Stream θ).IsExclusive := fun before thread after same => by
    simp [initial] at same
  rw [Machine.holds_iff_meets_of_run
    (fun _ _ _ ordered stepped => ordered_of_step ordered stepped)
    (fun _ _ _ ordered stepped => isExclusive_iff_of_step ordered stepped) ran before]
  exact and_iff_right exclusive

/-- A thread finds the session without a transfer. Then the session's own thread starts a download, and
the other thread writes its message in front of the data.
-/
def broadcastRun : List (StreamAction ℕ) :=
  [.test 0, .own (.start 10 0), .own .next, .own (.position 0 true), .own (.write true),
    .write 0 true, .own .next, .own (.chunk (.written 10))]

/-- When the message is written before the reply, the stream is exclusive. -/
theorem isExclusive_of_run_early
    : ∃ last, Machine.run step
          [.test 0, .own (.start 10 0), .own .next, .own (.position 0 true), .write 0 true,
            .own (.write true), .own .next, .own (.chunk (.written 10))]
          (initial : Stream ℕ) = some last ∧ last.IsExclusive := by
  have reached : (Machine.run step
      [.test 0, .own (.start 10 0), .own .next, .own (.position 0 true), .write 0 true,
        .own (.write true), .own .next, .own (.chunk (.written 10))]
      (initial : Stream ℕ)).isSome = true := by
    decide
  obtain ⟨last, ran⟩ := Option.isSome_iff_exists.mp reached
  exact ⟨last, ran, (isExclusive_iff_of_run ran).mpr (by decide)⟩

/-- The message of the other thread is written to the middle of the stream. -/
theorem not_isExclusive_broadcast
    : ¬∀ (actions : List (StreamAction ℕ)) (last : Stream ℕ),
        Machine.run step actions initial = some last → last.IsExclusive := by
  intro always
  have reached : (Machine.run step broadcastRun (initial : Stream ℕ)).map (·.written)
      = some [.download 10 0, .message (some 0), .oobdata 10] := by
    decide
  obtain ⟨last, ran, written⟩ := Option.map_eq_some_iff.mp reached
  have exclusive := always _ last ran [.download 10 0] 0 [.oobdata 10] written
  simp [isStreaming] at exclusive

end Steps

end Stream

end WiredServer.Transfers
