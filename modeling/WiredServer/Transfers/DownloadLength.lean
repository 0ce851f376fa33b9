import WiredServer.Transfers.Download

/-! When a download sends exactly the rest of both forks: it is refused, or no offset is behind the end of
its fork and the loop does not find, between two rounds, that the session has ended too early.
-/

namespace WiredServer.Transfers

-----------------------------------------------------------------------------------------
-- What a download should do
-----------------------------------------------------------------------------------------

/-- The session ends between two rounds, and with bytes still to be sent. -/
def endsEarly (rsrcOpen : Bool) : ℕ → ℕ → List DownloadRound → Bool
  | data, rsrc, [] => data ≠ 0 || rsrc ≠ 0
  | data, rsrc, round :: rounds =>
      match round.reads with
      | none => false
      | some limit =>
          if (data = 0 && rsrc = 0) || round.wait ≠ .ready || !round.writes then false
          else if data ≠ 0 then
            endsEarly rsrcOpen (data - min limit transferBufferSize) rsrc rounds
          else rsrcOpen && endsEarly rsrcOpen 0 (rsrc - min limit transferBufferSize) rounds

/-- A download is refused if the data fork cannot be opened or an offset is no signed one. -/
def DownloadSource.Refuses (source : DownloadSource) (dataOffset rsrcOffset : UInt64) : Prop :=
  (source.data.isSome && source.dataOpens) = false ∨ seeks dataOffset = false
    ∨ (source.rsrcOpen && !seeks rsrcOffset) = true

instance (source : DownloadSource) (dataOffset rsrcOffset : UInt64)
    : Decidable (source.Refuses dataOffset rsrcOffset) :=
  inferInstanceAs (Decidable (_ ∨ _ ∨ _))

/-- If a download is not refused, no subtraction from a remaining size goes below zero, the reply announces
what is behind the offsets, all of it is sent when every call succeeds, and only then the result is
true.
-/
structure SendsExactly (source : DownloadSource) (dataOffset rsrcOffset : UInt64) (replies : Bool)
    (rounds : List DownloadRound) (transfer : Download)
    : Prop where
  covered : ∀ debit ∈ (runDownload source transfer replies rounds).transfer.debits,
    debit.2 ≤ debit.1
  announced : ∀ sizes, (runDownload source transfer replies rounds).announced = some sizes →
    sizes.1.toNat = (source.bytes .data).length - dataOffset.toNat
      ∧ sizes.2.toNat = (source.bytes .rsrc).length - rsrcOffset.toNat
  sends : replies = true → (∀ round ∈ rounds, round.succeeds = true) →
    (source.rsrcOpen = true ∨ (source.bytes .rsrc).length ≤ rsrcOffset.toNat) →
    (runDownload source transfer replies rounds).transfer.sent
      = (source.bytes .data).drop dataOffset.toNat ++ (source.bytes .rsrc).drop rsrcOffset.toNat
  finished : (runDownload source transfer replies rounds).result = true →
    (runDownload source transfer replies rounds).transfer.remainingDataSize = 0
      ∧ (runDownload source transfer replies rounds).transfer.remainingRsrcSize = 0

-----------------------------------------------------------------------------------------
-- One round
-----------------------------------------------------------------------------------------

/-- The forks of a source are shorter than 2^63. -/
theorem DownloadSource.length_lt (source : DownloadSource) (fork : Fork)
    : (source.bytes fork).length < 2 ^ 63 := by
  have getD_lt : ∀ {bytes : Option (List UInt8)},
      (∀ some, bytes = .some some → some.length < 2 ^ 63) → (bytes.getD []).length < 2 ^ 63 := by
    intro bytes below
    cases bytes with
    | none => decide
    | some bytes => exact below bytes rfl
  cases fork with
  | data => exact getD_lt source.data_lt
  | rsrc =>
      rw [bytes]
      split
      · exact getD_lt source.rsrc_lt
      · decide

/-- The size of a fork counts its bytes. -/
theorem DownloadSource.toNat_size (source : DownloadSource) (fork : Fork)
    : (source.size fork).toNat = (source.bytes fork).length :=
  UInt64.toNat_ofNat_of_lt' ((source.length_lt fork).trans (by decide))

/-- The counters hold what is behind the positions of the descriptors, and what has been sent and what is
still there make up what is to be sent.
-/
structure Download.Sending (source : DownloadSource) (whole : List UInt8) (download : Download)
    (data : Bool)
    : Prop where
  remaining : ∀ fork,
    (download.remainingSize fork).toNat + download.position fork = (source.bytes fork).length
  finished : data = false → download.remainingDataSize = 0
  sent : download.sent ++ ((source.bytes .data).drop download.dataPosition
    ++ (source.bytes .rsrc).drop download.rsrcPosition) = whole
  covered : ∀ debit ∈ download.debits, debit.2 ≤ debit.1

section Rounds

variable {source : DownloadSource} {whole : List UInt8} {download : Download} {data : Bool}

/-- What is read from a fork is what comes next in it, and no more than what remains. -/
theorem Download.Sending.read (sending : download.Sending source whole data) {fork : Fork}
    {round : DownloadRound} {bytes : List UInt8}
    (read : source.read download fork round = some bytes)
    : (∃ limit, round.reads = some limit
        ∧ bytes.length = min (min limit transferBufferSize) (download.remainingSize fork).toNat)
      ∧ (source.bytes fork).drop (download.position fork)
        = bytes ++ (source.bytes fork).drop (download.position fork + bytes.length) := by
  unfold DownloadSource.read at read
  split at read
  · cases read
  · obtain ⟨limit, reads, rfl⟩ := Option.map_eq_some_iff.mp read
    have here := sending.remaining fork
    refine ⟨⟨limit, reads, ?_⟩, ?_⟩
    · rw [List.length_take, List.length_drop]
      omega
    · rw [← List.drop_drop]
      obtain ⟨rest, split⟩ := List.take_prefix (min limit transferBufferSize)
        ((source.bytes fork).drop (download.position fork))
      generalize (source.bytes fork).drop (download.position fork) = ahead at split ⊢
      generalize ahead.take (min limit transferBufferSize) = bytes at split ⊢
      rw [← split, List.drop_left]

/-- All that is read is sent. -/
theorem Download.Sending.toNat_sendBytes (sending : download.Sending source whole data)
    {fork : Fork} {round : DownloadRound} {bytes : List UInt8}
    (read : source.read download fork round = some bytes)
    : (download.sendBytes fork bytes).toNat = bytes.length
      ∧ bytes.length ≤ (download.remainingSize fork).toNat := by
  obtain ⟨⟨limit, -, length⟩, -⟩ := sending.read read
  have below := (download.remainingSize fork).toNat_lt
  have exact : (UInt64.ofNat bytes.length).toNat = bytes.length :=
    UInt64.toNat_ofNat_of_lt' (by change bytes.length < 2 ^ 64; omega)
  have enough : ¬download.remainingSize fork < .ofNat bytes.length := by
    rw [UInt64.lt_iff_toNat_lt, exact]
    omega
  rw [sendBytes, if_neg enough]
  exact ⟨exact, by omega⟩

/-- A round that sends keeps the counters, and takes what it sends from what remains of its fork. -/
theorem Download.Sending.count (sending : download.Sending source whole data) {fork : Fork}
    (next : download.nextFork data = some fork) {round : DownloadRound} {bytes : List UInt8}
    (read : source.read download fork round = some bytes)
    : (download.count fork bytes round.notes).Sending source whole (fork = .data)
      ∧ ∀ other, ((download.count fork bytes round.notes).remainingSize other).toNat
        = if other = fork then (download.remainingSize fork).toNat - bytes.length
          else (download.remainingSize other).toNat := by
  obtain ⟨-, split⟩ := sending.read read
  obtain ⟨length, enough⟩ := sending.toNat_sendBytes read
  have covers : download.sendBytes fork bytes ≤ download.remainingSize fork := by
    rw [UInt64.le_iff_toNat_le, length]
    exact enough
  have less : (download.remainingSize fork - download.sendBytes fork bytes).toNat
      = (download.remainingSize fork).toNat - bytes.length := by
    rw [UInt64.toNat_sub_of_le _ _ covers, length]
  have covered : ∀ debit ∈ download.debits
      ++ [(download.remainingSize fork, download.sendBytes fork bytes)], debit.2 ≤ debit.1 := by
    intro debit member
    rcases List.mem_append.mp member with old | new
    · exact sending.covered debit old
    · rw [List.mem_singleton.mp new]
      exact covers
  have all : bytes.take (download.sendBytes fork bytes).toNat = bytes := by
    rw [length, List.take_length]
  cases fork with
  | data =>
      have here := sending.remaining .data
      have there := sending.remaining .rsrc
      refine ⟨⟨fun other => ?_, nofun, ?_, covered⟩, fun other => ?_⟩
      · cases other with
        | data =>
            change (download.remainingSize .data - download.sendBytes .data bytes).toNat
              + (download.position .data + bytes.length) = _
            omega
        | rsrc => exact there
      · change download.sent ++ bytes.take _ ++ _ = whole
        rw [all, ← sending.sent]
        change _ = download.sent ++ ((source.bytes .data).drop (download.position .data) ++ _)
        rw [split, List.append_assoc, List.append_assoc]
        rfl
      · cases other with
        | data => exact less
        | rsrc => rfl
  | rsrc =>
      have here := sending.remaining .data
      have there := sending.remaining .rsrc
      have none : download.remainingDataSize = 0 := by
        by_contra some
        cases data with
        | false => exact some (sending.finished rfl)
        | true => simp [nextFork, some] at next
      have ended : (source.bytes .data).drop download.dataPosition = [] := by
        apply List.drop_eq_nil_of_le
        change (download.remainingDataSize).toNat + download.dataPosition = _ at here
        rw [none] at here
        change 0 + download.dataPosition = _ at here
        omega
      refine ⟨⟨fun other => ?_, fun _ => none, ?_, covered⟩, fun other => ?_⟩
      · cases other with
        | data => exact here
        | rsrc =>
            change (download.remainingSize .rsrc - download.sendBytes .rsrc bytes).toNat
              + (download.position .rsrc + bytes.length) = _
            omega
      · change download.sent ++ bytes.take _ ++ ((source.bytes .data).drop download.dataPosition
          ++ (source.bytes .rsrc).drop (download.position .rsrc + bytes.length)) = whole
        rw [all, ← sending.sent, ended]
        change _ = download.sent ++ ([] ++ (source.bytes .rsrc).drop (download.position .rsrc))
        rw [split, List.nil_append, List.nil_append, List.append_assoc]
      · cases other with
        | data => rfl
        | rsrc => exact less

-----------------------------------------------------------------------------------------
-- The whole loop
-----------------------------------------------------------------------------------------

/-- The next round is for the data fork while something of it remains, then for the other. -/
theorem Download.Sending.nextFork (sending : download.Sending source whole data)
    : download.nextFork data
      = if (download.remainingSize .data).toNat ≠ 0 then some .data
        else if (download.remainingSize .rsrc).toNat = 0 then none
        else some .rsrc := by
  have zero (fork : Fork) : download.remainingSize fork = 0
      ↔ (download.remainingSize fork).toNat = 0 := by
    rw [← UInt64.toNat_inj]
    rfl
  have dataZero : download.remainingDataSize = 0 ↔ _ := zero .data
  have rsrcZero : download.remainingRsrcSize = 0 ↔ _ := zero .rsrc
  rw [Download.nextFork]
  cases data with
  | true => by_cases ended : (download.remainingSize .data).toNat = 0 <;> simp [dataZero, rsrcZero, ended]
  | false => simp [rsrcZero, dataZero.mp (sending.finished rfl)]

/-- While something remains there is a next round, and it is for the resource fork only when nothing
remains of the other.
-/
theorem Download.Sending.exists_nextFork (sending : download.Sending source whole data)
    (some : ¬∀ fork, (download.remainingSize fork).toNat = 0)
    : ∃ fork, download.nextFork data = .some fork ∧ (download.remainingSize fork).toNat ≠ 0
      ∧ (fork = .rsrc → (download.remainingSize .data).toNat = 0) := by
  rw [sending.nextFork]
  by_cases ended : (download.remainingSize .data).toNat = 0
  · have more : (download.remainingSize .rsrc).toNat ≠ 0 := fun none =>
      some fun fork => by cases fork <;> assumption
    exact ⟨.rsrc, by rw [if_neg (not_not.mpr ended), if_neg more], more, fun _ => ended⟩
  · exact ⟨.data, if_pos ended, ended, nofun⟩

/-- Reading fails when the call does, or when the resource fork is not open. -/
theorem DownloadSource.read_eq_none {fork : Fork} {round : DownloadRound}
    : source.read download fork round = none
      ↔ (fork = .rsrc ∧ download.rsrcOpen = false) ∨ round.reads = none := by
  unfold DownloadSource.read
  split
  · rename_i closed
    exact iff_of_true rfl (.inl closed)
  · rename_i opened
    rw [Option.map_eq_none_iff]
    exact ⟨.inr, fun fails => fails.resolve_left opened⟩

/-- Bytes of a resource fork come from an open one. -/
theorem DownloadSource.open_of_read {round : DownloadRound} {bytes : List UInt8}
    (read : source.read download .rsrc round = some bytes)
    : download.rsrcOpen = true := by
  by_contra closed
  rw [read_eq_none.mpr (.inl ⟨rfl, Bool.eq_false_iff.mpr closed⟩)] at read
  cases read

/-- What an ended loop has done: it took nothing away that was not there, its result stands for what
remains exactly when the session did not end early, and if all went well everything is sent.
-/
structure EndsRight (whole : List UInt8) (early opens succeeds : Bool) (ended : Download × Bool)
    : Prop where
  covered : ∀ debit ∈ ended.1.debits, debit.2 ≤ debit.1
  finished : (ended.2 = true → ended.1.remainingDataSize = 0 ∧ ended.1.remainingRsrcSize = 0)
    ↔ early = false
  sends : succeeds = true → opens = true → early = false → ended.1.sent = whole

/-- A loop that ends with nothing remaining. -/
theorem Download.Sending.endsRight_finished (sending : download.Sending source whole data)
    (none : ∀ fork, (download.remainingSize fork).toNat = 0) {early opens succeeds : Bool}
    (late : early = false)
    : EndsRight whole early opens succeeds (download, true) where
  covered := sending.covered
  finished := iff_of_true
    (fun _ => ⟨UInt64.toNat_inj.mp (none .data), UInt64.toNat_inj.mp (none .rsrc)⟩) late
  sends _ _ _ := by
    have ended (fork : Fork) : (source.bytes fork).drop (download.position fork) = [] := by
      have here := sending.remaining fork
      rw [none, Nat.zero_add] at here
      exact List.drop_eq_nil_of_le (Nat.le_of_eq here.symm)
    have data : (source.bytes .data).drop download.dataPosition = [] := ended .data
    have rsrc : (source.bytes .rsrc).drop download.rsrcPosition = [] := ended .rsrc
    rw [← sending.sent, data, rsrc, List.append_nil, List.append_nil]

/-- A loop that ends because a call failed. -/
theorem Download.Sending.endsRight_failed (sending : download.Sending source whole data)
    {early opens succeeds : Bool} (late : early = false) (fails : succeeds = true → opens = false)
    : EndsRight whole early opens succeeds (download, false) where
  covered := sending.covered
  finished := iff_of_true nofun late
  sends succeed open' _ := by
    rw [fails succeed] at open'
    cases open'

end Rounds

/-- A session does not end early when there is nothing to send. -/
theorem endsEarly_nothing (rsrcOpen : Bool) (rounds : List DownloadRound)
    : endsEarly rsrcOpen 0 0 rounds = false := by
  cases rounds with
  | nil => rfl
  | cons round rounds =>
      rw [endsEarly]
      cases round.reads <;> rfl

/-- Counting does not open or close a fork. -/
theorem Download.rsrcOpen_count (download : Download) (fork : Fork) (bytes : List UInt8)
    (notes : Bool)
    : (download.count fork bytes notes).rsrcOpen = download.rsrcOpen := by
  cases fork <;> rfl

/-- A loop with nothing to send ends at once. -/
theorem Download.Sending.endsRight_nothing {source : DownloadSource} {whole : List UInt8}
    {download : Download} {data : Bool} (sending : download.Sending source whole data)
    (none : ∀ fork, (download.remainingSize fork).toNat = 0) (rounds : List DownloadRound)
    (opens succeeds : Bool)
    : EndsRight whole
      (endsEarly download.rsrcOpen (download.remainingSize .data).toNat
        (download.remainingSize .rsrc).toNat rounds)
      opens succeeds (downloadLoop source data download rounds) := by
  have late : endsEarly download.rsrcOpen (download.remainingSize .data).toNat
      (download.remainingSize .rsrc).toNat rounds = false := by
    rw [none, none]
    exact endsEarly_nothing _ _
  have stops : downloadLoop source data download rounds = (download, true) := by
    cases rounds with
    | nil => rfl
    | cons round rounds => simp [downloadLoop, sending.nextFork, none]
  rw [stops]
  exact sending.endsRight_finished none late

/-- After a read, a round stops the loop exactly when another call fails. -/
theorem DownloadRound.stops_iff (round : DownloadRound) {limit : ℕ}
    (reads : round.reads = some limit)
    : (decide (round.wait ≠ .ready) || !round.writes) = true ↔ round.succeeds = false := by
  cases wait : round.wait <;> cases writes : round.writes <;> simp [succeeds, reads, wait, writes]

/-- A round in which a call fails, or in which the resource fork is not open, ends the loop. -/
theorem endsEarly_failed {rsrcOpen : Bool} {data rsrc : ℕ} {round : DownloadRound}
    {rounds : List DownloadRound}
    (fails : round.succeeds = false ∨ data = 0 ∧ rsrcOpen = false)
    : endsEarly rsrcOpen data rsrc (round :: rounds) = false := by
  rw [endsEarly]
  cases reads : round.reads with
  | none => rfl
  | some limit =>
      rcases fails with fails | ⟨rfl, rfl⟩
      · simp only [Bool.or_assoc, round.stops_iff reads |>.mpr fails, Bool.or_true, if_true]
      · simp

/-- A round in which all calls succeed takes what it reads from the fork that it is for. -/
theorem endsEarly_succeeded {rsrcOpen : Bool} {data rsrc : ℕ} {round : DownloadRound}
    {rounds : List DownloadRound} (succeeds : round.succeeds = true) {limit : ℕ}
    (reads : round.reads = some limit) (some : ¬(data = 0 ∧ rsrc = 0))
    (opens : data ≠ 0 ∨ rsrcOpen = true)
    : endsEarly rsrcOpen data rsrc (round :: rounds)
      = if data ≠ 0 then endsEarly rsrcOpen (data - min limit transferBufferSize) rsrc rounds
        else endsEarly rsrcOpen 0 (rsrc - min limit transferBufferSize) rounds := by
  have goesOn : (decide (round.wait ≠ .ready) || !round.writes) = false := by
    rw [← Bool.not_eq_true, round.stops_iff reads, succeeds]
    decide
  have sends : (decide (data = 0) && decide (rsrc = 0)) = false := by
    simpa using some
  rw [endsEarly, reads]
  simp only [Bool.or_assoc, goesOn, sends, Bool.or_false, Bool.false_eq_true, if_false]
  rcases opens with more | opens
  · rw [if_pos more, if_pos more]
  · rw [opens, Bool.true_and]

/-- The loop ends right, by induction on its rounds. -/
theorem downloadLoop_endsRight {source : DownloadSource} {whole : List UInt8}
    (rounds : List DownloadRound) {download : Download} {data : Bool}
    (sending : download.Sending source whole data)
    : EndsRight whole
      (endsEarly download.rsrcOpen (download.remainingSize .data).toNat
        (download.remainingSize .rsrc).toNat rounds)
      (download.rsrcOpen || (download.remainingSize .rsrc).toNat = 0)
      (rounds.all DownloadRound.succeeds) (downloadLoop source data download rounds) := by
  induction rounds generalizing download data with
  | nil =>
      by_cases none : ∀ fork, (download.remainingSize fork).toNat = 0
      · exact sending.endsRight_nothing none [] _ _
      · have early : endsEarly download.rsrcOpen (download.remainingSize .data).toNat
            (download.remainingSize .rsrc).toNat [] = true := by
          by_contra late
          simp only [endsEarly, Bool.or_eq_true, decide_eq_true_eq, not_or, not_not] at late
          exact none fun fork => by cases fork <;> simp [late]
        refine ⟨sending.covered, ?_, fun _ _ late => ?_⟩
        · refine iff_of_false (fun finished => none fun fork => ?_) (by rw [early]; decide)
          obtain ⟨dataZero, rsrcZero⟩ := finished rfl
          cases fork with
          | data => exact congrArg UInt64.toNat dataZero
          | rsrc => exact congrArg UInt64.toNat rsrcZero
        · rw [early] at late
          cases late
  | cons round rounds ih =>
      by_cases none : ∀ fork, (download.remainingSize fork).toNat = 0
      · exact sending.endsRight_nothing none _ _ _
      obtain ⟨fork, next, more, order⟩ := sending.exists_nextFork none
      simp only [downloadLoop, next]
      cases read : source.read download fork round with
      | none =>
          rcases DownloadSource.read_eq_none.mp read with ⟨rfl, closed⟩ | fails
          · refine sending.endsRight_failed (endsEarly_failed (.inr ⟨order rfl, closed⟩)) fun _ => ?_
            simp [closed, more]
          · have failed : round.succeeds = false := by simp [DownloadRound.succeeds, fails]
            refine sending.endsRight_failed (endsEarly_failed (.inl failed)) fun succeed => ?_
            rw [List.all_cons, failed] at succeed
            cases succeed
      | some bytes =>
          obtain ⟨⟨limit, reads, length⟩, -⟩ := sending.read read
          have some : bytes ≠ [] := by
            have positive := round.reads_pos limit reads
            have buffer : 0 < transferBufferSize := by decide
            rw [← List.length_pos_iff, length]
            omega
          have opens : (download.remainingSize .data).toNat ≠ 0 ∨ download.rsrcOpen = true := by
            cases fork with
            | data => exact .inl more
            | rsrc => exact .inr (DownloadSource.open_of_read read)
          simp only [some, decide_false, Bool.false_or]
          cases succeeds : round.succeeds with
          | false =>
              rw [if_pos (round.stops_iff reads |>.mpr succeeds)]
              refine sending.endsRight_failed (endsEarly_failed (.inl succeeds)) fun succeed => ?_
              rw [List.all_cons, succeeds] at succeed
              cases succeed
          | true =>
              have goesOn : ¬(decide (round.wait ≠ .ready) || !round.writes) = true := by
                rw [round.stops_iff reads, succeeds]
                decide
              obtain ⟨sending', remaining⟩ := sending.count next read
              have rest := ih sending'
              have dataLeft := remaining .data
              have rsrcLeft := remaining .rsrc
              have both : ¬((download.remainingSize .data).toNat = 0
                  ∧ (download.remainingSize .rsrc).toNat = 0) := fun zero =>
                none fun fork => by cases fork <;> simp [zero]
              rw [if_neg goesOn, List.all_cons, succeeds, Bool.true_and,
                endsEarly_succeeded succeeds reads both opens]
              rw [Download.rsrcOpen_count, dataLeft, rsrcLeft] at rest
              cases fork with
              | data =>
                  have less : (download.remainingSize .data).toNat - bytes.length
                      = (download.remainingSize .data).toNat - min limit transferBufferSize := by
                    omega
                  simp only [if_true, reduceCtorEq, if_false, less] at rest
                  rw [if_pos more]
                  exact rest
              | rsrc =>
                  have less : (download.remainingSize .rsrc).toNat - bytes.length
                      = (download.remainingSize .rsrc).toNat - min limit transferBufferSize := by
                    omega
                  have opened := DownloadSource.open_of_read read
                  simp only [if_true, reduceCtorEq, if_false, less, order rfl, opened,
                    Bool.true_or] at rest
                  rw [if_neg (not_not.mpr (order rfl)), opened, Bool.true_or]
                  exact rest

-----------------------------------------------------------------------------------------
-- The whole download
-----------------------------------------------------------------------------------------

/-- Subtractions are never forgotten, by induction on the rounds. -/
theorem downloadLoop_debits (source : DownloadSource) (rounds : List DownloadRound) (data : Bool)
    (download : Download)
    : download.debits ⊆ (downloadLoop source data download rounds).1.debits := by
  induction rounds generalizing data download with
  | nil => exact List.Subset.refl _
  | cons round rounds ih =>
      simp only [downloadLoop]
      cases download.nextFork data with
      | none => exact List.Subset.refl _
      | some fork =>
          simp only
          cases source.read download fork round with
          | none => exact List.Subset.refl _
          | some bytes =>
              simp only
              split
              · exact List.Subset.refl _
              · apply List.Subset.trans _ (ih _ _)
                cases fork <;> exact List.subset_append_left _ _

section Downloads

variable {source : DownloadSource} {dataOffset rsrcOffset : UInt64}

/-- A transfer is made unless the download is refused. -/
theorem downloadTransfer_eq_some_iff {transfer : Download}
    : downloadTransfer source dataOffset rsrcOffset = some transfer
      ↔ ¬source.Refuses dataOffset rsrcOffset ∧ source.download dataOffset rsrcOffset = transfer := by
  have refuses : source.Refuses dataOffset rsrcOffset
      ↔ (source.data.isSome && source.dataOpens) = false ∨ seeks dataOffset = false
        ∨ (source.rsrcOpen && !seeks rsrcOffset) = true := Iff.rfl
  rw [refuses, downloadTransfer]
  cases (source.data.isSome && source.dataOpens)
    <;> cases seeks dataOffset <;> cases (source.rsrcOpen && !seeks rsrcOffset) <;> simp

/-- The offsets are inside their forks. -/
def DownloadSource.Reaches (source : DownloadSource) (dataOffset rsrcOffset : UInt64) : Prop :=
  dataOffset.toNat ≤ (source.bytes .data).length ∧ rsrcOffset.toNat ≤ (source.bytes .rsrc).length

instance (source : DownloadSource) (dataOffset rsrcOffset : UInt64)
    : Decidable (source.Reaches dataOffset rsrcOffset) :=
  inferInstanceAs (Decidable (_ ∧ _))

/-- The first subtractions are covered exactly when the offsets are inside their forks. -/
theorem DownloadSource.covered_iff
    : (∀ debit ∈ (source.download dataOffset rsrcOffset).debits, debit.2 ≤ debit.1)
      ↔ source.Reaches dataOffset rsrcOffset := by
  simp only [DownloadSource.download, List.forall_mem_cons, UInt64.le_iff_toNat_le, source.toNat_size]
  exact ⟨fun covered => ⟨covered.1, covered.2.1⟩, fun reaches => ⟨reaches.1, reaches.2, nofun⟩⟩

/-- What remains at first, when the offsets are inside their forks. -/
theorem DownloadSource.Reaches.remaining (reaches : source.Reaches dataOffset rsrcOffset)
    : (source.download dataOffset rsrcOffset).remainingDataSize.toNat
        = (source.bytes .data).length - dataOffset.toNat
      ∧ (source.download dataOffset rsrcOffset).remainingRsrcSize.toNat
        = (source.bytes .rsrc).length - rsrcOffset.toNat := by
  have data : dataOffset ≤ source.size .data := by
    rw [UInt64.le_iff_toNat_le, source.toNat_size]
    exact reaches.1
  have rsrc : rsrcOffset ≤ source.size .rsrc := by
    rw [UInt64.le_iff_toNat_le, source.toNat_size]
    exact reaches.2
  constructor
  · rw [DownloadSource.download, UInt64.toNat_sub_of_le _ _ data, source.toNat_size]
  · rw [DownloadSource.download, UInt64.toNat_sub_of_le _ _ rsrc, source.toNat_size]

/-- The loop starts with all that is behind the offsets still to be sent. -/
theorem DownloadSource.Reaches.sending (reaches : source.Reaches dataOffset rsrcOffset)
    : ((source.download dataOffset rsrcOffset).note .add).Sending source
      ((source.bytes .data).drop dataOffset.toNat ++ (source.bytes .rsrc).drop rsrcOffset.toNat)
      true := by
  obtain ⟨data, rsrc⟩ := reaches.remaining
  refine ⟨fun fork => ?_, nofun, rfl, DownloadSource.covered_iff.mpr reaches⟩
  have within := reaches
  cases fork with
  | data =>
      change (source.download dataOffset rsrcOffset).remainingDataSize.toNat + dataOffset.toNat = _
      have := within.1
      omega
  | rsrc =>
      change (source.download dataOffset rsrcOffset).remainingRsrcSize.toNat + rsrcOffset.toNat = _
      have := within.2
      omega

/-- A download is refused or sends exactly what is behind the offsets, for a run of its loop, exactly when
it is refused, or the offsets are inside the forks and the session does not end early.
-/
theorem sendsExactly_iff (source : DownloadSource) (dataOffset rsrcOffset : UInt64) (replies : Bool)
    (rounds : List DownloadRound)
    : (∀ transfer, downloadTransfer source dataOffset rsrcOffset = some transfer →
        SendsExactly source dataOffset rsrcOffset replies rounds transfer)
      ↔ source.Refuses dataOffset rsrcOffset
        ∨ source.Reaches dataOffset rsrcOffset
          ∧ (replies = true → endsEarly source.rsrcOpen
            ((source.bytes .data).length - dataOffset.toNat)
            ((source.bytes .rsrc).length - rsrcOffset.toNat) rounds = false) := by
  constructor
  · intro always
    by_cases refuses : source.Refuses dataOffset rsrcOffset
    · exact .inl refuses
    · right
      have sends := always _ (downloadTransfer_eq_some_iff.mpr ⟨refuses, rfl⟩)
      have reaches : source.Reaches dataOffset rsrcOffset := by
        apply DownloadSource.covered_iff.mp
        intro debit member
        apply sends.covered
        cases replies with
        | false => exact member
        | true => exact downloadLoop_debits source rounds true _ member
      refine ⟨reaches, fun replied => ?_⟩
      subst replied
      obtain ⟨data, rsrc⟩ := reaches.remaining
      have ends := (downloadLoop_endsRight rounds reaches.sending).finished
      change _ ↔ endsEarly source.rsrcOpen
        (source.download dataOffset rsrcOffset).remainingDataSize.toNat
        (source.download dataOffset rsrcOffset).remainingRsrcSize.toNat rounds = false at ends
      rw [data, rsrc] at ends
      exact ends.mp sends.finished
  · rintro (refuses | ⟨reaches, late⟩) transfer started
    · exact absurd refuses (downloadTransfer_eq_some_iff.mp started).1
    · obtain ⟨-, rfl⟩ := downloadTransfer_eq_some_iff.mp started
      obtain ⟨data, rsrc⟩ := reaches.remaining
      cases replies with
      | false =>
          exact ⟨DownloadSource.covered_iff.mpr reaches, nofun, nofun, nofun⟩
      | true =>
          have ends := downloadLoop_endsRight rounds reaches.sending
          change EndsRight _ (endsEarly source.rsrcOpen
            (source.download dataOffset rsrcOffset).remainingDataSize.toNat
            (source.download dataOffset rsrcOffset).remainingRsrcSize.toNat rounds)
            (source.rsrcOpen
              || (source.download dataOffset rsrcOffset).remainingRsrcSize.toNat = 0) _ _ at ends
          rw [data, rsrc] at ends
          refine ⟨ends.covered, ?_, fun _ succeed opens => ?_, ends.finished.mpr (late rfl)⟩
          · intro sizes same
            obtain rfl := Option.some.inj same
            exact ⟨data, rsrc⟩
          · refine ends.sends (List.all_eq_true.mpr succeed) ?_ (late rfl)
            rcases opens with opens | short
            · rw [opens, Bool.true_or]
            · simp [Nat.sub_eq_zero_of_le short]

/-- A file of three bytes without a resource fork. -/
def threeBytes : DownloadSource where
  data := some [1, 2, 3]
  rsrc := none
  dataOpens := true
  rsrcOpens := false
  rsrcSupported := false
  data_lt := by
    rintro bytes same
    cases same
    decide
  rsrc_lt := nofun

/-- An offset behind the end of a file goes below zero, and a session that ends before the first round
leaves all three bytes unsent though the result is true.
-/
theorem not_sendsExactly_threeBytes
    : ¬(∀ transfer, downloadTransfer threeBytes 5 0 = some transfer →
        SendsExactly threeBytes 5 0 true [] transfer)
      ∧ ¬(∀ transfer, downloadTransfer threeBytes 0 0 = some transfer →
        SendsExactly threeBytes 0 0 true [] transfer) := by
  constructor
  · intro always
    have sends := always (threeBytes.download 5 0) (by decide +kernel)
    have covered := sends.covered (3, 5) (by decide)
    exact absurd covered (by decide)
  · intro always
    have sends := always (threeBytes.download 0 0) (by decide +kernel)
    obtain ⟨none, -⟩ := sends.finished (by decide)
    exact absurd none (by decide)

end Downloads

end WiredServer.Transfers
