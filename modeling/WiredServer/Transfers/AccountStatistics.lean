import WiredServer.Lib.Binary64
import WiredServer.Transfers.TransferStatistics

/-! The statistics of accounts. The bytes of a transfer are bound to the database statement as a number
of 32 bits, and the database adds them to a column of 64 bits.
-/

namespace WiredServer.Transfers

-----------------------------------------------------------------------------------------
-- Columns
-----------------------------------------------------------------------------------------

/-- What a column of type `INTEGER` holds: an integer, or a real that is none. -/
inductive Column where
  | integer (value : Int64)
  | real (value : Binary64.Value)

namespace Column

/-- A real as such a column stores it. -/
def ofReal : Binary64.Value → Column
  | .finite negative magnitude =>
      let number := Binary64.Value.number negative magnitude
      if number.den = 1 ∧ -2 ^ 63 < number ∧ number < 2 ^ 63 - 1 then
        .integer (Int64.ofInt number.num)
      else .real (.finite negative magnitude)
  | other => .real other

/-- `SET column = column + ?`: a sum that does not fit an integer is a real. -/
def add (column : Column) (number : Int32) : Column :=
  match column with
  | .integer value =>
      let sum := value.toInt + number.toInt
      if -2 ^ 63 ≤ sum ∧ sum < 2 ^ 63 then .integer (Int64.ofInt sum)
      else .ofReal ((Binary64.Value.ofNumber value.toInt).add (.ofNumber number.toInt))
  | .real value => .ofReal (value.add (.ofNumber number.toInt))

/-- A column holds an integer. -/
def Is (column : Column) (number : ℤ) : Prop :=
  ∃ value, column = .integer value ∧ value.toInt = number

end Column

-----------------------------------------------------------------------------------------
-- The table of users
-----------------------------------------------------------------------------------------

/-- The columns `downloads` and `download_transferred` of a user, or their siblings for uploads. -/
structure TypeCounters where
  completed : Column
  transferred : Column

/-- The columns of a user that count transfers. -/
structure AccountCounters where
  downloads : TypeCounters
  uploads : TypeCounters

/-- The columns for a type of transfers. -/
def AccountCounters.of (counters : AccountCounters) : TransferType → TypeCounters
  | .download => counters.downloads
  | .upload => counters.uploads

/-- A change of the columns for a type of transfers. -/
def AccountCounters.change (counters : AccountCounters) (type : TransferType)
    (change : TypeCounters → TypeCounters)
    : AccountCounters :=
  match type with
  | .download => { counters with downloads := change counters.downloads }
  | .upload => { counters with uploads := change counters.uploads }

/-- `WI_INT32` of a number of bytes. -/
def int32 (bytes : UInt64) : Int32 :=
  .ofInt bytes.toNat

/-- What is added for a transfer. -/
def TypeCounters.add (counters : TypeCounters) (finished : Bool) (transferred : UInt64) : TypeCounters where
  completed := counters.completed.add (if finished then 1 else 0)
  transferred := counters.transferred.add (int32 transferred)

/-- The table `users`, whose primary key is the name. -/
abbrev Users :=
  String → Option AccountCounters

namespace Users

/-- The `UPDATE` of the columns for a type of transfers. -/
def addStatistics (users : Users) (type : TransferType) (account : String) (finished : Bool)
    (transferred : UInt64)
    : Users :=
  fun name =>
    if name = account then (users name).map (·.change type (·.add finished transferred))
    else users name

/-- `wd_accounts_add_download_statistics`. -/
def addDownloadStatistics (users : Users) (account : String) (finished : Bool)
    (transferred : UInt64)
    : Users :=
  users.addStatistics .download account finished transferred

/-- `wd_accounts_add_upload_statistics`. -/
def addUploadStatistics (users : Users) (account : String) (finished : Bool)
    (transferred : UInt64)
    : Users :=
  users.addStatistics .upload account finished transferred

end Users

-----------------------------------------------------------------------------------------
-- Transfers that have ended
-----------------------------------------------------------------------------------------

/-- A transfer from its start to its end: what it finds, what the client sends, and what happens in the
rounds of its loop. There is no message for an upload when it did not arrive.
-/
inductive TransferRun where
  | download (source : DownloadSource) (dataOffset rsrcOffset : UInt64) (replies : Bool)
      (rounds : List DownloadRound)
  | upload (target : Target) (dataSize rsrcSize : UInt64) (message : Option UploadMessage)
      (rounds : List UploadRound)

namespace TransferRun

/-- The type of a transfer. -/
def type : TransferRun → TransferType
  | .download .. => .download
  | .upload .. => .upload

/-- The field `actualtransferred` at the end. -/
def actualTransferred : TransferRun → UInt64
  | .download source dataOffset rsrcOffset replies rounds =>
      (runDownload source (source.download dataOffset rsrcOffset) replies
        rounds).transfer.actualTransferred
  | .upload target dataSize rsrcSize none _ => (target.upload dataSize rsrcSize).actualTransferred
  | .upload target dataSize rsrcSize (some message) rounds =>
      (transferUpload ((target.upload dataSize rsrcSize).expect message)
        rounds).1.upload.actualTransferred

/-- What is added to the statistics of the account at the end, if the loop was reached. -/
def statistics : TransferRun → Option (Bool × UInt64)
  | .download source dataOffset rsrcOffset replies rounds =>
      (runDownload source (source.download dataOffset rsrcOffset) replies rounds).statistics
  | .upload _ _ _ none _ => none
  | .upload target dataSize rsrcSize (some message) rounds =>
      let upload := (transferUpload ((target.upload dataSize rsrcSize).expect message)
        rounds).1.upload
      some (upload.transferred = upload.dataSize + upload.rsrcSize, upload.actualTransferred)

/-- Whether the transfer has reached the end of its file. -/
def completed (run : TransferRun) : Bool :=
  run.statistics.any (·.1)

/-- What is added to the statistics is what was transferred. -/
theorem statistics_transferred (run : TransferRun)
    : (run.statistics.map (·.2)).getD 0 = run.actualTransferred := by
  cases run with
  | download source dataOffset rsrcOffset replies rounds => cases replies <;> rfl
  | upload target dataSize rsrcSize message rounds => cases message <;> rfl

end TransferRun

/-- The end of a transfer of an account. -/
def Users.finish (users : Users) (ended : String × TransferRun) : Users :=
  match ended.2.statistics with
  | none => users
  | some (finished, transferred) =>
      match ended.2.type with
      | .download => users.addDownloadStatistics ended.1 finished transferred
      | .upload => users.addUploadStatistics ended.1 finished transferred

/-- The transfers of a type and an account, in the order in which they ended. -/
def runsOf (account : String) (type : TransferType) (ended : List (String × TransferRun))
    : List TransferRun :=
  (ended.filter fun one => one.1 = account && one.2.type = type).map (·.2)

/-- The number of completed transfers. -/
def completedOf (runs : List TransferRun) : ℕ :=
  runs.countP TransferRun.completed

/-- The sum of what was transferred. -/
def transferredOf (runs : List TransferRun) : ℕ :=
  (runs.map (·.actualTransferred.toNat)).sum

/-- The columns of an account hold these numbers. -/
structure AccountCounters.Holds (counters : AccountCounters) (completed transferred : TransferType → ℕ)
    : Prop where
  completed : ∀ type, (counters.of type).completed.Is (completed type)
  transferred : ∀ type, (counters.of type).transferred.Is (transferred type)

-----------------------------------------------------------------------------------------
-- Sums
-----------------------------------------------------------------------------------------

namespace Column

/-- An integer that fits is added exactly. -/
theorem Is.add {column : Column} {start : ℤ} (is : column.Is start) (number : Int32)
    (fits : -2 ^ 63 ≤ start + number.toInt ∧ start + number.toInt < 2 ^ 63)
    : (column.add number).Is (start + number.toInt) := by
  obtain ⟨value, rfl, rfl⟩ := is
  refine ⟨Int64.ofInt (value.toInt + number.toInt), ?_, ?_⟩
  · exact if_pos fits
  · exact Int64.toInt_ofInt_of_le fits.1 fits.2

/-- A column that holds an integer holds one of 64 bits. -/
theorem Is.lt {column : Column} {number : ℤ} (is : column.Is number) : number < 2 ^ 63 := by
  obtain ⟨value, -, rfl⟩ := is
  exact value.toInt_lt

/-- A column holds one integer. -/
theorem Is.unique {column : Column} {number number' : ℤ} (is : column.Is number)
    (is' : column.Is number')
    : number = number' := by
  obtain ⟨value, rfl, rfl⟩ := is
  obtain ⟨_, same, rfl⟩ := is'
  cases same
  rfl

/-- The numbers that are to be added are the ones in the statements, or larger. -/
def Bounds (numbers : List (Int32 × ℕ)) : Prop :=
  ∀ number ∈ numbers, |number.1.toInt| ≤ number.2

/-- As long as the exact sum fits, the column holds the sum of the numbers in the statements, by induction
on the statements.
-/
theorem foldl_add {numbers : List (Int32 × ℕ)} (bounds : Bounds numbers) {column : Column}
    {start : ℤ} (is : column.Is start)
    (fits : |start| + ((numbers.map (·.2)).sum : ℕ) < 2 ^ 63)
    : (numbers.foldl (fun column number => column.add number.1) column).Is
        (start + (numbers.map (·.1.toInt)).sum) := by
  induction numbers generalizing column start with
  | nil => simpa using is
  | cons number numbers ih =>
      have bound := bounds number List.mem_cons_self
      simp only [List.map_cons, List.sum_cons, Nat.cast_add] at fits
      have triangle := abs_add_le start number.1.toInt
      have next := is.add number.1 (abs_lt.mp (by omega : |start + number.1.toInt| < 2 ^ 63) |>.imp
        le_of_lt id)
      have rest := ih (fun other mem => bounds other (List.mem_cons_of_mem _ mem)) next (by omega)
      rw [List.foldl_cons, List.map_cons, List.sum_cons, ← Int.add_assoc]
      exact rest

/-- The sum of numbers is not above that of their bounds. -/
theorem Bounds.sum_le {numbers : List (Int32 × ℕ)} (bounds : Bounds numbers)
    : (numbers.map (·.1.toInt)).sum ≤ ((numbers.map (·.2)).sum : ℕ) := by
  induction numbers with
  | nil => simp
  | cons number numbers ih =>
      have bound := le_of_abs_le (bounds number List.mem_cons_self)
      have rest := ih fun other mem => bounds other (List.mem_cons_of_mem _ mem)
      simp only [List.map_cons, List.sum_cons, Nat.cast_add]
      omega

/-- Numbers with bounds that have the same sum are their bounds. -/
theorem Bounds.eq_of_sum {numbers : List (Int32 × ℕ)} (bounds : Bounds numbers)
    (same : (numbers.map (·.1.toInt)).sum = ((numbers.map (·.2)).sum : ℕ))
    : ∀ number ∈ numbers, number.1.toInt = number.2 := by
  induction numbers with
  | nil => simp
  | cons number numbers ih =>
      have others : Bounds numbers := fun other mem => bounds other (List.mem_cons_of_mem _ mem)
      have bound := le_of_abs_le (bounds number List.mem_cons_self)
      have rest := others.sum_le
      simp only [List.map_cons, List.sum_cons, Nat.cast_add] at same
      intro other mem
      rcases List.mem_cons.mp mem with rfl | mem
      · omega
      · exact ih others (by omega) other mem

/-- A column ends with the exact sum just when all statements have the exact numbers and the sum fits. -/
theorem foldl_add_iff {numbers : List (Int32 × ℕ)} (bounds : Bounds numbers) {column : Column}
    {start : ℕ} (is : column.Is start)
    : (numbers.foldl (fun column number => column.add number.1) column).Is
        ((start + (numbers.map (·.2)).sum : ℕ) : ℤ)
      ↔ (∀ number ∈ numbers, number.1.toInt = number.2)
        ∧ start + (numbers.map (·.2)).sum < 2 ^ 63 := by
  constructor
  · intro exact
    have fits := exact.lt
    have sums := (foldl_add bounds is (by rw [Nat.abs_cast]; omega)).unique exact
    exact ⟨bounds.eq_of_sum (by omega), by omega⟩
  · intro ⟨same, fits⟩
    have sums : (numbers.map (·.1.toInt)).sum = ((numbers.map (·.2)).sum : ℕ) := by
      rw [List.map_congr_left same, Nat.cast_list_sum, List.map_map]
      rfl
    have added := foldl_add bounds is (by rw [Nat.abs_cast]; omega)
    rwa [sums, ← Nat.cast_add] at added

end Column

-----------------------------------------------------------------------------------------
-- Many transfers
-----------------------------------------------------------------------------------------

/-- Truncation to 32 bits does not enlarge a number of bytes. -/
theorem abs_int32_le (bytes : UInt64) : |(int32 bytes).toInt| ≤ bytes.toNat := by
  rw [int32, Int32.toInt_ofInt, Int.bmod_def, abs_le]
  simp only [Int32.size]
  have nonneg : (0 : ℤ) ≤ (bytes.toNat : ℤ) := Int.natCast_nonneg _
  split <;> omega

/-- Truncation to 32 bits keeps a number of bytes just when it is below half of their range. -/
theorem int32_eq_iff (bytes : UInt64) : (int32 bytes).toInt = bytes.toNat ↔ bytes < 2 ^ 31 := by
  rw [int32, Int32.toInt_ofInt, Int.bmod_def, UInt64.lt_iff_toNat_lt]
  simp only [Int32.size, show (2 ^ 31 : UInt64).toNat = 2 ^ 31 from rfl]
  have nonneg : (0 : ℤ) ≤ (bytes.toNat : ℤ) := Int.natCast_nonneg _
  split <;> omega

/-- A change of the columns for a type leaves the others. -/
theorem AccountCounters.of_change (counters : AccountCounters) (type other : TransferType)
    (change : TypeCounters → TypeCounters)
    : (counters.change type change).of other
      = if type = other then change (counters.of other) else counters.of other := by
  cases type <;> cases other <;> rfl

/-- The statements of transfers of one type and account. -/
def statements (runs : List TransferRun) : List (Bool × UInt64) :=
  runs.filterMap TransferRun.statistics

/-- The end of a transfer changes the columns of its account and type. -/
theorem Users.finish_apply (users : Users) (ended : String × TransferRun) (account : String)
    (counters : AccountCounters) (stored : users account = some counters)
    : ∃ counters', users.finish ended account = some counters'
      ∧ ∀ type, counters'.of type = (statements (runsOf account type [ended])).foldl
          (fun counters statement => counters.add statement.1 statement.2) (counters.of type) := by
  obtain ⟨name, run⟩ := ended
  have updates (finished : Bool) (transferred : UInt64)
      (statistics : run.statistics = some (finished, transferred))
      : users.finish (name, run) = users.addStatistics run.type name finished transferred := by
    simp only [finish, statistics]
    cases run.type <;> rfl
  cases statistics : run.statistics with
  | none =>
      refine ⟨counters, by simpa only [finish, statistics] using stored, fun type => ?_⟩
      have none : statements (runsOf account type [(name, run)]) = [] := by
        simp only [statements, runsOf, List.filter_cons, List.filter_nil]
        split <;> simp [statistics]
      rw [none, List.foldl_nil]
  | some statement =>
      obtain ⟨finished, transferred⟩ := statement
      rw [updates finished transferred statistics, addStatistics]
      by_cases same : account = name
      · refine ⟨_, by rw [if_pos same, stored]; rfl, fun type => ?_⟩
        rw [AccountCounters.of_change]
        by_cases ofType : run.type = type
        · simp [statements, runsOf, same, ofType, statistics]
        · simp [statements, runsOf, ofType]
      · refine ⟨counters, by rw [if_neg same, stored], fun type => ?_⟩
        simp [statements, runsOf, Ne.symm same]

/-- The columns of an account after many transfers, by induction on them. -/
theorem Users.foldl_finish (ended : List (String × TransferRun)) (users : Users) (account : String)
    (counters : AccountCounters) (stored : users account = some counters)
    : ∃ counters', ended.foldl Users.finish users account = some counters'
      ∧ ∀ type, counters'.of type = (statements (runsOf account type ended)).foldl
          (fun counters statement => counters.add statement.1 statement.2) (counters.of type) := by
  induction ended generalizing users counters with
  | nil => exact ⟨counters, stored, fun _ => rfl⟩
  | cons one ended ih =>
      obtain ⟨next, stored', steps⟩ := users.finish_apply one account counters stored
      obtain ⟨last, stored'', rest⟩ := ih (users.finish one) next stored'
      refine ⟨last, stored'', fun type => ?_⟩
      rw [rest, steps, ← List.foldl_append]
      simp only [statements, runsOf, ← List.filterMap_append, ← List.map_append,
        ← List.filter_append, List.singleton_append]

/-- The numbers of completed transfers in statements, with their bounds. -/
def completions (statements : List (Bool × UInt64)) : List (Int32 × ℕ) :=
  statements.map fun statement => (if statement.1 then 1 else 0, statement.1.toNat)

/-- The numbers of bytes in statements, with their bounds. -/
def byteNumbers (statements : List (Bool × UInt64)) : List (Int32 × ℕ) :=
  statements.map fun statement => (int32 statement.2, statement.2.toNat)

/-- A completed transfer counts as one. -/
theorem completions_exact (statements : List (Bool × UInt64))
    : ∀ number ∈ completions statements, number.1.toInt = number.2 := by
  intro number mem
  obtain ⟨⟨finished, transferred⟩, -, rfl⟩ := List.mem_map.mp mem
  cases finished <;> rfl

/-- The numbers of completed transfers are within their bounds. -/
theorem completions_bounds (statements : List (Bool × UInt64))
    : Column.Bounds (completions statements) := by
  intro number mem
  rw [completions_exact statements number mem, Nat.abs_cast]

/-- The numbers of bytes are within their bounds. -/
theorem bytes_bounds (statements : List (Bool × UInt64)) : Column.Bounds (byteNumbers statements) := by
  intro number mem
  obtain ⟨statement, -, rfl⟩ := List.mem_map.mp mem
  exact abs_int32_le statement.2

/-- Columns after statements. -/
theorem TypeCounters.foldl_add (statements : List (Bool × UInt64)) (counters : TypeCounters)
    : statements.foldl (fun counters statement => counters.add statement.1 statement.2) counters
      = { completed := (completions statements).foldl
            (fun column number => column.add number.1) counters.completed
          transferred := (byteNumbers statements).foldl
            (fun column number => column.add number.1) counters.transferred } := by
  induction statements generalizing counters with
  | nil => rfl
  | cons statement statements ih => rw [List.foldl_cons, ih]; rfl

/-- The statements for a transfer and others after it. -/
theorem statements_cons (run : TransferRun) (runs : List TransferRun)
    : statements (run :: runs) = run.statistics.toList ++ statements runs := by
  cases statistics : run.statistics <;> simp [statements, statistics]

/-- The completed transfers are those that the statements count. -/
theorem sum_completions (runs : List TransferRun)
    : ((completions (statements runs)).map (·.2)).sum = completedOf runs := by
  induction runs with
  | nil => rfl
  | cons run runs ih =>
      rw [completedOf, List.countP_cons, ← completedOf, ← ih, statements_cons]
      cases statistics : run.statistics with
      | none => simp [TransferRun.completed, statistics]
      | some statement =>
          obtain ⟨finished, transferred⟩ := statement
          cases finished <;> simp [completions, TransferRun.completed, statistics, Nat.add_comm]

/-- The bytes that were transferred are those that the statements count. -/
theorem sum_bytes (runs : List TransferRun)
    : ((byteNumbers (statements runs)).map (·.2)).sum = transferredOf runs := by
  induction runs with
  | nil => rfl
  | cons run runs ih =>
      have counted := run.statistics_transferred
      rw [transferredOf, List.map_cons, List.sum_cons, ← transferredOf, ← ih, statements_cons,
        ← counted]
      cases run.statistics <;> simp [byteNumbers]

/-- All numbers of bytes in the statements of transfers are below a limit just when all transfers stay
below it.
-/
theorem forall_bytes_iff (runs : List TransferRun)
    : (∀ number ∈ byteNumbers (statements runs), number.1.toInt = number.2)
      ↔ ∀ run ∈ runs, run.actualTransferred < 2 ^ 31 := by
  simp only [byteNumbers, statements, List.mem_map, List.mem_filterMap, forall_exists_index, and_imp]
  constructor
  · intro exact run mem
    have counted := run.statistics_transferred
    cases statistics : run.statistics with
    | none =>
        rw [statistics] at counted
        rw [← counted]
        decide
    | some statement =>
        rw [statistics] at counted
        rw [← counted]
        exact (int32_eq_iff _).mp (exact _ statement run mem statistics rfl)
  · rintro small number statement run mem statistics rfl
    have counted := run.statistics_transferred
    rw [statistics] at counted
    rw [int32_eq_iff]
    exact lt_of_eq_of_lt counted (small run mem)

/-- The counters of an account in the database end increased by exactly the transfers that ended, in
whatever order, just when none of these transferred 2^31 bytes or more and the sums fit the columns.
-/
theorem holds_increased_iff (users : Users) (account : String) (counters : AccountCounters)
    (completed transferred : TransferType → ℕ) (stored : users account = some counters)
    (holds : counters.Holds completed transferred) (ended : List (String × TransferRun))
    : (∃ counters', ended.foldl Users.finish users account = some counters'
        ∧ counters'.Holds
            (fun type => completed type + completedOf (runsOf account type ended))
            (fun type => transferred type + transferredOf (runsOf account type ended)))
      ↔ ∀ type,
          (∀ run ∈ runsOf account type ended, run.actualTransferred < 2 ^ 31)
          ∧ completed type + completedOf (runsOf account type ended) < 2 ^ 63
          ∧ transferred type + transferredOf (runsOf account type ended) < 2 ^ 63 := by
  obtain ⟨counters', stored', steps⟩ := users.foldl_finish ended account counters stored
  simp only [TypeCounters.foldl_add] at steps
  have completions_iff (type : TransferType) := Column.foldl_add_iff
    (completions_bounds (statements (runsOf account type ended))) (holds.completed type)
  have bytes_iff (type : TransferType) := Column.foldl_add_iff
    (bytes_bounds (statements (runsOf account type ended))) (holds.transferred type)
  simp only [sum_completions, sum_bytes, forall_bytes_iff] at completions_iff bytes_iff
  constructor
  · rintro ⟨last, stored'', holds'⟩ type
    rw [stored'] at stored''
    cases stored''
    have exactCompletions := holds'.completed type
    have exactBytes := holds'.transferred type
    rw [steps] at exactCompletions exactBytes
    obtain ⟨small, sum⟩ := (bytes_iff type).mp exactBytes
    exact ⟨small, ((completions_iff type).mp exactCompletions).2, sum⟩
  · intro fits
    refine ⟨counters', stored', ⟨fun type => ?_, fun type => ?_⟩⟩
    · rw [steps]
      exact (completions_iff type).mpr ⟨completions_exact _, (fits type).2.1⟩
    · rw [steps]
      exact (bytes_iff type).mpr ⟨(fits type).1, (fits type).2.2⟩

-----------------------------------------------------------------------------------------
-- A large upload
-----------------------------------------------------------------------------------------

/-- A chunk of so many bytes that is written completely. -/
def writtenChunk (size : ℕ) (size_pos : 0 < size) (size_lt : size < 2 ^ 63) : Chunk where
  size
  written := size
  size_pos
  size_lt
  written_le := le_refl _

/-- An upload of 256 chunks of 8 MB. -/
def largeUpload : TransferRun :=
  .upload emptyTarget (2 ^ 31) 0 (some ⟨some (2 ^ 31), some 0⟩)
    (List.replicate 256 ⟨.ready, some (writtenChunk (2 ^ 23) (by decide) (by decide)), false⟩)

/-- An upload of a chunk of ten bytes. -/
def smallUpload : TransferRun :=
  .upload emptyTarget 10 0 (some ⟨some 10, some 0⟩) [⟨.ready, some wholeChunk, false⟩]

/-- The columns of a new account. -/
def newCounters : AccountCounters where
  downloads := ⟨.integer 0, .integer 0⟩
  uploads := ⟨.integer 0, .integer 0⟩

/-- The columns of a new account hold zeroes. -/
theorem newCounters_holds : newCounters.Holds (fun _ => 0) (fun _ => 0) where
  completed type := by cases type <;> exact ⟨0, rfl, rfl⟩
  transferred type := by cases type <;> exact ⟨0, rfl, rfl⟩

/-- A small upload is counted exactly. -/
theorem holds_increased_smallUpload
    : ∃ counters, [("guest", smallUpload)].foldl Users.finish (fun _ => some newCounters) "guest"
          = some counters
        ∧ counters.Holds
            (fun type => 0 + completedOf (runsOf "guest" type [("guest", smallUpload)]))
            (fun type => 0 + transferredOf (runsOf "guest" type [("guest", smallUpload)])) := by
  refine (holds_increased_iff (fun _ => some newCounters) "guest" newCounters _ _ rfl
    newCounters_holds [("guest", smallUpload)]).mpr fun type => ?_
  cases type <;> decide

/-- A large upload is counted below zero. -/
theorem not_holds_increased_largeUpload
    : ¬ ∃ counters, [("guest", largeUpload)].foldl Users.finish (fun _ => some newCounters) "guest"
          = some counters
        ∧ counters.Holds
            (fun type => 0 + completedOf (runsOf "guest" type [("guest", largeUpload)]))
            (fun type => 0 + transferredOf (runsOf "guest" type [("guest", largeUpload)])) := by
  rintro ⟨counters, stored, holds⟩
  have statistics : largeUpload.statistics = some (true, 2 ^ 31) := by decide +kernel
  have transferred : transferredOf (runsOf "guest" .upload [("guest", largeUpload)]) = 2 ^ 31 := by
    decide +kernel
  obtain ⟨last, stored', steps⟩ := Users.finish_apply (fun _ => some newCounters)
    ("guest", largeUpload) "guest" newCounters rfl
  rw [List.foldl_cons, List.foldl_nil, stored'] at stored
  cases stored
  obtain ⟨value, is, same⟩ := holds.transferred .upload
  have runs : statements (runsOf "guest" .upload [("guest", largeUpload)]) = [(true, 2 ^ 31)] := by
    rw [show runsOf "guest" .upload [("guest", largeUpload)] = [largeUpload] from rfl,
      statements_cons, statistics]
    rfl
  rw [steps, runs] at is
  cases is
  rw [transferred] at same
  exact absurd same (by decide)

end WiredServer.Transfers
