import WiredServer.Data.Formats
import WiredServer.Files.FileLines
import WiredServer.Lib.Binary32
import WiredServer.Lib.Machine
import WiredServer.Lib.Pieces
import WiredServer.Server.Banlist

/-! The log: a file that is cut back to its last lines now and then, and a list of the last messages in memory. -/

namespace WiredServer.Server

open Bytes Data Pieces

-----------------------------------------------------------------------------------------
-- Messages
-----------------------------------------------------------------------------------------

/-- `wi_log_level_t` -/
inductive LogLevel where
  | fatal | error | warn | info | debug
  deriving DecidableEq, Repr

/-- The `prefix` of a level. -/
def LogLevel.text : LogLevel → Block
  | .fatal => ascii "Fatal"
  | .error => ascii "Error"
  | .warn => ascii "Warning"
  | .info => ascii "Info"
  | .debug => ascii "Debug"

/-- A message as it is written to the file, with the date, the name and the identifier of the process. -/
structure LogEntry where
  date : Block
  name : Block
  pid : UInt32
  level : LogLevel
  message : Block

/-- `"%s %s[%u]: %s: %s\n"` -/
def LogEntry.text (entry : LogEntry) : Block :=
  entry.date ++ ascii " " ++ entry.name ++ ascii "[" ++ ascii (toString entry.pid.toNat) ++ ascii "]: "
    ++ entry.level.text ++ ascii ": " ++ entry.message ++ [Files.newline]

-----------------------------------------------------------------------------------------
-- The file
-----------------------------------------------------------------------------------------

/-- The bytes at which lines end. -/
def isNewline (byte : UInt8) : Bool :=
  byte = Files.newline

/-- The loop of `_wi_log_truncate`, from a position on, where the one below it is the next to be read: the number of
lines that are still to be found, the byte that was read last, and where the stream stands. The result is
where it stands when it is copied.
-/
def findLines (contents : Block) : ℕ → ℕ → Option UInt8 → ℕ → ℕ
  | _, 0, _, offset => offset
  | 0, _ + 1, ch, offset => if ch.isSome then offset - 1 else offset
  | position + 1, lines + 1, _, _ =>
      let ch := contents[position]?
      findLines contents position (if ch.any isNewline then lines else lines + 1) ch (position + 1)

/-- What `_wi_log_truncate` writes back. -/
def truncate (limit : ℕ) (contents : Block) : Block :=
  if contents = [] then contents
  else contents.drop (findLines contents (contents.length - 1) limit none 0)

/-- `(int) ((float) wi_log_limit / 10.0f)` -/
def logStep (limit : ℕ) : ℤ :=
  ⌊Binary32.round (Binary32.round limit / 10)⌋

/-- A number as an `int`. -/
def toInt (number : ℤ) : ℤ :=
  Int.bmod number (2 ^ 32)

/-- The file, and how many lines are thought to be in it (`_wi_log_lines`). -/
structure LogFile where
  contents : Block
  lines : ℤ

/-- A message, whether the file can be opened for it, and whether everything that is needed to cut the file is there. -/
structure LogAction where
  entry : LogEntry
  opened : Bool
  truncates : Bool

/-- The part of `_wi_log_vlog` for the file. Nothing is left when the process ends with a division by zero. -/
def LogFile.step (limit : ℕ) (action : LogAction) (file : LogFile) : Option LogFile :=
  if !action.opened then some file
  else
    let contents := file.contents ++ action.entry.text
    if file.lines > 0 ∧ limit > 0 then
      if logStep limit = 0 then none
      else if file.lines.tmod (logStep limit) = 0 then
        some
          { contents := if action.truncates then truncate limit contents else contents
            lines := toInt (toInt limit + 1) }
      else some { contents, lines := toInt (file.lines + 1) }
    else some { contents, lines := toInt (file.lines + 1) }

/-- An entry of `wd_log_entries`. -/
structure LogItem where
  time : Date
  level : LogLevel
  message : Block

/-- `wd_max_log_entries` -/
def maxLogEntries (limit : ℕ) : ℕ :=
  if limit > 0 then limit else 500

/-- The part of `wd_server_log_callback` for the list, which nobody else may be reading or writing. -/
def addLogEntry (limit : ℕ) (item : LogItem) (entries : List LogItem) : List LogItem :=
  (if entries.length > maxLogEntries limit + 100 then entries.drop 100 else entries) ++ [item]

/-- The file that the process finds. -/
def LogFile.start (contents : Block) : LogFile :=
  { contents, lines := 0 }

/-- The messages that a run writes to the file. -/
def logged (actions : List LogAction) : List LogEntry :=
  (actions.filter (·.opened)).map (·.entry)

/-- Messages as they stand in the file. -/
def texts (entries : List LogEntry) : Block :=
  entries.flatMap (·.text)

variable {limit : ℕ}

-----------------------------------------------------------------------------------------
-- Cutting the file
-----------------------------------------------------------------------------------------

/-- Where the file is copied from: behind the position are the lines that were found, and so many are still to be.
By induction on the position.
-/
theorem drop_findLines {contents : Block} {position lines : ℕ} {ch : Option UInt8} {offset : ℕ}
    (below : position < contents.length) (stands : position = 0 → (if ch.isSome then offset - 1 else offset) = 0)
    : contents.drop (findLines contents position (lines + 1) ch offset)
      = lastPieces isNewline (lines + (pieces isNewline (contents.drop position)).length) contents := by
  induction position generalizing lines ch offset with
  | zero =>
      rw [findLines, stands rfl, List.drop_zero, lastPieces_of_le (Nat.le_add_left _ _)]
  | succ position ih =>
      have inside : position < contents.length := Nat.lt_of_succ_lt below
      have read : contents[position]? = some contents[position] := List.getElem?_eq_getElem inside
      have cut : contents.drop position = contents[position] :: contents.drop (position + 1) :=
        List.drop_eq_getElem_cons inside
      have back : contents.drop (position + 1) ≠ [] := by
        rw [Ne, List.drop_eq_nil_iff, not_le]
        exact below
      have onward (rest : ℕ)
          : contents.drop (findLines contents position (rest + 1) (some contents[position]) (position + 1))
            = lastPieces isNewline (rest + (pieces isNewline (contents.drop position)).length) contents :=
        ih inside fun isFirst => isFirst
      rw [findLines, read]
      by_cases isEnd : isNewline contents[position] = true
      · have front : IsClosed isNewline (contents.take (position + 1)) := by
          intro last mem
          rw [List.take_succ_eq_append_getElem inside, List.getLast?_concat] at mem
          cases mem
          exact isEnd
        rw [Option.any_some, if_pos isEnd]
        cases lines with
        | zero =>
            have last := lastPieces_append front (contents.drop (position + 1))
            rw [List.take_append_drop] at last
            rw [findLines, Nat.zero_add, last]
        | succ lines =>
            rw [onward, cut, pieces_cons_of_ends isEnd, List.length_cons,
              Nat.add_right_comm, Nat.add_assoc]
      · rw [Option.any_some, if_neg isEnd, onward, cut, length_pieces_cons isEnd back]

/-- Cutting a file leaves its last lines. -/
theorem truncate_eq (positive : 0 < limit) (contents : Block)
    : truncate limit contents = lastPieces isNewline limit contents := by
  rw [truncate]
  split_ifs with empty
  · rw [empty, lastPieces_of_le (Nat.zero_le _)]
  · have some : 0 < contents.length := List.length_pos_iff.mpr empty
    obtain ⟨lines, rfl⟩ : ∃ lines, limit = lines + 1 := ⟨limit - 1, by omega⟩
    have lastByte : (contents.drop (contents.length - 1)).length = 1 := by
      rw [List.length_drop]
      omega
    obtain ⟨byte, isLast⟩ := List.length_eq_one_iff.mp lastByte
    have one : (pieces isNewline [byte]).length = 1 := by
      rw [pieces]
      split_ifs <;> rfl
    rw [drop_findLines (by omega) fun _ => rfl, isLast, one]

-----------------------------------------------------------------------------------------
-- The step between two cuts
-----------------------------------------------------------------------------------------

/-- The step between two cuts is a tenth of the limit, as long as a single precision value can hold that. -/
theorem logStep_eq (small : limit < 2 ^ 24) : logStep limit = (limit / 10 : ℕ) := by
  rw [logStep, Binary32.round_natCast small, Int.floor_eq_iff]
  have division : (limit : ℚ) = 10 * (limit / 10 : ℕ) + (limit % 10 : ℕ) := by
    exact_mod_cast (Nat.div_add_mod limit 10).symm
  have remainder : ((limit % 10 : ℕ) : ℚ) ≤ 9 := by exact_mod_cast Nat.le_of_lt_succ (Nat.mod_lt limit (by norm_num))
  have log : Int.log 2 (limit / 10 : ℚ) ≤ 20 := by
    rcases Nat.eq_zero_or_pos limit with rfl | positive
    · norm_num
    · have above : (0 : ℚ) < limit / 10 := by positivity
      have bound : (limit : ℚ) < 2 ^ 24 := by exact_mod_cast small
      have below : Int.log 2 (limit / 10 : ℚ) < 21 :=
        (Int.lt_zpow_iff_log_lt Nat.one_lt_two above).mp (by norm_num; linarith)
      omega
  constructor
  · refine Binary32.natCast_le_round (by omega) ?_
    rw [le_div_iff₀ (by norm_num), division]
    have nonneg : (0 : ℚ) ≤ (limit % 10 : ℕ) := Nat.cast_nonneg _
    linarith
  · have place : (2 : ℚ) ^ (Int.log 2 (limit / 10 : ℚ) - 24) ≤ 2 ^ (-4 : ℤ) :=
      zpow_le_zpow_right₀ one_le_two (by omega)
    have up := Binary32.round_le (limit / 10)
    norm_num at place
    rw [Int.cast_natCast]
    linarith

/-- From ten lines on the step is positive. -/
theorem logStep_pos (enough : 10 ≤ limit) : 0 < logStep limit := by
  by_cases small : limit < 2 ^ 24
  · rw [logStep_eq small]
    omega
  · have large : (2 : ℚ) ^ (24 : ℤ) ≤ limit := by
      norm_num
      exact_mod_cast Nat.le_of_not_lt small
    have ten : (10 : ℚ) ≤ Binary32.round limit := by
      have rounded := Binary32.le_round large
      norm_num at rounded
      linarith
    have one : (2 : ℚ) ^ (0 : ℤ) ≤ Binary32.round (Binary32.round limit / 10) := by
      refine Binary32.le_round ?_
      rw [zpow_zero]
      linarith
    rw [logStep]
    exact Int.lt_of_lt_of_le one_pos (Int.le_floor.mpr (by simpa using one))

-----------------------------------------------------------------------------------------
-- One message
-----------------------------------------------------------------------------------------

namespace LogFile

variable {action : LogAction} {actions : List LogAction} {file next : LogFile}

/-- A message that the file cannot be opened for changes nothing. -/
theorem step_of_not_opened (closed : action.opened = false) : file.step limit action = some file := by
  rw [step, closed]
  rfl

/-- Whether the file is due to be cut when a message has been written. -/
def IsDue (limit : ℕ) (file : LogFile) : Prop :=
  file.lines > 0 ∧ limit > 0 ∧ file.lines.tmod (logStep limit) = 0

/-- A message is written, and the file is cut if that is due. -/
theorem step_opened (opened : action.opened = true) (stepped : file.step limit action = some next)
    : (file.IsDue limit ∧ next.lines = toInt (toInt limit + 1)
        ∧ next.contents = if action.truncates then truncate limit (file.contents ++ action.entry.text)
          else file.contents ++ action.entry.text)
      ∨ (¬ file.IsDue limit ∧ next.lines = toInt (file.lines + 1)
        ∧ next.contents = file.contents ++ action.entry.text) := by
  rw [step, opened, Bool.not_true, if_neg Bool.false_ne_true] at stepped
  by_cases counted : file.lines > 0 ∧ limit > 0
  · by_cases noStep : logStep limit = 0
    · simp only [if_pos counted, if_pos noStep, reduceCtorEq] at stepped
    · by_cases due : file.lines.tmod (logStep limit) = 0
      · simp only [if_pos counted, if_neg noStep, if_pos due] at stepped
        cases stepped
        exact .inl ⟨⟨counted.1, counted.2, due⟩, by dsimp only, by dsimp only⟩
      · simp only [if_pos counted, if_neg noStep, if_neg due] at stepped
        cases stepped
        exact .inr ⟨fun isDue => due isDue.2.2, rfl, rfl⟩
  · simp only [if_neg counted] at stepped
    cases stepped
    exact .inr ⟨fun isDue => counted ⟨isDue.1, isDue.2.1⟩, rfl, rfl⟩

/-- The messages of a run with one more in front. -/
theorem logged_cons (action : LogAction) (actions : List LogAction)
    : logged (action :: actions)
      = if action.opened then action.entry :: logged actions else logged actions := by
  rw [logged, List.filter_cons]
  split_ifs <;> rfl

-----------------------------------------------------------------------------------------
-- Nothing but the front is lost
-----------------------------------------------------------------------------------------

variable {least : ℕ} {history : Block}

/-- A message and the cut behind it leave a window of the log. -/
theorem isWindow_step (stepped : file.step limit action = some next) (opened : action.opened = true)
    (bound : 0 < limit → least ≤ limit) (isWindow : IsWindow isNewline least history file.contents)
    : IsWindow isNewline least (history ++ action.entry.text) next.contents := by
  have grown := isWindow.append action.entry.text
  rcases step_opened opened stepped with ⟨isDue, -, contents⟩ | ⟨-, -, contents⟩
  · rw [contents]
    split_ifs
    · rw [truncate_eq isDue.2.1]
      exact grown.last isDue.2.1 (bound isDue.2.1)
    · exact grown
  · rw [contents]
    exact grown

/-- A run leaves a window of the log. -/
theorem isWindow_run (ran : Machine.run (step limit) actions file = some next) (bound : 0 < limit → least ≤ limit)
    (isWindow : IsWindow isNewline least history file.contents)
    : IsWindow isNewline least (history ++ texts (logged actions)) next.contents := by
  induction actions generalizing file history with
  | nil =>
      cases ran
      rwa [texts, logged, List.filter_nil, List.map_nil, List.flatMap_nil, List.append_nil]
  | cons action actions ih =>
      obtain ⟨between, stepped, rest⟩ := Machine.run_cons.mp ran
      rw [logged_cons]
      split_ifs with opened
      · have further := ih rest (isWindow_step stepped opened bound isWindow)
        rwa [List.append_assoc] at further
      · rw [step_of_not_opened (Bool.not_eq_true _ ▸ opened)] at stepped
        cases stepped
        exact ih rest isWindow

-----------------------------------------------------------------------------------------
-- The file does not grow
-----------------------------------------------------------------------------------------

/-- A number that an `int` holds. -/
theorem toInt_eq {number : ℤ} (nonneg : 0 ≤ number) (fits : number < 2 ^ 31) : toInt number = number :=
  Int.bmod_eq_of_le_mul_two (by omega) (by omega)

/-- How the file and the number of its lines go together, when it is cut each time that is due: it has not been cut
yet, or only few messages have come since.
-/
inductive Counted (limit : ℕ) (entries : List LogEntry) (file : LogFile) : Prop where
  | uncut (lines : file.lines = entries.length) (few : (entries.length : ℤ) ≤ logStep limit)
  | cut (earlier recent : List LogEntry) (kept : Block) (split : entries = earlier ++ recent)
      (contents : file.contents = kept ++ texts recent) (few : (pieces isNewline kept).length ≤ limit)
      (lines : file.lines = limit + 1 + recent.length)
      (notDue : ∀ value : ℤ, limit < value → value ≤ limit + recent.length → ¬ logStep limit ∣ value)

/-- Among so many numbers as a step there is a multiple of it. -/
theorem lt_step {step base count : ℤ} (positive : 0 < step)
    (notDue : ∀ value : ℤ, base < value → value ≤ base + count → ¬ step ∣ value)
    : count < step := by
  by_contra enough
  have above : base < step * (base / step + 1) := Int.lt_mul_ediv_self_add positive |>.trans_eq (by ring)
  have below : step * (base / step) ≤ base := Int.mul_ediv_self_le positive.ne'
  refine notDue _ above ?_ (dvd_mul_right _ _)
  rw [mul_add, mul_one]
  omega

/-- What a message that is counted leaves is counted. -/
theorem Counted.step {entries : List LogEntry} (counted : Counted limit entries file) (enough : 10 ≤ limit)
    (fits : limit + logStep limit < 2 ^ 31) (opened : action.opened = true) (truncates : action.truncates = true)
    (stepped : file.step limit action = some next)
    : Counted limit (entries ++ [action.entry]) next := by
  have positive : 0 < logStep limit := logStep_pos enough
  have some : 0 < limit := by omega
  rcases step_opened opened stepped with ⟨-, lines, contents⟩ | ⟨notDue, lines, contents⟩
  · rw [if_pos truncates, truncate_eq some] at contents
    have isLimit : toInt limit = limit := toInt_eq (by omega) (by omega)
    rw [isLimit, toInt_eq (by omega) (by omega)] at lines
    obtain ⟨-, -, -, few⟩ := lastPieces_spec isNewline some (file.contents ++ action.entry.text)
    refine .cut (entries ++ [action.entry]) [] next.contents (List.append_nil _).symm ?_ ?_ ?_ ?_
    · rw [texts, List.flatMap_nil, List.append_nil]
    · rw [contents, few]
      exact Nat.min_le_left _ _
    · rw [lines, List.length_nil, Nat.cast_zero, add_zero]
    · intro value above below
      rw [List.length_nil, Nat.cast_zero, add_zero] at below
      omega
  · have due (whole : logStep limit ∣ file.lines) (counts : 0 < file.lines) : False :=
      notDue ⟨counts, some, Int.tmod_eq_zero_of_dvd whole⟩
    cases counted with
    | uncut before few =>
        have notYet : (entries.length : ℤ) ≠ logStep limit := by
          intro same
          exact due (by rw [before, same]) (by rw [before, same]; exact positive)
        rw [before, toInt_eq (by omega) (by omega)] at lines
        refine .uncut ?_ ?_
        · rw [lines, List.length_append, List.length_singleton]
          push_cast
          rfl
        · rw [List.length_append, List.length_singleton]
          push_cast
          omega
    | cut earlier recent kept split before few counts since =>
        have further : ∀ value : ℤ, limit < value → value ≤ limit + (recent.length + 1 : ℤ) →
            ¬ logStep limit ∣ value := by
          intro value above below
          rcases Int.lt_or_eq_of_le below with less | same
          · exact since value above (by omega)
          · intro whole
            refine due ?_ (by omega)
            rwa [counts, show (limit : ℤ) + 1 + recent.length = value by omega]
        have short := lt_step positive further
        rw [counts, toInt_eq (by omega) (by omega)] at lines
        have length : ((recent ++ [action.entry]).length : ℤ) = recent.length + 1 := by
          rw [List.length_append, List.length_singleton]
          push_cast
          rfl
        refine .cut earlier (recent ++ [action.entry]) kept ?_ ?_ few ?_ ?_
        · rw [split, List.append_assoc]
        · rw [contents, before, texts, texts, List.flatMap_append, List.append_assoc, List.flatMap_singleton]
        · rw [lines, length]
          ring
        · rw [length]
          exact further

/-- What a run leaves is counted. -/
theorem Counted.run {entries : List LogEntry} (counted : Counted limit entries file) (enough : 10 ≤ limit)
    (fits : limit + logStep limit < 2 ^ 31)
    (cuts : ∀ action ∈ actions, action.opened = true → action.truncates = true)
    (ran : Machine.run (LogFile.step limit) actions file = some next)
    : Counted limit (entries ++ logged actions) next := by
  induction actions generalizing file entries with
  | nil =>
      cases ran
      rwa [logged, List.filter_nil, List.map_nil, List.append_nil]
  | cons action actions ih =>
      obtain ⟨between, stepped, rest⟩ := Machine.run_cons.mp ran
      have cutsRest := fun other mem => cuts other (List.mem_cons_of_mem _ mem)
      rw [logged_cons]
      split_ifs with opened
      · have truncates := cuts action List.mem_cons_self opened
        have further := ih (counted.step enough fits opened truncates stepped) cutsRest rest
        rwa [List.append_assoc] at further
      · rw [step_of_not_opened (Bool.not_eq_true _ ▸ opened)] at stepped
        cases stepped
        exact ih counted cutsRest rest

-----------------------------------------------------------------------------------------
-- The end of the process
-----------------------------------------------------------------------------------------

/-- A message ends the process exactly when the file is open, has been written before, and is cut at every zeroth
message.
-/
theorem step_eq_none_iff
    : file.step limit action = none
      ↔ action.opened = true ∧ file.lines > 0 ∧ limit > 0 ∧ logStep limit = 0 := by
  rw [step]
  cases opened : action.opened with
  | false => simp
  | true =>
      by_cases counted : file.lines > 0 ∧ limit > 0
      · by_cases noStep : logStep limit = 0
        · simp [counted.1, counted.2, noStep]
        · by_cases due : file.lines.tmod (logStep limit) = 0
          · simp [if_pos counted, noStep, due]
          · simp [noStep, due]
      · simp only [Bool.not_true, Bool.false_eq_true, if_false, if_neg counted, reduceCtorEq, false_iff]
        exact fun all => counted ⟨all.2.1, all.2.2.1⟩

/-- With a step between two cuts, or without a limit, no run ends the process. -/
theorem run_ne_none (lasts : limit = 0 ∨ 10 ≤ limit) : Machine.run (step limit) actions file ≠ none := by
  induction actions generalizing file with
  | nil => exact nofun
  | cons action actions ih =>
      cases stepped : step limit action file with
      | none =>
          obtain ⟨-, -, some, noStep⟩ := step_eq_none_iff.mp stepped
          rcases lasts with nothing | enough
          · omega
          · exact absurd noStep (logStep_pos enough).ne'
      | some next =>
          rw [Machine.run, stepped]
          exact ih

/-- With a small limit the second message ends the process. -/
theorem run_eq_none_iff (positive : 0 < limit) (small : limit < 10) {count : ℕ}
    (lines : file.lines = count) (few : count ≤ 1)
    : Machine.run (step limit) actions file = none ↔ 2 ≤ count + (logged actions).length := by
  have noStep : logStep limit = 0 := by
    rw [logStep_eq (by omega)]
    omega
  induction actions generalizing file count with
  | nil =>
      rw [Machine.run, logged, List.filter_nil, List.map_nil, List.length_nil]
      exact iff_of_false (Option.some_ne_none _) (by omega)
  | cons action actions ih =>
      rw [logged_cons]
      split_ifs with opened
      · by_cases first : count = 0
        · have alive : ¬ file.lines > 0 := by omega
          have stepped : file.step limit action
              = some { contents := file.contents ++ action.entry.text, lines := toInt (file.lines + 1) } := by
            rw [step, opened, Bool.not_true, if_neg Bool.false_ne_true]
            exact if_neg fun both => alive both.1
          have one : LogFile.lines ⟨file.contents ++ action.entry.text, toInt (file.lines + 1)⟩ = (1 : ℕ) := by
            rw [lines, first]
            rfl
          rw [Machine.run, stepped, Option.bind_some, List.length_cons, first]
          exact (ih one le_rfl).trans (by omega)
        · have ends : file.step limit action = none :=
            step_eq_none_iff.mpr ⟨opened, by omega, positive, noStep⟩
          rw [Machine.run, ends, Option.bind_none, List.length_cons]
          exact iff_of_true rfl (by omega)
      · rw [Machine.run, step_of_not_opened (Bool.not_eq_true _ ▸ opened), Option.bind_some]
        exact ih lines few

end LogFile

-----------------------------------------------------------------------------------------
-- Runs
-----------------------------------------------------------------------------------------

variable {initial : Block} {actions : List LogAction} {file : LogFile}

/-- A message that is written. -/
def shortMessage : LogAction where
  entry := ⟨ascii "Jan  1 00:00:00", ascii "wired", 1, .info, ascii "Started"⟩
  opened := true
  truncates := true

/-- A file of blank lines. -/
def blankLines : Block :=
  List.replicate 20 Files.newline

set_option maxRecDepth 2000 in
/-- The third message is cut at a limit of twenty lines, and leaves seventeen of the lines that were there. -/
theorem run_shortMessage
    : Machine.run (LogFile.step 20) (List.replicate 3 shortMessage) (.start blankLines)
      = some ⟨List.replicate 17 Files.newline ++ texts (List.replicate 3 shortMessage.entry), 21⟩ := by
  have two : logStep 20 = 2 := logStep_eq (by norm_num)
  have first : LogFile.step 20 shortMessage (.start blankLines)
      = some ⟨blankLines ++ shortMessage.entry.text, 1⟩ := rfl
  have second : LogFile.step 20 shortMessage ⟨blankLines ++ shortMessage.entry.text, 1⟩
      = some ⟨blankLines ++ shortMessage.entry.text ++ shortMessage.entry.text, 2⟩ := by
    simp only [LogFile.step, two]
    rfl
  have third : LogFile.step 20 shortMessage ⟨blankLines ++ shortMessage.entry.text ++ shortMessage.entry.text, 2⟩
      = some ⟨List.replicate 17 Files.newline ++ texts (List.replicate 3 shortMessage.entry), 21⟩ := by
    simp only [LogFile.step, two]
    rfl
  simp only [List.replicate, Machine.run, first, second, third, Option.bind_some]

/-- A run ends the process exactly when the limit is below ten lines, but not zero, and it writes two messages. -/
theorem log_ends_iff
    : Machine.run (LogFile.step limit) actions (.start initial) = none
      ↔ 0 < limit ∧ limit < 10 ∧ 2 ≤ (logged actions).length := by
  by_cases lasts : limit = 0 ∨ 10 ≤ limit
  · refine iff_of_false (LogFile.run_ne_none lasts) ?_
    rintro ⟨positive, small, -⟩
    omega
  · have ends : Machine.run (LogFile.step limit) actions (.start initial) = none
        ↔ 2 ≤ 0 + (logged actions).length :=
      LogFile.run_eq_none_iff (by omega) (by omega) rfl (Nat.zero_le 1)
    rw [ends, Nat.zero_add]
    omega

/-- The list in memory holds all messages that were added to it but for those at the front; and if any are gone it
still has more than its limit. It never has more than a hundred and one above it.
-/
theorem logEntries_keepLast (limit : ℕ) (items : List LogItem)
    : let entries := items.foldl (fun entries item => addLogEntry limit item entries) []
      IsWindow (fun _ => true) (maxLogEntries limit + 2) items entries
        ∧ entries.length ≤ maxLogEntries limit + 101 := by
  have all (item : LogItem) : (fun _ : LogItem => true) item = true := rfl
  induction items using List.reverseRecOn with
  | nil => exact ⟨.refl [], Nat.zero_le _⟩
  | append_singleton items item ih =>
      rw [List.foldl_concat]
      obtain ⟨isWindow, few⟩ := ih
      generalize items.foldl (fun entries item => addLogEntry limit item entries) [] = entries at isWindow few
      have grown := isWindow.append [item]
      rw [addLogEntry]
      split_ifs with full
      · have cut := grown.last (by omega) (le_refl (maxLogEntries limit + 2))
        have whole : entries.length = maxLogEntries limit + 101 := by omega
        have dropped : lastPieces (fun _ => true) (maxLogEntries limit + 2) (entries ++ [item])
            = entries.drop 100 ++ [item] := by
          have hundred : entries.length + 1 - (maxLogEntries limit + 2) = 100 := by omega
          rw [lastPieces_of_forall all, List.length_append, List.length_singleton, hundred,
            List.drop_append_of_le_length (by omega)]
        rw [dropped] at cut
        refine ⟨cut, ?_⟩
        rw [List.length_append, List.length_drop, List.length_singleton]
        omega
      · refine ⟨grown, ?_⟩
        rw [List.length_append, List.length_singleton]
        omega

end WiredServer.Server
