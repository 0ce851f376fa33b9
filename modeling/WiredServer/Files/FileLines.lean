import Mathlib
import WiredServer.Net.ReadToString

/-! Reading a file line by line. A buffer of the file is read at a time, searched for the separator,
and the file is set back to where the separator ends.
-/

namespace WiredServer.Files

open Bytes Data Loop Net Rewriting

-----------------------------------------------------------------------------------------
-- Data model
-----------------------------------------------------------------------------------------

/-- An open file (`wi_file_t`): what it contains, and the offset at which it is read. -/
structure OpenFile where
  contents : Block
  offset : ℕ
deriving DecidableEq

/-- A text that has been read, or `NULL`, and the file behind it. -/
abbrev Reading := Option Block × OpenFile

namespace OpenFile

/-- `wi_file_read_buffer`. -/
def readBuffer (file : OpenFile) (length : ℕ) : Block × OpenFile :=
  let bytes := (file.contents.drop file.offset).take length
  (bytes, { file with offset := file.offset + bytes.length })

/-- `wi_file_seek`. -/
def seek (file : OpenFile) (offset : ℕ) : OpenFile :=
  { file with offset }

/-- A round of `wi_file_read`, with the string so far and the length that is still asked for. The last
round is the one behind the loop: it reads a whole buffer too. `WI_FILE_BUFFER_SIZE` is a parameter.
-/
def readRound (bufferSize : ℕ) (state : Block × ℕ × OpenFile)
    : Access (Turn (Block × ℕ × OpenFile) Reading) :=
  let (string, length, file) := state
  if length = 0 then .ok (.stop (none, file))
  else
    let (bytes, next) := file.readBuffer bufferSize
    if bytes = [] then .ok (.stop (none, next))
    else if length > bufferSize then
      .ok (.again (string ++ bytes, length - bytes.length, next))
    else .ok (.stop (some (string ++ bytes), next))

/-- `wi_file_read`, for at most so many rounds. -/
def read (bufferSize rounds : ℕ) (file : OpenFile) (length : ℕ) : Access Reading :=
  run (readRound bufferSize) rounds ([], length, file)

/-- A round of `wi_file_read_to_string`. If an assertion ends the process there is no result. -/
def readToStringRound (bufferSize rounds : ℕ) (separator : Block) (state : Reading)
    : Access (Turn Reading (Option Reading)) := do
  let (totalstring, file) := state
  match ← file.read bufferSize rounds bufferSize with
  | (none, file) => .ok (.stop (some (totalstring, file)))
  | (some string, file) =>
      let totalstring := totalstring.getD []
      match indexOfString string separator with
      | none => .ok (.stop none)
      | some none => .ok (.again (some (totalstring ++ cstring string), file))
      | some (some index) =>
          match substringToIndex string index with
          | none => .ok (.stop none)
          | some substring =>
              let file := file.seek (file.offset - string.length + index + 1)
              .ok (.stop (some (some (totalstring ++ cstring substring), file)))

/-- `wi_file_read_to_string`, for at most so many rounds. -/
def readToString (bufferSize rounds : ℕ) (separator : Block) (file : OpenFile)
    : Access (Option Reading) :=
  run (readToStringRound bufferSize rounds separator) rounds (none, file)

end OpenFile

/-- The byte of a line break. -/
def newline : UInt8 := 10

namespace OpenFile

/-- `wi_file_read_line`. -/
def readLine (bufferSize rounds : ℕ) (file : OpenFile) : Access (Option Reading) :=
  file.readToString bufferSize rounds [newline]

/-- The results of so many calls of `wi_file_read_line` in a row. -/
def readLines (bufferSize rounds : ℕ) : ℕ → OpenFile
    → Access (Option (List (Option Block) × OpenFile))
  | 0, file => .ok (some ([], file))
  | calls + 1, file => do
      match ← file.readLine bufferSize rounds with
      | none => .ok none
      | some (string, file) =>
          match ← readLines bufferSize rounds calls file with
          | none => .ok none
          | some (strings, file) => .ok (some (string :: strings, file))

end OpenFile

/-- The lines of a text without their line breaks. A line break ends a line, so none begins behind the
last one.
-/
def linesOf : Block → List Block
  | [] => []
  | byte :: text =>
      if byte = newline then [] :: linesOf text
      else
        match linesOf text with
        | [] => [[byte]]
        | line :: lines => (byte :: line) :: lines

-----------------------------------------------------------------------------------------
-- Lines
-----------------------------------------------------------------------------------------

/-- The bytes of the first line. -/
def firstLine (text : Block) : Block :=
  text.takeWhile (· ≠ newline)

/-- The text behind the first line. -/
def behindLine (text : Block) : Block :=
  text.drop ((firstLine text).length + 1)

/-- A text that is not empty begins with a line, by induction on it. -/
theorem linesOf_eq {text : Block} (nonempty : text ≠ [])
    : linesOf text = firstLine text :: linesOf (behindLine text) := by
  induction text with
  | nil => exact absurd rfl nonempty
  | cons byte text ih =>
      by_cases breaks : byte = newline
      · rw [linesOf, if_pos breaks, behindLine, firstLine, List.takeWhile_cons_of_neg (by simpa)]
        rfl
      · have first : firstLine (byte :: text) = byte :: firstLine text :=
          List.takeWhile_cons_of_pos (by simpa)
        have behind : behindLine (byte :: text) = behindLine text := by
          rw [behindLine, first, List.length_cons, List.drop_succ_cons, behindLine]
        rw [linesOf, if_neg breaks, first, behind]
        cases text with
        | nil => rfl
        | cons next text => rw [ih (List.cons_ne_nil next text)]

/-- A text without a line break is its first line. -/
theorem firstLine_of_notMem {text : Block} (noBreak : newline ∉ text) : firstLine text = text := by
  rw [firstLine, List.takeWhile_eq_self_iff]
  intro byte mem
  have differs : byte ≠ newline := ne_of_mem_of_not_mem mem noBreak
  simpa using differs

/-- Bytes without a line break stand at the front of the first line. -/
theorem firstLine_append {front : Block} (noBreak : newline ∉ front) (text : Block)
    : firstLine (front ++ text) = front ++ firstLine text := by
  refine List.takeWhile_append_of_pos fun byte mem => ?_
  have differs : byte ≠ newline := ne_of_mem_of_not_mem mem noBreak
  simpa using differs

/-- Bytes without a line break do not change what stands behind the first line. -/
theorem behindLine_append {front : Block} (noBreak : newline ∉ front) (text : Block)
    : behindLine (front ++ text) = behindLine text := by
  rw [behindLine, firstLine_append noBreak, List.length_append, Nat.add_assoc, List.drop_append]
  simp [behindLine]

-----------------------------------------------------------------------------------------
-- One call
-----------------------------------------------------------------------------------------

namespace OpenFile

variable {bufferSize rounds : ℕ} {file : OpenFile}

/-- The bytes that have not been read. -/
def unread (file : OpenFile) : Block :=
  file.contents.drop file.offset

/-- What a read of one buffer has, and the file behind it. -/
theorem read_eq (positive : 0 < bufferSize) (some : 0 < rounds)
    : file.read bufferSize rounds bufferSize
      = .ok (if file.unread = [] then none else .some (file.unread.take bufferSize),
          { file with offset := file.offset + (file.unread.take bufferSize).length }) := by
  obtain ⟨rounds, rfl⟩ := Nat.exists_eq_add_one.mpr some
  refine run_stop ?_
  have same : (file.contents.drop file.offset).take bufferSize = file.unread.take bufferSize := rfl
  simp only [readRound, readBuffer, same, if_neg positive.ne', gt_iff_lt, lt_irrefl, if_false,
    List.take_eq_nil_iff, or_iff_right positive.ne', List.nil_append]
  split <;> rfl

/-- There is nothing to read at the end of a file. -/
theorem read_none (positive : 0 < bufferSize) (some : 0 < rounds) (ended : file.unread = [])
    : file.read bufferSize rounds bufferSize = .ok (none, file) := by
  rw [read_eq positive some, if_pos ended, ended, List.take_nil]
  rfl

/-- In front of the end of a file, a read has some of the bytes that are left. -/
theorem read_some (positive : 0 < bufferSize) (some : 0 < rounds) (left : file.unread ≠ [])
    : ∃ string rest, file.unread = string ++ rest ∧ string ≠ []
      ∧ file.read bufferSize rounds bufferSize
        = .ok (.some string, { file with offset := file.offset + string.length }) := by
  refine ⟨_, _, (List.take_append_drop bufferSize file.unread).symm, ?_, ?_⟩
  · rw [Ne, List.take_eq_nil_iff, not_or]
    exact ⟨positive.ne', left⟩
  · rw [read_eq positive some, if_neg left]

/-- What is left to read when the offset has moved on. -/
theorem unread_moved (count : ℕ)
    : ({ file with offset := file.offset + count } : OpenFile).unread = file.unread.drop count := by
  rw [unread, unread, List.drop_drop]

/-- A buffer without a separator has no line break. -/
theorem newline_notMem {string : Block} (clean : firstPlace id [newline] string = none)
    : newline ∉ string := by
  have none := @firstPlace_isFirst _ _ _ id [newline] (List.cons_ne_nil _ _) string
  rw [clean] at none
  intro mem
  obtain ⟨place, within, same⟩ := List.mem_iff_getElem.mp mem
  have here := List.getElem?_eq_some_iff.mpr ⟨within, same⟩
  exact none place (Occurrences.occursAt_singleton.mpr here)

/-- The bytes in front of the first separator of a buffer, and the bytes behind it. -/
theorem split_of_firstPlace {string : Block} {index : ℕ}
    (found : firstPlace id [newline] string = some index)
    : index < string.length ∧ newline ∉ string.take index
      ∧ string = string.take index ++ newline :: string.drop (index + 1) := by
  have first := @firstPlace_isFirst _ _ _ id [newline] (List.cons_ne_nil _ _) string
  rw [found] at first
  have here := Occurrences.occursAt_singleton.mp first.1
  obtain ⟨within, same⟩ := List.getElem?_eq_some_iff.mp here
  refine ⟨within, fun mem => ?_, ?_⟩
  · obtain ⟨place, before, same⟩ := List.mem_take_iff_getElem.mp mem
    have inside : place < string.length := by omega
    have earlier := List.getElem?_eq_some_iff.mpr ⟨inside, same⟩
    have least := first.2 (Occurrences.occursAt_singleton.mpr earlier)
    omega
  · rw [← same, List.getElem_cons_drop, List.take_append_drop]

/-- The loop has read up to the end of the first line, by induction on the rounds. -/
theorem loop_reads (positive : 0 < bufferSize) (some : 0 < rounds) {fuel : ℕ}
    {totalstring : Option Block} (zeroFree : 0 ∉ file.unread) (enough : file.unread.length < fuel)
    : ∃ next : OpenFile,
      run (readToStringRound bufferSize rounds [newline]) fuel (totalstring, file)
        = .ok (.some (if file.unread = [] then totalstring
            else .some (totalstring.getD [] ++ firstLine file.unread), next))
      ∧ next.contents = file.contents ∧ next.unread = behindLine file.unread := by
  induction fuel generalizing totalstring file with
  | zero => exact absurd enough (Nat.not_lt_zero _)
  | succ fuel ih =>
      by_cases ended : file.unread = []
      · refine ⟨file, run_stop ?_, rfl, by rw [ended]; rfl⟩
        simp only [readToStringRound, read_none positive some ended, if_pos ended, bind, Except.bind]
      · obtain ⟨string, rest, whole, nonempty, reads⟩ := read_some positive some ended
        have stringFree : 0 ∉ string := fun mem =>
          zeroFree (whole ▸ List.mem_append_left rest mem)
        have search := indexOfString_eq (List.cons_ne_nil newline []) (by decide) stringFree
        have long := List.length_pos_of_ne_nil nonempty
        have lengths := congrArg List.length whole
        rw [List.length_append] at lengths
        have moved : ({ file with offset := file.offset + string.length } : OpenFile).unread
            = file.unread.drop string.length := unread_moved string.length
        rw [whole, List.drop_left] at moved
        cases found : firstPlace id [newline] string with
        | none =>
            have noBreak := newline_notMem found
            have round : readToStringRound bufferSize rounds [newline] (totalstring, file)
                = .ok (.again (.some (totalstring.getD [] ++ string),
                    { file with offset := file.offset + string.length })) := by
              simp only [readToStringRound, reads, bind, Except.bind, search, found,
                cstring_of_zero_notMem stringFree]
            have restFree : 0 ∉ rest := fun mem =>
              zeroFree (whole ▸ List.mem_append_right string mem)
            obtain ⟨next, ran, contents, left⟩ := @ih
              { file with offset := file.offset + string.length }
              (.some (totalstring.getD [] ++ string)) (by rwa [moved]) (by rw [moved]; omega)
            rw [moved] at ran left
            refine ⟨next, ?_, contents, ?_⟩
            · rw [run_again round, ran, if_neg ended, whole, firstLine_append noBreak]
              by_cases last : rest = []
              · rw [if_pos last, last]
                simp [firstLine]
              · rw [if_neg last, Option.getD_some, List.append_assoc]
            · rw [left, whole, behindLine_append noBreak]
        | some index =>
            obtain ⟨inside, noBreak, split⟩ := split_of_firstPlace found
            have frontFree : 0 ∉ string.take index := fun mem =>
              stringFree (List.mem_of_mem_take mem)
            have text : file.unread
                = string.take index ++ newline :: (string.drop (index + 1) ++ rest) := by
              rw [whole]
              nth_rewrite 1 [split]
              simp
            have line : firstLine file.unread = string.take index := by
              rw [text, firstLine_append noBreak]
              exact List.append_nil _
            have length : (string.take index).length = index := List.length_take_of_le inside.le
            refine ⟨{ file with offset := file.offset + (index + 1) }, run_stop ?_, rfl, ?_⟩
            · have substring : substringToIndex string index = .some (string.take index) :=
                if_pos inside.le
              simp only [readToStringRound, reads, bind, Except.bind, search, found, substring,
                cstring_of_zero_notMem frontFree, if_neg ended, line, seek]
              rw [Nat.add_sub_cancel, Nat.add_assoc]
            · rw [unread_moved, behindLine, line, length]

/-- A call has the first line of what is left, and leaves what is behind it. -/
theorem readLine_eq (positive : 0 < bufferSize) (zeroFree : 0 ∉ file.unread)
    (enough : file.unread.length < rounds)
    : ∃ next : OpenFile,
      file.readLine bufferSize rounds
        = .ok (some (if file.unread = [] then none else some (firstLine file.unread), next))
      ∧ next.contents = file.contents ∧ next.unread = behindLine file.unread :=
  loop_reads positive (Nat.zero_lt_of_lt enough) zeroFree enough

-----------------------------------------------------------------------------------------
-- Calls in a row
-----------------------------------------------------------------------------------------

/-- At the end of a file each call is `NULL`, by induction on the calls. -/
theorem readLines_ended (positive : 0 < bufferSize) (enough : file.unread.length < rounds)
    (ended : file.unread = []) (calls : ℕ)
    : ∃ next, file.readLines bufferSize rounds calls
      = .ok (some (List.replicate calls none, next)) := by
  induction calls generalizing file with
  | zero => exact ⟨file, rfl⟩
  | succ calls ih =>
      obtain ⟨next, ran, -, left⟩ :=
        readLine_eq positive (ended ▸ List.not_mem_nil) enough
      rw [if_pos ended] at ran
      have endedNext : next.unread = [] := by
        rw [left, ended]
        rfl
      obtain ⟨last, rest⟩ := ih (by rw [endedNext, ← ended]; exact enough) endedNext
      refine ⟨last, ?_⟩
      rw [readLines, ran]
      simp only [bind, Except.bind, rest]
      rfl

/-- Calls in a row have the lines that are left and then nothing, by induction on the lines. -/
theorem readLines_left (positive : 0 < bufferSize) (zeroFree : 0 ∉ file.unread)
    (enough : file.unread.length < rounds) {lines : List Block} (left : linesOf file.unread = lines)
    (more : ℕ)
    : ∃ next, file.readLines bufferSize rounds (lines.length + more)
      = .ok (some (lines.map some ++ List.replicate more none, next)) := by
  induction lines generalizing file with
  | nil =>
      have ended : file.unread = [] := by
        by_contra nonempty
        rw [linesOf_eq nonempty] at left
        cases left
      rw [List.length_nil, Nat.zero_add]
      exact readLines_ended positive enough ended more
  | cons line lines ih =>
      have nonempty : file.unread ≠ [] := by
        intro ended
        rw [ended] at left
        cases left
      rw [linesOf_eq nonempty] at left
      obtain ⟨rfl, behind⟩ := List.cons.inj left
      obtain ⟨next, ran, -, unread⟩ := readLine_eq positive zeroFree enough
      rw [if_neg nonempty] at ran
      rw [← unread] at behind
      have shorter : next.unread.length < rounds := by
        rw [unread, behindLine, List.length_drop]
        omega
      have freeNext : 0 ∉ next.unread := by
        rw [unread]
        exact fun mem => zeroFree (List.mem_of_mem_drop mem)
      obtain ⟨last, rest⟩ := ih freeNext shorter behind
      refine ⟨last, ?_⟩
      rw [List.length_cons, Nat.add_right_comm, readLines, ran]
      simp only [bind, Except.bind, rest]
      rfl

/-- For every file without zero bytes and every size of the buffer, calls in a row have the lines of the
file and then nothing, however many there are.
-/
theorem readLines_eq (positive : 0 < bufferSize) {contents : Block} (zeroFree : 0 ∉ contents)
    (enough : contents.length < rounds) (more : ℕ)
    : ∃ next, readLines bufferSize rounds ((linesOf contents).length + more) ⟨contents, 0⟩
      = .ok (some ((linesOf contents).map some ++ List.replicate more none, next)) :=
  have zeroFree' : 0 ∉ (⟨contents, 0⟩ : OpenFile).unread := zeroFree
  readLines_left positive zeroFree' enough rfl more

/-- Lines that are longer than the buffer, a blank one, one that ends with the buffer and one that has no
line break.
-/
theorem readLines_eq_fourLines
    : ∃ next, readLines 3 20 6 ⟨[65, 66, 67, 68, 10, 10, 69, 70, 10, 71], 0⟩
      = .ok (some ([some [65, 66, 67, 68], some [], some [69, 70], some [71], none, none], next)) :=
  readLines_eq (by decide) (by decide) (by decide) 2

end OpenFile

end WiredServer.Files
