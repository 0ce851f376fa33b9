import Mathlib
import WiredServer.Data.TextReplacement
import WiredServer.Lib.Cutting

/-! Reading a socket up to a separator. What is read past the separator stays in the buffer of the
socket for the next call. The texts that the calls return do not depend on how the stream is cut into
chunks, and the end of the stream gives an empty text, whatever is left in the buffer.
-/

namespace WiredServer.Net

open Bytes Cutting Data Rewriting

-----------------------------------------------------------------------------------------
-- Data model
-----------------------------------------------------------------------------------------

/-- `_WI_SOCKET_BUFFER_MAX_SIZE`. -/
def socketBufferMaxSize : ℕ := 262144

/-- What the stream delivers at once: some bytes, no more than fit the buffer of
`WI_SOCKET_BUFFER_SIZE` bytes that they are read into.
-/
structure Chunk (bufferSize : ℕ) where
  bytes : Block
  nonempty : bytes ≠ []
  fits : bytes.length ≤ bufferSize

/-- A socket (`wi_socket_t`): the bytes that have been read ahead, and what its stream still delivers.
-/
structure Socket (bufferSize : ℕ) where
  buffer : Block
  stream : List (Chunk bufferSize)

variable {bufferSize : ℕ}

/-- The bytes of a stream. -/
def bytesOf (stream : List (Chunk bufferSize)) : Block :=
  stream.flatMap Chunk.bytes

-----------------------------------------------------------------------------------------
-- Functions
-----------------------------------------------------------------------------------------

/-- The options of the search: none. -/
def exactly : SearchOptions := ⟨false, false, false⟩

/-- `wi_string_index_of_string` with no options. -/
def indexOfString (string otherstring : Block) : Option (Option ℕ) :=
  indexOfStringInRange string otherstring exactly 0 string.length

/-- `wi_string_substring_to_index`. An assertion that does not hold ends the process, and there is no
result.
-/
def substringToIndex (string : Block) (index : ℕ) : Option Block :=
  if index ≤ string.length then some (string.take index) else none

/-- The text up to a separator that has been found in the buffer, and the buffer without it. -/
def takeSubstring (separator buffer : Block) (index : ℕ) : Option (Block × Block) := do
  let substring ← substringToIndex buffer (index + separator.length)
  let buffer ← deleteCharacters buffer 0 substring.length
  some (substring, buffer)

/-- The loop of `wi_socket_read_to_string`. At the end of the stream `wi_socket_read_string` has an empty
string; `NULL` is `none`.
-/
def readChunks (separator buffer : Block) : List (Chunk bufferSize)
    → Option (Option Block × Socket bufferSize)
  | [] => some (some [], ⟨buffer, []⟩)
  | string :: stream => do
      let buffer := buffer ++ cstring string.bytes
      match ← indexOfString buffer separator with
      | none =>
          if buffer.length > socketBufferMaxSize then some (none, ⟨[], stream⟩)
          else readChunks separator buffer stream
      | some index =>
          let (substring, buffer) ← takeSubstring separator buffer index
          some (some substring, ⟨buffer, stream⟩)

/-- `wi_socket_read_to_string`. -/
def readToString (separator : Block) (socket : Socket bufferSize)
    : Option (Option Block × Socket bufferSize) := do
  match ← indexOfString socket.buffer separator with
  | some index =>
      let (substring, buffer) ← takeSubstring separator socket.buffer index
      some (some substring, { socket with buffer })
  | none => readChunks separator socket.buffer socket.stream

/-- The results of so many calls of `wi_socket_read_to_string` in a row. -/
def readStrings (separator : Block) : ℕ → Socket bufferSize
    → Option (List (Option Block) × Socket bufferSize)
  | 0, socket => some ([], socket)
  | calls + 1, socket => do
      let (string, socket) ← readToString separator socket
      let (strings, socket) ← readStrings separator calls socket
      some (string :: strings, socket)

-----------------------------------------------------------------------------------------
-- One call
-----------------------------------------------------------------------------------------

variable {separator buffer : Block}

/-- A search without options has the first place. -/
theorem indexOfString_eq (nonempty : separator ≠ []) (separatorFree : 0 ∉ separator)
    {string : Block} (zeroFree : 0 ∉ string)
    : indexOfString string separator = some (firstPlace id separator string) :=
  indexOf_whole zeroFree separatorFree nonempty rfl

/-- The text up to a separator in the buffer is taken out of it. -/
theorem takeSubstring_eq {index : ℕ} (inside : index + separator.length ≤ buffer.length)
    : takeSubstring separator buffer index
      = some (buffer.take (index + separator.length), buffer.drop (index + separator.length)) := by
  have long : (buffer.take (index + separator.length)).length = index + separator.length :=
    List.length_take_of_le inside
  have substring : substringToIndex buffer (index + separator.length)
      = some (buffer.take (index + separator.length)) :=
    if_pos inside
  have deleted : deleteCharacters buffer 0 (index + separator.length)
      = some (buffer.drop (index + separator.length)) := by
    rw [deleteCharacters, if_pos ⟨Nat.zero_le _, by omega⟩, List.take_zero, Nat.zero_add]
    rfl
  simp only [takeSubstring, substring, long, deleted, bind, Option.bind_some]

/-- A place of the separator and the separator behind it are inside the buffer. -/
theorem place_le (nonempty : separator ≠ []) {index : ℕ}
    (found : firstPlace id separator buffer = some index)
    : index + separator.length ≤ buffer.length := by
  have first := @firstPlace_isFirst _ _ _ id separator nonempty buffer
  rw [found] at first
  have bound := Occurrences.OccursAt.length_le first.1
  have long := List.length_pos_of_ne_nil nonempty
  omega

/-- No byte that is left is zero. -/
structure ZeroFree (socket : Socket bufferSize) : Prop where
  buffer : 0 ∉ socket.buffer
  stream : ∀ string ∈ socket.stream, 0 ∉ string.bytes

/-- The pieces of the bytes that are left, and the rest behind them. -/
def left (separator : Block) (socket : Socket bufferSize) : List Block × Block :=
  cut separator [] (socket.buffer ++ bytesOf socket.stream)

/-- Neither a piece nor the rest is too long for the buffer. -/
structure Fits (remaining : List Block × Block) : Prop where
  pieces : ∀ piece ∈ remaining.1, piece.length ≤ socketBufferMaxSize
  rest : remaining.2.length ≤ socketBufferMaxSize

/-- A call returns the first of the pieces and leaves the others, or an empty text if there is none. -/
inductive Answers (separator : Block)
    : List Block × Block → Option Block → Socket bufferSize → Prop where
  | piece {piece rest : Block} {pieces : List Block} {socket : Socket bufferSize}
      (remain : left separator socket = (pieces, rest)) (zeroFree : ZeroFree socket)
      : Answers separator (piece :: pieces, rest) (some piece) socket
  | finish {rest : Block}
      : Answers separator ([], rest) (some []) ⟨rest, []⟩

/-- A separator that is found in the buffer ends the first piece. -/
theorem answers_takeSubstring (nonempty : separator ≠ []) {stream : List (Chunk bufferSize)}
    (zeroFree : ZeroFree ⟨buffer, stream⟩) {index : ℕ}
    (found : firstPlace id separator buffer = some index)
    : ∃ substring rest, takeSubstring separator buffer index = some (substring, rest)
      ∧ Answers separator (left separator ⟨buffer, stream⟩) (some substring) ⟨rest, stream⟩ := by
  refine ⟨_, _, takeSubstring_eq (place_le nonempty found), ?_⟩
  rw [left, cut_append_of_some nonempty found]
  exact .piece rfl ⟨fun mem => zeroFree.buffer (List.mem_of_mem_drop mem), zeroFree.stream⟩

/-- The loop reads on until the buffer has the separator, by induction on what the stream delivers. The
buffer without a separator is the front of a piece, so it is not too long.
-/
theorem readChunks_answers (nonempty : separator ≠ []) (separatorFree : 0 ∉ separator)
    {stream : List (Chunk bufferSize)} (zeroFree : ZeroFree ⟨buffer, stream⟩)
    (fits : Fits (left separator ⟨buffer, stream⟩))
    (clean : firstPlace id separator buffer = none)
    : ∃ result socket, readChunks separator buffer stream = some (result, socket)
      ∧ Answers separator (left separator ⟨buffer, stream⟩) result socket := by
  induction stream generalizing buffer with
  | nil =>
      refine ⟨_, _, rfl, ?_⟩
      rw [left, bytesOf, List.flatMap_nil, List.append_nil, cut_of_none nonempty clean]
      exact .finish
  | cons string stream ih =>
      have stringFree := zeroFree.stream string List.mem_cons_self
      have streamFree : ∀ other ∈ stream, 0 ∉ other.bytes := fun other mem =>
        zeroFree.stream other (List.mem_cons_of_mem string mem)
      have bufferFree : 0 ∉ buffer ++ string.bytes := by
        rw [List.mem_append, not_or]
        exact ⟨zeroFree.buffer, stringFree⟩
      have same : left separator ⟨buffer, string :: stream⟩
          = left separator ⟨buffer ++ string.bytes, stream⟩ := by
        simp only [left, bytesOf, List.flatMap_cons, List.append_assoc]
      rw [same] at fits ⊢
      rw [readChunks, cstring_of_zero_notMem stringFree]
      simp only [indexOfString_eq nonempty separatorFree bufferFree, bind, Option.bind_some]
      cases found : firstPlace id separator (buffer ++ string.bytes) with
      | none =>
          have short : (buffer ++ string.bytes).length ≤ socketBufferMaxSize := by
            rw [left, cut_append_of_none nonempty found] at fits
            exact length_front_le fits.pieces fits.rest
          rw [if_neg (not_lt.mpr short)]
          exact ih ⟨bufferFree, streamFree⟩ fits found
      | some index =>
          obtain ⟨substring, rest, taken, answers⟩ :=
            answers_takeSubstring nonempty ⟨bufferFree, streamFree⟩ found
          simp only [taken, Option.bind_some]
          exact ⟨_, _, rfl, answers⟩

/-- A call returns the first piece of the bytes that are left. -/
theorem readToString_answers (nonempty : separator ≠ []) (separatorFree : 0 ∉ separator)
    {socket : Socket bufferSize} (zeroFree : ZeroFree socket) (fits : Fits (left separator socket))
    : ∃ result next, readToString separator socket = some (result, next)
      ∧ Answers separator (left separator socket) result next := by
  rw [readToString]
  simp only [indexOfString_eq nonempty separatorFree zeroFree.buffer, bind, Option.bind_some]
  cases found : firstPlace id separator socket.buffer with
  | none => exact readChunks_answers nonempty separatorFree zeroFree fits found
  | some index =>
      obtain ⟨substring, rest, taken, answers⟩ := answers_takeSubstring nonempty zeroFree found
      simp only [taken, Option.bind_some]
      exact ⟨_, _, rfl, answers⟩

-----------------------------------------------------------------------------------------
-- Calls in a row
-----------------------------------------------------------------------------------------

/-- Calls in a row return the pieces that are left and then an empty text, by induction on the pieces. -/
theorem readStrings_left (nonempty : separator ≠ []) (separatorFree : 0 ∉ separator)
    {socket : Socket bufferSize} (zeroFree : ZeroFree socket) {pieces : List Block} {rest : Block}
    (remain : left separator socket = (pieces, rest)) (fits : Fits (pieces, rest))
    : readStrings separator (pieces.length + 1) socket
      = some (pieces.map some ++ [some []], ⟨rest, []⟩) := by
  induction pieces generalizing socket with
  | nil =>
      obtain ⟨result, next, ran, answers⟩ :=
        readToString_answers nonempty separatorFree zeroFree (remain ▸ fits)
      rw [remain] at answers
      cases answers
      simp only [readStrings, List.length_nil, ran, bind, Option.bind_some, List.map_nil,
        List.nil_append]
  | cons piece pieces ih =>
      obtain ⟨result, next, ran, answers⟩ :=
        readToString_answers nonempty separatorFree zeroFree (remain ▸ fits)
      rw [remain] at answers
      cases answers with
      | piece remainNext zeroFreeNext =>
          have later := ih zeroFreeNext remainNext
            ⟨fun other mem => fits.pieces other (List.mem_cons_of_mem piece mem), fits.rest⟩
          rw [List.length_cons, readStrings]
          simp only [ran, bind, Option.bind_some, later, List.map_cons, List.cons_append]

/-- For every stream without zero bytes in whatever chunks, calls in a row return the pieces of the
stream, each cut behind its first separator, and then an empty text for the end of the stream. The bytes
behind the last separator stay in the buffer.
-/
theorem readStrings_eq (nonempty : separator ≠ []) (separatorFree : 0 ∉ separator)
    {stream : List (Chunk bufferSize)} (zeroFree : ∀ string ∈ stream, 0 ∉ string.bytes)
    {pieces : List Block} {rest : Block} (isCut : cut separator [] (bytesOf stream) = (pieces, rest))
    (fits : ∀ piece ∈ rest :: pieces, piece.length ≤ socketBufferMaxSize)
    : readStrings separator (pieces.length + 1) ⟨[], stream⟩
        = some (pieces.map some ++ [some []], ⟨rest, []⟩)
      ∧ pieces.flatten ++ rest = bytesOf stream
      ∧ (∀ piece ∈ pieces, ∃ front,
        piece = front ++ separator ∧ firstPlace id separator piece = some front.length)
      ∧ firstPlace id separator rest = none := by
  have remain : left separator ⟨[], stream⟩ = (pieces, rest) := isCut
  have flat := @flatten_cut _ _ separator [] (bytesOf stream)
  have places := firstPlace_of_cut nonempty (bytesOf stream)
  rw [isCut] at flat places
  refine ⟨readStrings_left nonempty separatorFree ⟨List.not_mem_nil, zeroFree⟩ remain ?_, flat,
    places.1, places.2⟩
  exact ⟨fun piece mem => fits piece (List.mem_cons_of_mem rest mem), fits rest List.mem_cons_self⟩

/-- A line break that two chunks share, two lines in one chunk and a line that does not end. -/
theorem readStrings_eq_lines
    : readStrings [13, 10] 4 (⟨[], [
          ⟨[65, 13], by decide, by decide⟩, ⟨[10, 66, 13, 10, 13, 10, 67], by decide, by decide⟩]⟩
        : Socket 8)
      = some ([some [65, 13, 10], some [66, 13, 10], some [13, 10], some []], ⟨[67], []⟩) :=
  (readStrings_eq (by decide) (by decide) (by decide) rfl (by decide)).1

/-- All pieces of a text, with the one that no separator ends. -/
def piecesOf (separator text : Block) : List Block :=
  (cut separator [] text).1
    ++ if (cut separator [] text).2 = [] then [] else [(cut separator [] text).2]

/-- The only piece of a stream of one byte is not returned: no separator ends it. -/
theorem not_readStrings_unterminated
    : ¬∀ stream : List (Chunk 8), (∀ string ∈ stream, 0 ∉ string.bytes) →
      (∀ piece ∈ piecesOf [10] (bytesOf stream), piece.length ≤ socketBufferMaxSize) →
      (readStrings [10] ((piecesOf [10] (bytesOf stream)).length + 1) ⟨[], stream⟩).map Prod.fst
        = some ((piecesOf [10] (bytesOf stream)).map some ++ [some []]) := by
  intro all
  have returned := all [⟨[65], by decide, by decide⟩] (by decide) (by decide)
  exact absurd returned (by decide)

end WiredServer.Net
