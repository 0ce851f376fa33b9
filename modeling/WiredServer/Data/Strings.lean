import Mathlib
import WiredServer.Base.Capacities
import WiredServer.Lib.Bytes
import WiredServer.Lib.Loop
import WiredServer.Lib.Machine
import WiredServer.Lib.Slots

/-! Strings: a block of bytes with a capacity, of which the first `length` are in use and a zero byte
follows. Every access is checked against the allocated block. The functions here are those that
write; formats, encodings and the other functions on paths call them one after the other.
-/

namespace WiredServer.Data

open Bytes Loop

-----------------------------------------------------------------------------------------
-- Data model
-----------------------------------------------------------------------------------------

/-- `_WI_STRING_MIN_SIZE`. -/
def stringMinSize : ℕ := 256

/-- A mutable string (`wi_string_t`) and the block that its pointer points to. -/
structure WiString where
  block : Block
  length : ℕ
  capacity : ℕ
  free : Bool
deriving DecidableEq

/-- The capacity that is allocated for so many bytes. -/
def capacityFor (length : ℕ) : ℕ :=
  max (exp2m1 (log2 length + 1)) stringMinSize

namespace WiString

/-- `wi_string_init_with_capacity`. -/
def initWithCapacity (capacity : ℕ) : WiString where
  block := List.replicate (capacityFor capacity) 0
  length := 0
  capacity := capacityFor capacity
  free := true

/-- The bytes that are in use. -/
def contents (string : WiString) : Block :=
  string.block.take string.length

/-- The bytes in front of the first zero byte, as C reads a string. -/
def cstring (string : WiString) : Access Block :=
  if 0 ∈ string.block then .ok (string.block.takeWhile (· ≠ 0)) else .error .outside

/-- Whether `_WI_STRING_GROW` grows the block for so many more bytes. -/
def Grows (string : WiString) (count : ℕ) : Prop :=
  string.length + count ≥ string.capacity

instance (string : WiString) (count : ℕ) : Decidable (string.Grows count) :=
  inferInstanceAs (Decidable (_ ≥ _))

/-- `_wi_string_grow`. Memory that `realloc` adds holds any bytes. -/
def grow (junk : UInt8) (string : WiString) (capacity : ℕ) : WiString :=
  if string.free then
    { string with
      block := Slots.resize junk string.block (capacityFor capacity)
      capacity := capacityFor capacity }
  else
    { string with
      block := List.replicate (capacityFor capacity) 0
      capacity := capacityFor capacity
      free := true }

/-- `_WI_STRING_GROW`. -/
def withRoom (junk : UInt8) (string : WiString) (count : ℕ) : WiString :=
  if string.Grows count then string.grow junk (string.length + count) else string

/-- Whether bytes that stand in the block of the string itself are freed when it grows. -/
def Frees (string : WiString) (own : Bool) (count : ℕ) : Prop :=
  own = true ∧ string.free = true ∧ string.Grows count

instance (string : WiString) (own : Bool) (count : ℕ) : Decidable (string.Frees own count) :=
  inferInstanceAs (Decidable (_ ∧ _))

-----------------------------------------------------------------------------------------
-- Functions that write
-----------------------------------------------------------------------------------------

/-- `_wi_string_append_bytes`. The bytes may be the string's own. -/
def appendBytes (junk : UInt8) (string : WiString) (bytes : Block) (own : Bool)
    : Access WiString := do
  if string.Frees own bytes.length then .error .outside
  else
    let string := string.withRoom junk bytes.length
    let block ← inside (overwrite string.block string.length bytes)
    let block ← inside (overwrite block (string.length + bytes.length) [0])
    .ok { string with block, length := string.length + bytes.length }

/-- The bytes that are inserted, read again if they are the string's own and its block has not been
replaced.
-/
def insertedBytes (block bytes : Block) (again : Bool) : Access Block :=
  if again then inside (slice block 0 bytes.length) else .ok bytes

/-- `wi_mutable_string_insert_cstring_at_index`. A function whose assertion does not hold ends the
process and has no string.
-/
def insertCstringAtIndex (junk : UInt8) (string : WiString) (bytes : Block) (own : Bool) (index : ℕ)
    : Access (Option WiString) := do
  if index ≤ string.length then
    if string.Frees own bytes.length then .error .outside
    else
      let again := own && !decide (string.Grows bytes.length)
      let string := string.withRoom junk bytes.length
      let tail ← inside (slice string.block index string.length)
      let block ← inside (overwrite string.block (index + bytes.length) tail)
      let bytes ← insertedBytes block bytes again
      let block ← inside (overwrite block index bytes)
      let block ← inside (overwrite block (string.length + bytes.length) [0])
      .ok (some { string with block, length := string.length + bytes.length })
  else .ok none

/-- The block after `wi_mutable_string_delete_characters_in_range` has moved the rest of the bytes. -/
def closeGap (string : WiString) (location length : ℕ) : Access Block :=
  if location + length < string.length then do
    let tail ← inside
      (slice string.block (location + length) (string.length - location - length))
    inside (overwrite string.block location tail)
  else .ok string.block

/-- `wi_mutable_string_delete_characters_in_range`. -/
def deleteCharactersInRange (string : WiString) (location length : ℕ)
    : Access (Option WiString) := do
  if location ≤ string.length ∧ location + length ≤ string.length then
    let block ← string.closeGap location length
    let block ← inside (overwrite block (string.length - length) [0])
    .ok (some { string with block, length := string.length - length })
  else .ok none

/-- `wi_mutable_string_set_cstring`. -/
def setCstring (junk : UInt8) (string : WiString) (bytes : Block) (own : Bool)
    : Access WiString := do
  if own then .ok string
  else
    let block ← inside (overwrite string.block 0 [0])
    { string with block, length := 0 }.appendBytes junk bytes false

/-- `wi_string_init_with_bytes` and `wi_string_init_with_cstring`. -/
def initWithBytes (junk : UInt8) (bytes : Block) : Access WiString :=
  (initWithCapacity bytes.length).appendBytes junk bytes false

/-- `wi_string_init_with_bytes_no_copy` and `wi_string_init_with_cstring_no_copy`. The buffer may be
smaller than the capacity.
-/
def initNoCopy (buffer : Block) (size : ℕ) (free : Bool) : WiString where
  block := buffer.take (size + 1)
  length := size
  capacity := size + 1
  free := free

/-- `wi_string_init_with_random_bytes`. -/
def initWithRandomBytes (bytes : Block) : Access WiString := do
  let string := initWithCapacity bytes.length
  let block ← inside (overwrite string.block 0 bytes)
  .ok { string with block, length := bytes.length }

/-- The loop of `wi_string_lowercase_string` and `wi_string_uppercase_string`. -/
def changeCase (string : WiString) (change : UInt8 → UInt8) : Access WiString := do
  let bytes ← inside (slice string.block 0 string.length)
  let block ← inside (overwrite string.block 0 (bytes.map change))
  .ok { string with block }

end WiString

-----------------------------------------------------------------------------------------
-- Calls
-----------------------------------------------------------------------------------------

/-- The strings of a process. -/
abbrev Strings := ℕ → WiString

/-- Where bytes are read from: given ones, or those of a string up to its first zero byte. -/
inductive Source where
  | bytes (given : Block)
  | string (number : ℕ)

/-- The bytes of a source. -/
def Source.read (strings : Strings) : Source → Access Block
  | .bytes given => .ok given
  | .string number => (strings number).cstring

/-- Whether a source is the string itself. -/
def Source.isOwn (target : ℕ) : Source → Bool
  | .bytes _ => false
  | .string number => number == target

/-- A call of a function that writes a string. -/
inductive StringCall where
  | initWithCapacity (capacity : ℕ)
  | initWithBytes (source : Source)
  | initNoCopy (buffer : Block) (size : ℕ) (free : Bool)
  | initWithRandomBytes (bytes : Block)
  | append (source : Source)
  | insert (source : Source) (index : ℕ)
  | delete (location length : ℕ)
  | set (source : Source)
  | changeCase (change : UInt8 → UInt8)

namespace StringCall

/-- The string after a call. -/
def onString (junk : UInt8) (strings : Strings) (target : ℕ) : StringCall → Access (Option WiString)
  | .initWithCapacity capacity => .ok (some (WiString.initWithCapacity capacity))
  | .initWithBytes source => do
      let bytes ← source.read strings
      let next ← WiString.initWithBytes junk bytes
      .ok (some next)
  | .initNoCopy buffer size free => .ok (some (WiString.initNoCopy buffer size free))
  | .initWithRandomBytes bytes => do
      let next ← WiString.initWithRandomBytes bytes
      .ok (some next)
  | .append source => do
      let bytes ← source.read strings
      let next ← (strings target).appendBytes junk bytes (source.isOwn target)
      .ok (some next)
  | .insert source index => do
      let bytes ← source.read strings
      (strings target).insertCstringAtIndex junk bytes (source.isOwn target) index
  | .delete location length => (strings target).deleteCharactersInRange location length
  | .set source => do
      let bytes ← source.read strings
      let next ← (strings target).setCstring junk bytes (source.isOwn target)
      .ok (some next)
  | .changeCase change => do
      let next ← (strings target).changeCase change
      .ok (some next)

/-- A call on one of the strings. It is impossible if it ends the process or leaves a block. -/
def step (junk : UInt8) (call : ℕ × StringCall) (strings : Strings) : Option Strings :=
  match call.2.onString junk strings call.1 with
  | .ok (some next) => some (Function.update strings call.1 next)
  | _ => none

end StringCall

-----------------------------------------------------------------------------------------
-- Operations
-----------------------------------------------------------------------------------------

/-- An operation that makes one or more calls. -/
inductive StringOperation where
  /-- A call by itself. -/
  | direct (target : ℕ) (call : StringCall)
  /-- `wi_mutable_string_append_format`, with the texts that the format puts together. -/
  | appendFormat (target : ℕ) (pieces : List Source)
  /-- `wi_mutable_string_set_format`, with the number of the string that it makes on the way. -/
  | setFormat (target other : ℕ) (pieces : List Source)
  /-- `wi_mutable_string_replace_characters_in_range_with_string`. -/
  | replace (target location length : ℕ) (source : Source)
  /-- `wi_mutable_string_delete_characters_from_index`. -/
  | deleteFromIndex (target index : ℕ)
  /-- `wi_mutable_string_delete_characters_to_index`. -/
  | deleteToIndex (target index : ℕ)
  /-- `wi_mutable_string_delete_surrounding_whitespace`. -/
  | deleteSurroundingWhitespace (target : ℕ)
  /-- `wi_mutable_string_append_path_component`, with the number of the other string. -/
  | appendPathComponent (target component : ℕ)
  /-- `wi_mutable_string_append_path_extension`. -/
  | appendPathExtension (target extension : ℕ)
  /-- `wi_mutable_string_delete_path_extension`. -/
  | deletePathExtension (target : ℕ)
  /-- `wi_string_lowercase_string` and `wi_string_uppercase_string`. -/
  | changedCase (target source : ℕ) (change : UInt8 → UInt8)

/-- `_wi_mutable_string_char_is_whitespace`. -/
def isWhitespace (byte : UInt8) : Bool :=
  byte = 32 || byte = 9 || byte = 10

/-- A slash. -/
def slash : UInt8 := 47

/-- A dot. -/
def dot : UInt8 := 46

namespace StringOperation

/-- The calls that delete the whitespace in front of some bytes and behind them. -/
def whitespaceCalls (target : ℕ) (bytes : Block) : List (ℕ × StringCall) :=
  let behind := bytes.dropWhile isWhitespace
  List.replicate (bytes.takeWhile isWhitespace).length (target, .delete 0 1)
    ++ (List.range (behind.reverse.takeWhile isWhitespace).length).map
      fun deleted => (target, .delete (behind.length - deleted - 1) 1)

/-- The calls that append a path component to a path. -/
def pathComponentCalls (target source : ℕ) (path component : Block) : List (ℕ × StringCall) :=
  if path = [] then [(target, .append (.string source))]
  else if path.getLast? = some slash then
    (if component.head? = some slash then [(target, .delete (path.length - 1) 1)] else [])
      ++ [(target, .append (.string source))]
  else if component.takeWhile (· ≠ 0) = [slash] then []
  else [(target, .append (.bytes [slash])), (target, .append (.string source))]

/-- The calls that delete the extension of a path. -/
def pathExtensionCalls (target : ℕ) (path : Block) : List (ℕ × StringCall) :=
  if dot ∈ path.takeWhile (· ≠ 0) then
    let index := (path.takeWhile (· ≠ 0)).length
      - ((path.takeWhile (· ≠ 0)).reverse.takeWhile (· ≠ dot)).length - 1
    [(target, .delete index (path.length - index))]
  else []

/-- The calls that an operation makes. -/
def calls (strings : Strings) : StringOperation → List (ℕ × StringCall)
  | .direct target call => [(target, call)]
  | .appendFormat target pieces => pieces.map fun piece => (target, .append piece)
  | .setFormat target other pieces =>
      (other, .initWithCapacity 0) :: pieces.map (fun piece => (other, .append piece))
        ++ [(target, .set (.string other))]
  | .replace target location length source =>
      [(target, .delete location length), (target, .insert source location)]
  | .deleteFromIndex target index =>
      [(target, .delete index ((strings target).length - index))]
  | .deleteToIndex target index => [(target, .delete 0 index)]
  | .deleteSurroundingWhitespace target => whitespaceCalls target (strings target).contents
  | .appendPathComponent target component =>
      pathComponentCalls target component (strings target).contents (strings component).contents
  | .appendPathExtension target extension =>
      [(target, .append (.bytes [dot])), (target, .append (.string extension))]
  | .deletePathExtension target => pathExtensionCalls target (strings target).contents
  | .changedCase target source change =>
      [(target, .initWithBytes (.string source)), (target, .changeCase change)]

/-- The calls that operations make one after the other, up to one that ends the process or leaves a
block.
-/
def trace (junk : UInt8) : List StringOperation → Strings → List (ℕ × StringCall)
  | [], _ => []
  | operation :: operations, strings =>
      operation.calls strings
        ++ match Machine.run (StringCall.step junk) (operation.calls strings) strings with
          | some next => trace junk operations next
          | none => []

end StringOperation

end WiredServer.Data
