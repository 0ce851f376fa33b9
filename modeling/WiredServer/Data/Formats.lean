import Mathlib
import WiredServer.Data.TextEdits
import WiredServer.Data.TextSearch
import WiredServer.Lib.QuotedTokens

/-! Formatted strings: the loop over the directives of a format, and the directives that write a text
into a statement with its quotes doubled.
-/

namespace WiredServer.Data

open Bytes Occurrences QuotedTokens

-----------------------------------------------------------------------------------------
-- Doubling quotes
-----------------------------------------------------------------------------------------

/-- What replaces a range is inside the string. -/
theorem length_of_replaceCharacters {string replacement next : Block} {location length : ℕ}
    (replaced : replaceCharacters string location length replacement = some next)
    : location + length ≤ string.length
      ∧ next.length + length = string.length + (cstring replacement).length := by
  obtain ⟨deleted, cut, inserted⟩ := Option.bind_eq_some_iff.mp replaced
  unfold deleteCharacters at cut
  unfold insertString at inserted
  split at cut
  · rename_i inside
    cases cut
    split at inserted
    · cases inserted
      refine ⟨inside.2, ?_⟩
      simp only [List.length_append, List.length_take, List.length_drop]
      omega
    · cases inserted
  · cases cut

/-- A search finds nothing in front of its range. -/
theorem location_le_of_indexOf {string needle : Block} {options : SearchOptions}
    {location length index : ℕ}
    (found : indexOfStringInRange string needle options location length = some (some index))
    : location ≤ index := by
  unfold indexOfStringInRange at found
  split at found
  · split at found
    · cases found
    · obtain ⟨offset, -, same⟩ := Option.bind_eq_some_iff.mp (Option.some.inj found)
      dsimp only at same
      split at same
      · cases same
      · cases same
        exact Nat.le_add_right _ _
  · cases found

/-- The loop of `_wi_string_sqlite3_escaped_string`, from a place in the new string on. The string is
missing if an assertion ends the process.
-/
def escapeFrom (newstring : Block) (location : ℕ) : Option Block :=
  match _search : indexOfStringInRange newstring [quote] ⟨false, false, false⟩ location
      (newstring.length - location) with
  | none => none
  | some none => some newstring
  | some (some index) =>
      match _replaced : replaceCharacters newstring index 1 [quote, quote] with
      | none => none
      | some next => escapeFrom next (index + 2)
termination_by newstring.length - location
decreasing_by
  have behind := location_le_of_indexOf _search
  obtain ⟨inside, longer⟩ := length_of_replaceCharacters _replaced
  have two : (cstring [quote, quote]).length = 2 := by decide
  omega

/-- The loop ends where it finds no quote. -/
theorem escapeFrom_of_none {newstring : Block} {location : ℕ}
    (search : indexOfStringInRange newstring [quote] ⟨false, false, false⟩ location
      (newstring.length - location) = some none)
    : escapeFrom newstring location = some newstring := by
  rw [escapeFrom]
  split <;> simp_all

/-- The loop goes on behind a quote that it has doubled. -/
theorem escapeFrom_of_some {newstring next : Block} {location index : ℕ}
    (search : indexOfStringInRange newstring [quote] ⟨false, false, false⟩ location
      (newstring.length - location) = some (some index))
    (replaced : replaceCharacters newstring index 1 [quote, quote] = some next)
    : escapeFrom newstring location = escapeFrom next (index + 2) := by
  rw [escapeFrom]
  split
  · simp_all
  · simp_all
  · rename_i other search'
    obtain rfl : index = other := Option.some.inj (Option.some.inj (search.symm.trans search'))
    split <;> simp_all

/-- `_wi_string_sqlite3_escaped_string`. -/
def sqlite3EscapedString (string : Block) : Option Block :=
  escapeFrom (cstring string) 0

/-- The search for a quote finds the first one behind the part that is finished. -/
theorem indexOf_quote {finished front rest : Block} (finishedFree : 0 ∉ finished)
    (frontFree : 0 ∉ front) (restFree : 0 ∉ rest) (first : quote ∉ front)
    : indexOfStringInRange (finished ++ (front ++ quote :: rest)) [quote] ⟨false, false, false⟩
        finished.length ((finished ++ (front ++ quote :: rest)).length - finished.length)
      = some (some (finished.length + front.length)) := by
  have wholeFree : 0 ∉ finished ++ (front ++ quote :: rest) := by
    simp only [List.mem_append, List.mem_cons, not_or]
    exact ⟨finishedFree, frontFree, by decide, restFree⟩
  obtain ⟨result, found, least⟩ := @indexOf_forwards (finished ++ (front ++ quote :: rest)) [quote]
    wholeFree (by decide) (by decide) ⟨false, false, false⟩ finished.length
    ((finished ++ (front ++ quote :: rest)).length - finished.length)
    (by simp) (by simp) rfl
  rw [found]
  have here : (finished ++ (front ++ quote :: rest))[finished.length + front.length]?
      = some quote := by
    rw [List.getElem?_append_right (by omega), List.getElem?_append_right (by omega)]
    simp
  refine congrArg _ (least.unique ⟨⟨Nat.le_add_right _ _, by simp, occursAt_singleton.mpr here⟩, ?_⟩)
  rintro place ⟨behind, -, occurs⟩
  by_contra before
  have stands := occursAt_singleton.mp occurs
  rw [List.getElem?_append_right behind, List.getElem?_append_left (by omega)] at stands
  exact first (List.mem_of_getElem? stands)

/-- The search for a quote finds nothing behind the part that is finished if the rest has none. -/
theorem indexOf_noQuote {finished rest : Block} (finishedFree : 0 ∉ finished) (restFree : 0 ∉ rest)
    (none : quote ∉ rest)
    : indexOfStringInRange (finished ++ rest) [quote] ⟨false, false, false⟩
        finished.length ((finished ++ rest).length - finished.length)
      = some .none := by
  rcases Nat.eq_zero_or_pos rest.length with empty | nonempty
  · rw [indexOfStringInRange, if_pos (by simp), if_pos (by simp [empty])]
  have wholeFree : 0 ∉ finished ++ rest := by
    rw [List.mem_append, not_or]
    exact ⟨finishedFree, restFree⟩
  obtain ⟨result, found, least⟩ := @indexOf_forwards (finished ++ rest) [quote]
    wholeFree (by decide) (by decide) ⟨false, false, false⟩ finished.length
    ((finished ++ rest).length - finished.length) (by simp) (by simpa using nonempty) rfl
  rw [found]
  refine congrArg _ (least.unique ?_)
  rintro place ⟨behind, -, occurs⟩
  have stands := occursAt_singleton.mp occurs
  rw [List.getElem?_append_right behind] at stands
  exact none (List.mem_of_getElem? stands)

/-- Behind the part that is finished, the loop doubles the quotes, by induction on the length of the
rest.
-/
theorem escapeFrom_eq {finished rest : Block} (finishedFree : 0 ∉ finished) (restFree : 0 ∉ rest)
    : escapeFrom (finished ++ rest) finished.length = some (finished ++ doubled rest) := by
  induction length : rest.length using Nat.strong_induction_on generalizing finished rest with
  | _ count ih =>
      by_cases quoted : quote ∈ rest
      · obtain ⟨front, behind, rfl, first⟩ := List.eq_append_cons_of_mem quoted
        simp only [List.mem_append, List.mem_cons, not_or] at restFree
        obtain ⟨frontFree, -, behindFree⟩ := restFree
        have found := indexOf_quote finishedFree frontFree behindFree first
        have replaced : replaceCharacters (finished ++ (front ++ quote :: behind))
            (finished.length + front.length) 1 [quote, quote]
            = some (finished ++ front ++ [quote, quote] ++ behind) := by
          rw [replaceCharacters_eq (by simp) (by decide), ← List.append_assoc,
            ← List.length_append, List.take_left, List.drop_append]
          simp
        have longer : (finished ++ front ++ [quote, quote]).length
            = finished.length + front.length + 2 := by
          rw [List.length_append, List.length_append]
          rfl
        have free : 0 ∉ finished ++ front ++ [quote, quote] := by
          simp only [List.mem_append, not_or]
          exact ⟨⟨finishedFree, frontFree⟩, by decide⟩
        have shorter : behind.length < count := by
          rw [← length, List.length_append, List.length_cons]
          omega
        have next := ih behind.length shorter free behindFree rfl
        rw [longer] at next
        rw [escapeFrom_of_some found replaced, next, doubled_append, doubled_of_quote_notMem first]
        simp [doubled]
      · rw [escapeFrom_of_none (indexOf_noQuote finishedFree restFree quoted),
          doubled_of_quote_notMem quoted]

/-- The escaped string is the string with its quotes doubled. -/
theorem sqlite3EscapedString_eq {string : Block} (zeroFree : 0 ∉ string)
    : sqlite3EscapedString string = some (doubled string) := by
  rw [sqlite3EscapedString, cstring_of_zero_notMem zeroFree]
  exact escapeFrom_eq List.not_mem_nil zeroFree

-----------------------------------------------------------------------------------------
-- Formats
-----------------------------------------------------------------------------------------

/-- An argument of a format. -/
inductive FormatArgument where
  /-- An object, with its description. A null pointer has none. -/
  | instance (description : Option Block)
  /-- A number of any type. -/
  | scalar (value : ℤ)
  /-- A C string, which may be a null pointer. -/
  | cstring (text : Option Block)
  /-- Where a number is stored. -/
  | pointer
deriving DecidableEq

/-- What a directive does with the byte that comes next. -/
inductive Conversion where
  | alternative
  | describe
  | escape
  | escapeQuoted
  | flag
  | width
  | number
  | error
  | store
  | cstring
  | literal
deriving DecidableEq

/-- The cases of `_wi_string_append_arguments`. -/
def conversion (ch : UInt8) : Conversion :=
  let among (text : String) : Bool := (text.toList.map fun char => char.val.toUInt8).contains ch
  if among "#" then .alternative
  else if among "@" then .describe
  else if among "q" then .escape
  else if among "Q" then .escapeQuoted
  else if among " -+.'0123456789hjtlLz" then .flag
  else if among "*" then .width
  else if among "aAeEfgGcDdiOopUuXx" then .number
  else if among "m" then .error
  else if among "n" then .store
  else if among "s" then .cstring
  else .literal

/-- What the loop remembers of a directive that it is reading. -/
structure Directive where
  cfmt : Block
  alt : Bool
  star : Option FormatArgument

/-- What the loop appends: bytes, or a text with its quotes doubled. -/
inductive Piece where
  | text (bytes : Block)
  | escaped (string : Block)
deriving DecidableEq

/-- The functions of the C library that a format needs: what `printf` writes for a directive and its
arguments, and the text of the last error.
-/
structure Printer where
  print : Block → List FormatArgument → Block
  errorString : Block

/-- The bytes of a text in the source. -/
def ascii (text : String) : Block :=
  text.toList.map fun char => char.val.toUInt8

/-- The bytes of a text that is spelled out. -/
theorem ascii_ofList (chars : List Char)
    : ascii (String.ofList chars) = chars.map fun char => char.val.toUInt8 := by
  rw [ascii, String.toList_ofList]

/-- The loop of `_wi_string_append_arguments` from a byte of the format on. A call that has not the
arguments that its format takes is not among those that the sources make, and ends the loop.
-/
def appendArguments (printer : Printer) : Option Directive → Block → List FormatArgument → List Piece
  | _, [], _ => []
  | none, ch :: fmt, arguments =>
      if ch = 37 then appendArguments printer (some ⟨[ch], false, none⟩) fmt arguments
      else .text [ch] :: appendArguments printer none fmt arguments
  | some directive, ch :: fmt, arguments =>
      let cfmt := directive.cfmt ++ [ch]
      match conversion ch, arguments with
      | .alternative, _ =>
          appendArguments printer (some { directive with cfmt, alt := true }) fmt arguments
      | .flag, _ => appendArguments printer (some { directive with cfmt }) fmt arguments
      | .width, length :: arguments =>
          appendArguments printer (some { directive with cfmt, star := some length }) fmt arguments
      | .describe, .instance (some description) :: arguments =>
          .text (cstring description) :: appendArguments printer none fmt arguments
      | .describe, .instance none :: arguments =>
          (if directive.alt then [] else [.text (ascii "(null)")])
            ++ appendArguments printer none fmt arguments
      | .escape, .instance (some description) :: arguments =>
          .escaped description :: appendArguments printer none fmt arguments
      | .escape, .instance none :: arguments =>
          .text (ascii "'(null)'") :: appendArguments printer none fmt arguments
      | .escapeQuoted, .instance (some description) :: arguments =>
          .text [quote] :: .escaped description :: .text [quote]
            :: appendArguments printer none fmt arguments
      | .escapeQuoted, .instance none :: arguments =>
          .text (ascii "NULL") :: appendArguments printer none fmt arguments
      | .number, argument :: arguments =>
          .text (printer.print cfmt (directive.star.toList ++ [argument]))
            :: appendArguments printer none fmt arguments
      | .error, arguments =>
          .text (cstring printer.errorString) :: appendArguments printer none fmt arguments
      | .store, _ :: arguments => appendArguments printer none fmt arguments
      | .cstring, .cstring (some text) :: arguments =>
          .text (printer.print cfmt (directive.star.toList ++ [.cstring (some text)]))
            :: appendArguments printer none fmt arguments
      | .cstring, .cstring none :: arguments =>
          (if directive.alt then [] else [.text (ascii "(null)")])
            ++ appendArguments printer none fmt arguments
      | .literal, _ => .text [ch] :: appendArguments printer none fmt arguments
      | _, _ => []

/-- What is written for a piece. -/
def Piece.written : Piece → Option Block
  | .text bytes => some bytes
  | .escaped string => sqlite3EscapedString string

/-- `wi_string_with_format`. -/
def stringWithFormat (printer : Printer) (fmt : Block) (arguments : List FormatArgument)
    : Option Block :=
  ((appendArguments printer none fmt arguments).mapM Piece.written).map List.flatten

-----------------------------------------------------------------------------------------
-- What a format writes
-----------------------------------------------------------------------------------------

/-- What a piece comes to. -/
def Piece.output : Piece → Block
  | .text bytes => bytes
  | .escaped string => doubled string

/-- The parts of a statement that a piece makes. -/
def Piece.symbols : Piece → List Symbol
  | .text bytes => QuotedTokens.symbols bytes
  | .escaped string => [.argument string]

/-- A text that is written with its quotes doubled has no zero byte. -/
def Piece.IsZeroFree : Piece → Prop
  | .text _ => True
  | .escaped string => 0 ∉ string

/-- The statement that a format makes, with the texts whose quotes are doubled as arguments. -/
def template (printer : Printer) (fmt : Block) (arguments : List FormatArgument) : List Symbol :=
  (appendArguments printer none fmt arguments).flatMap Piece.symbols

variable {printer : Printer} {fmt : Block} {arguments : List FormatArgument}

/-- A formatted string is what its pieces come to, one after the other. -/
theorem stringWithFormat_eq
    (zeroFree : ∀ piece ∈ appendArguments printer none fmt arguments, piece.IsZeroFree)
    : stringWithFormat printer fmt arguments
      = some ((appendArguments printer none fmt arguments).flatMap Piece.output) := by
  have written {pieces : List Piece} (zeroFree : ∀ piece ∈ pieces, piece.IsZeroFree)
      : pieces.mapM Piece.written = some (pieces.map Piece.output) := by
    induction pieces with
    | nil => rfl
    | cons piece pieces ih =>
        have rest := ih fun other mem => zeroFree other (List.mem_cons_of_mem piece mem)
        have first : piece.written = some piece.output := by
          cases piece with
          | text bytes => rfl
          | escaped string => exact sqlite3EscapedString_eq (zeroFree _ List.mem_cons_self)
        rw [List.mapM_cons, first, rest]
        rfl
  rw [stringWithFormat, written zeroFree, Option.map_some, List.flatMap_def]

/-- What is written for a statement with arguments is the formatted string. -/
theorem flatMap_written (pieces : List Piece)
    : (pieces.flatMap Piece.symbols).flatMap Symbol.written = pieces.flatMap Piece.output := by
  rw [List.flatMap_assoc]
  refine List.flatMap_congr fun piece _ => ?_
  cases piece with
  | text bytes =>
      simp [Piece.symbols, Piece.output, symbols, List.flatMap_map, Symbol.written]
  | escaped string => simp [Piece.symbols, Piece.output, Symbol.written]

/-- A formatted statement in which every text with doubled quotes stands inside of quotes has the
tokens of the statement with these texts in their places.
-/
theorem tokens_stringWithFormat
    (zeroFree : ∀ piece ∈ appendArguments printer none fmt arguments, piece.IsZeroFree)
    (quoted : Mode.outside.ArgumentsQuoted (template printer fmt arguments))
    : ∃ statement, stringWithFormat printer fmt arguments = some statement
      ∧ tokens (symbols statement)
        = (tokens (template printer fmt arguments)).map Token.denoted := by
  refine ⟨_, stringWithFormat_eq zeroFree, ?_⟩
  rw [← flatMap_written]
  exact tokens_written quoted

-----------------------------------------------------------------------------------------
-- Directives
-----------------------------------------------------------------------------------------

/-- Nothing is written at the end of a format. -/
@[simp] theorem appendArguments_nil {directive : Option Directive}
    : appendArguments printer directive [] arguments = [] := by
  cases directive <;> rfl

/-- A text without percent signs is written as it is. -/
theorem appendArguments_plain {text : Block} (free : 37 ∉ text) (fmt : Block)
    : appendArguments printer none (text ++ fmt) arguments
      = text.map (fun byte => .text [byte]) ++ appendArguments printer none fmt arguments := by
  induction text with
  | nil => rfl
  | cons byte text ih =>
      rw [List.mem_cons, not_or] at free
      have step : appendArguments printer none (byte :: (text ++ fmt)) arguments
          = if byte = 37 then
              appendArguments printer (some ⟨[byte], false, none⟩) (text ++ fmt) arguments
            else .text [byte] :: appendArguments printer none (text ++ fmt) arguments := rfl
      rw [List.cons_append, step, if_neg (Ne.symm free.1), ih free.2]
      rfl

/-- `%@` writes the description of an object. -/
theorem appendArguments_describe (description fmt : Block)
    : appendArguments printer none (37 :: 64 :: fmt) (.instance (some description) :: arguments)
      = .text (cstring description) :: appendArguments printer none fmt arguments := rfl

/-- `%@` writes a text of its own for a null pointer. -/
theorem appendArguments_describeNull (fmt : Block)
    : appendArguments printer none (37 :: 64 :: fmt) (.instance none :: arguments)
      = .text (ascii "(null)") :: appendArguments printer none fmt arguments := rfl

/-- `%q` writes the description of an object with its quotes doubled. -/
theorem appendArguments_escape (description fmt : Block)
    : appendArguments printer none (37 :: 113 :: fmt) (.instance (some description) :: arguments)
      = .escaped description :: appendArguments printer none fmt arguments := rfl

/-- `%u` writes a number. -/
theorem appendArguments_number (argument : FormatArgument) (fmt : Block)
    : appendArguments printer none (37 :: 117 :: fmt) (argument :: arguments)
      = .text (printer.print [37, 117] [argument]) :: appendArguments printer none fmt arguments := rfl

/-- `%%` writes a percent sign. -/
theorem appendArguments_percent (fmt : Block)
    : appendArguments printer none (37 :: 37 :: fmt) arguments
      = .text [37] :: appendArguments printer none fmt arguments := rfl

end WiredServer.Data
