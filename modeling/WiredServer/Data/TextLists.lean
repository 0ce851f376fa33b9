import Mathlib
import WiredServer.Lib.Bytes
import WiredServer.Lib.Joining

/-! Lists of texts that are stored as one text, with a separator between them. The tokenizer reads
the text as C does, byte after byte up to the zero byte behind it.
-/

namespace WiredServer.Data

open Bytes

-----------------------------------------------------------------------------------------
-- Texts in memory
-----------------------------------------------------------------------------------------

/-- The bytes in front of the first zero byte: what `strlen`, `strdup` and `strcpy` see of a text. -/
def cstring (text : Block) : Block :=
  text.takeWhile (· ≠ 0)

/-- A text as it stands in memory, up to its zero byte. -/
def terminated (text : Block) : Block :=
  cstring text ++ [0]

/-- Nothing is lost of a text without zero bytes. -/
theorem cstring_of_zero_notMem {text : Block} (zeroFree : 0 ∉ text)
    : cstring text = text := by
  rw [cstring, List.takeWhile_eq_self_iff]
  intro byte mem
  rw [decide_eq_true_eq]
  rintro rfl
  exact zeroFree mem

/-- What C sees of a text has no zero byte. -/
theorem zero_notMem_cstring (text : Block)
    : 0 ∉ cstring text := by
  intro mem
  have kept := List.mem_takeWhile_imp mem
  simp at kept

-----------------------------------------------------------------------------------------
-- Splitting
-----------------------------------------------------------------------------------------

/-- The inner loop of `wi_strsep`: whether a byte is one of the delimiters or the zero byte behind
them.
-/
def spans : Block → UInt8 → Bool
  | [], _ => false
  | sc :: span, c => sc = c || (sc ≠ 0 && spans span c)

/-- `wi_strsep` on memory from the token on: the token, and where the next one starts. -/
def strsep (delim : Block) : Block → Block × Option Block
  | [] => ([], none)
  | c :: s =>
      if spans delim c then ([], if c = 0 then none else some s)
      else ((c :: (strsep delim s).1), (strsep delim s).2)

/-- The next token starts later in memory. -/
theorem length_lt_of_strsep {delim s rest : Block} (next : (strsep delim s).2 = some rest)
    : rest.length < s.length := by
  induction s with
  | nil => cases next
  | cons c s ih =>
      rw [strsep] at next
      split at next
      · split at next
        · cases next
        · cases next
          exact Nat.lt_succ_self _
      · exact Nat.lt_succ_of_lt (ih next)

/-- The loop of `wi_string_components_separated_by_string`. -/
def componentsFrom (delim s : Block) : List Block :=
  match _next : (strsep delim s).2 with
  | none => [(strsep delim s).1]
  | some rest => (strsep delim s).1 :: componentsFrom delim rest
termination_by s.length
decreasing_by exact length_lt_of_strsep _next

/-- The components are the first token and those of the memory behind it. -/
theorem componentsFrom_of_strsep {delim s token : Block} {next : Option Block}
    (split : strsep delim s = (token, next))
    : componentsFrom delim s = token :: (next.map (componentsFrom delim)).getD [] := by
  rw [componentsFrom]
  split <;> simp_all

/-- `wi_string_components_separated_by_string`. Each byte of the separator separates. -/
def componentsSeparatedByString (string separator : Block) : List Block :=
  componentsFrom (terminated separator) (terminated string)

/-- The delimiters are the bytes of the separator and the zero byte. -/
theorem spans_terminated {separator : Block} {c : UInt8} (zeroFree : 0 ∉ separator)
    : spans (terminated separator) c = true ↔ c ∈ separator ∨ c = 0 := by
  rw [terminated, cstring_of_zero_notMem zeroFree]
  induction separator with
  | nil => simp [spans, eq_comm]
  | cons sc span ih =>
      rw [List.mem_cons, not_or] at zeroFree
      have rest := ih zeroFree.2
      simp only [List.cons_append, spans, Bool.or_eq_true, decide_eq_true_eq, Bool.and_eq_true,
        List.mem_cons, rest, or_assoc]
      constructor
      · rintro (rfl | ⟨-, later⟩)
        · exact .inl rfl
        · exact .inr later
      · rintro (rfl | later)
        · exact .inl rfl
        · exact .inr ⟨fun zero => zeroFree.1 zero.symm, later⟩

/-- The loop splits at the separator, by induction on the text. -/
theorem componentsFrom_eq_splitOn {separator : UInt8} (nonzero : separator ≠ 0) {text : Block}
    (zeroFree : 0 ∉ text)
    : componentsFrom (terminated [separator]) (text ++ [0]) = text.splitOn separator := by
  have delimiter (c : UInt8)
      : spans (terminated [separator]) c = true ↔ c = separator ∨ c = 0 := by
    rw [spans_terminated (by simpa using nonzero.symm), List.mem_singleton]
  induction text with
  | nil =>
      have stop : spans (terminated [separator]) 0 = true := (delimiter 0).mpr (.inr rfl)
      rw [List.nil_append, componentsFrom_of_strsep (by rw [strsep, if_pos stop, if_pos rfl])]
      rfl
  | cons c text ih =>
      rw [List.mem_cons, not_or] at zeroFree
      have rest := ih zeroFree.2
      rw [List.splitOn_cons_eq_if_modifyHead, ← rest, List.cons_append]
      by_cases same : c = separator
      · subst same
        have found : spans (terminated [c]) c = true := (delimiter c).mpr (.inl rfl)
        rw [componentsFrom_of_strsep (by rw [strsep, if_pos found, if_neg nonzero])]
        simp
      · have passed : ¬spans (terminated [separator]) c = true := by
          rw [delimiter, not_or]
          exact ⟨same, fun zero => zeroFree.1 zero.symm⟩
        rw [componentsFrom_of_strsep (by rw [strsep, if_neg passed]),
          componentsFrom_of_strsep (s := text ++ [0]) rfl]
        simp [same]

/-- A text is split at each of its separators. -/
theorem componentsSeparatedByString_eq {separator : UInt8} (nonzero : separator ≠ 0) (string : Block)
    : componentsSeparatedByString string [separator] = (cstring string).splitOn separator :=
  componentsFrom_eq_splitOn nonzero (zero_notMem_cstring string)

-----------------------------------------------------------------------------------------
-- Joining
-----------------------------------------------------------------------------------------

/-- `wi_array_components_joined_by_string` of an array of strings, whose descriptions are
themselves.
-/
def componentsJoinedByString (array : List Block) (separator : Block) : Block :=
  array.zipIdx.foldl
    (fun string item =>
      let string := string ++ cstring item.1
      if item.2 < array.length - 1 then string ++ cstring separator else string)
    []

/-- The loop puts the separator between the texts, by induction on those that are left. -/
theorem foldl_zipIdx_eq_intercalate (separator : Block) {count start : ℕ} {texts : List Block}
    (all : start + texts.length = count) (string : Block)
    : (texts.zipIdx start).foldl
        (fun string item =>
          let string := string ++ cstring item.1
          if item.2 < count - 1 then string ++ cstring separator else string)
        string
      = string ++ (cstring separator).intercalate (texts.map cstring) := by
  induction texts generalizing start string with
  | nil => simp
  | cons text rest ih =>
      rw [List.length_cons] at all
      rw [List.zipIdx_cons, List.foldl_cons, ih (by omega)]
      cases rest with
      | nil => simp_all
      | cons second others =>
          rw [List.length_cons] at all
          simp [show start < count - 1 by omega, List.intercalate_cons_cons]

/-- The texts are joined with the separator between each two. -/
theorem componentsJoinedByString_eq (array : List Block) (separator : Block)
    : componentsJoinedByString array separator
      = (cstring separator).intercalate (array.map cstring) :=
  foldl_zipIdx_eq_intercalate separator (Nat.zero_add _) []

-----------------------------------------------------------------------------------------
-- Stored lists
-----------------------------------------------------------------------------------------

/-- The separator byte of lists in the database. -/
def listSeparator : UInt8 := 0x1c

/-- The text of a list in the database. -/
def storedText (texts : List Block) : Block :=
  componentsJoinedByString texts [listSeparator]

/-- The list of a text in the database. -/
def readTexts (text : Block) : List Block :=
  componentsSeparatedByString text [listSeparator]

/-- The column that `wd_events_add_event` writes for the parameters of an event, if it is not null. -/
def parametersColumn (parameters : List Block) : Option Block :=
  if parameters.length > 0 then some (storedText parameters) else none

/-- The parameters that `wd_events_reply_events` puts into a reply for the column, if any. -/
def columnParameters (column : Option Block) : Option (List Block) :=
  column.map readTexts

/-- A text that an element of a stored list can be. -/
def IsPlain (text : Block) : Prop :=
  0 ∉ text ∧ listSeparator ∉ text

instance (text : Block) : Decidable (IsPlain text) :=
  inferInstanceAs (Decidable (_ ∧ _))

/-- The stored text of plain texts joins them. -/
theorem storedText_of_plain {texts : List Block} (plain : ∀ text ∈ texts, IsPlain text)
    : storedText texts = [listSeparator].intercalate texts := by
  have same : texts.map cstring = texts :=
    (List.map_congr_left fun text mem => cstring_of_zero_notMem (plain text mem).1).trans
      (List.map_id texts)
  rw [storedText, componentsJoinedByString_eq, same]
  rfl

/-- A list of plain texts is read back if it has any. -/
theorem readTexts_storedText {texts : List Block} (plain : ∀ text ∈ texts, IsPlain text)
    (some : texts ≠ [])
    : readTexts (storedText texts) = texts := by
  have joined : cstring (storedText texts) = [listSeparator].intercalate texts := by
    rw [storedText_of_plain plain, cstring_of_zero_notMem]
    intro mem
    rcases Joining.mem_of_mem_intercalate mem with same | ⟨text, isText, inside⟩
    · exact absurd same (by decide)
    · exact (plain text isText).1 inside
  rw [readTexts, componentsSeparatedByString_eq (by decide), joined]
  exact List.splitOn_intercalate _ (fun text mem => (plain text mem).2) some

/-- A text without zero bytes is the stored text of the list that is read from it. -/
theorem storedText_readTexts {text : Block} (zeroFree : 0 ∉ text)
    : storedText (readTexts text) = text := by
  rw [readTexts, componentsSeparatedByString_eq (by decide), cstring_of_zero_notMem zeroFree,
    storedText_of_plain]
  · exact List.intercalate_splitOn listSeparator
  · intro part mem
    exact ⟨fun inside => zeroFree (Joining.mem_of_mem_splitOn mem inside),
      Joining.separator_notMem_of_mem_splitOn mem⟩

/-- Lists of plain texts and texts without zero bytes stand for each other, so the stored texts of
different lists differ and the parameters of an event are read back.
-/
theorem storedText_codec
    : (∀ texts : List Block, texts ≠ [] → (∀ text ∈ texts, IsPlain text)
        → readTexts (storedText texts) = texts)
      ∧ (∀ text : Block, 0 ∉ text → storedText (readTexts text) = text)
      ∧ (∀ texts others : List Block, texts ≠ [] → others ≠ [] → (∀ text ∈ texts, IsPlain text)
        → (∀ text ∈ others, IsPlain text) → texts ≠ others → storedText texts ≠ storedText others)
      ∧ (∀ parameters : List Block, (∀ text ∈ parameters, IsPlain text)
        → columnParameters (parametersColumn parameters)
          = if parameters = [] then none else some parameters) := by
  refine ⟨fun texts some plain => readTexts_storedText plain some,
    fun text zeroFree => storedText_readTexts zeroFree, ?_, ?_⟩
  · intro texts others some someOthers plain plainOthers differ same
    apply differ
    rw [← readTexts_storedText plain some, same, readTexts_storedText plainOthers someOthers]
  · intro parameters plain
    rcases eq_or_ne parameters [] with rfl | nonempty
    · rfl
    · have read := readTexts_storedText plain nonempty
      simp [columnParameters, parametersColumn, List.length_pos_iff, nonempty, read]

end WiredServer.Data
