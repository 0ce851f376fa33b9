import Mathlib
import WiredServer.Files.ConfigFiles
import WiredServer.Lib.KeyedRewriting

/-! Writing a configuration file. The temporary file is the file with the lines about each changed setting
replaced by the lines of its value, so the file reads back the values that are in force.
-/

namespace WiredServer.Files

open Bytes Data Trimming KeyedRewriting

variable {D : Type} {tables : ConfigTables D} {lookups : Lookups D} {config : Config D}

-----------------------------------------------------------------------------------------
-- Lines
-----------------------------------------------------------------------------------------

/-- The lines of a text have no line breaks, by induction on the text. -/
theorem newline_notMem_of_mem_linesOf {text line : Block} (mem : line ∈ linesOf text)
    : newline ∉ line := by
  induction text generalizing line with
  | nil => cases mem
  | cons byte text ih =>
      rw [linesOf] at mem
      split at mem
      · rcases List.mem_cons.mp mem with rfl | later
        · exact List.not_mem_nil
        · exact ih later
      · rename_i differs
        split at mem
        · rw [List.mem_singleton.mp mem, List.mem_singleton]
          exact fun same => differs same.symm
        · rename_i first rest isLines
          rcases List.mem_cons.mp mem with rfl | later
          · rw [List.mem_cons, not_or]
            refine ⟨fun same => differs same.symm, ih ?_⟩
            rw [isLines]
            exact List.mem_cons_self
          · refine ih ?_
            rw [isLines]
            exact List.mem_cons_of_mem _ later

/-- A line break ends the first line. -/
theorem linesOf_append_newline {line : Block} (noBreak : newline ∉ line) (rest : Block)
    : linesOf (line ++ newline :: rest) = line :: linesOf rest := by
  have nonempty : line ++ newline :: rest ≠ [] := by simp
  have ended : firstLine (newline :: rest) = [] := by simp [firstLine]
  have behind : behindLine (newline :: rest) = rest := by simp [behindLine, ended]
  rw [linesOf_eq nonempty, firstLine_append noBreak, behindLine_append noBreak, ended, behind,
    List.append_nil]

/-- Lines that are written are the lines of the file, by induction on them. -/
theorem linesOf_contentsOf {lines : List Block} (noBreaks : ∀ line ∈ lines, newline ∉ line)
    : linesOf (contentsOf lines) = lines := by
  induction lines with
  | nil => rfl
  | cons line lines ih =>
      have rest := ih fun other mem => noBreaks other (List.mem_cons_of_mem _ mem)
      rw [contentsOf] at rest
      rw [contentsOf, List.flatMap_cons, List.append_assoc, List.singleton_append,
        linesOf_append_newline (noBreaks line List.mem_cons_self), rest]

/-- The lines of a text contain only what the text contains, by induction on the text. -/
theorem mem_of_mem_linesOf {text line : Block} {byte : UInt8} (mem : line ∈ linesOf text) (inside : byte ∈ line)
    : byte ∈ text := by
  induction text generalizing line with
  | nil => cases mem
  | cons first text ih =>
      rw [linesOf] at mem
      rw [List.mem_cons]
      split at mem
      · rcases List.mem_cons.mp mem with rfl | later
        · cases inside
        · exact .inr (ih later inside)
      · split at mem
        · rw [List.mem_singleton.mp mem, List.mem_singleton] at inside
          exact .inl inside
        · rename_i line' rest isLines
          rcases List.mem_cons.mp mem with rfl | later
          · rcases List.mem_cons.mp inside with same | behind
            · exact .inl same
            · refine .inr (ih ?_ behind)
              rw [isLines]
              exact List.mem_cons_self
          · refine .inr (ih ?_ inside)
            rw [isLines]
            exact List.mem_cons_of_mem _ later

-----------------------------------------------------------------------------------------
-- Names and texts
-----------------------------------------------------------------------------------------

/-- A name that the line of a setting can start with. -/
structure IsName (name : Block) : Prop where
  trimmed : IsTrimmed byteIsWhitespace name
  plain : 0 ∉ name ∧ newline ∉ name ∧ 61 ∉ name
  noComment : name.head? ≠ some hash

/-- A text that the line of a setting can end with. -/
structure IsText (text : Block) : Prop where
  trimmed : IsTrimmed byteIsWhitespace text
  plain : 0 ∉ text ∧ newline ∉ text ∧ 61 ∉ text

instance (name : Block) : Decidable (IsName name) :=
  decidable_of_iff (IsTrimmed byteIsWhitespace name ∧ (0 ∉ name ∧ newline ∉ name ∧ 61 ∉ name)
    ∧ name.head? ≠ some hash)
    ⟨fun holds => ⟨holds.1, holds.2.1, holds.2.2⟩, fun isName => ⟨isName.1, isName.2, isName.3⟩⟩

instance (text : Block) : Decidable (IsText text) :=
  decidable_of_iff (IsTrimmed byteIsWhitespace text ∧ 0 ∉ text ∧ newline ∉ text ∧ 61 ∉ text)
    ⟨fun holds => ⟨holds.1, holds.2⟩, fun isText => ⟨isText.1, isText.2⟩⟩

variable {name text : Block}

/-- The line of a setting is its name, an equals sign and its text. -/
theorem settingLine_eq (name text : Block)
    : settingLine name text = (name ++ [32]) ++ [61] ++ (32 :: text) := by
  have middle : ascii " = " = [32, 61, 32] := by decide
  simp [settingLine, middle]

/-- The line of a setting has no line break. -/
theorem newline_notMem_settingLine (isName : IsName name) (isText : IsText text)
    : newline ∉ settingLine name text := by
  rw [settingLine_eq]
  have space : newline ≠ 32 := by decide
  have equals : newline ≠ 61 := by decide
  simp [isName.plain.2.1, isText.plain.2.1, space, equals]

/-- The line of a setting has no zero byte. -/
theorem zero_notMem_settingLine (isName : IsName name) (isText : IsText text)
    : 0 ∉ settingLine name text := by
  rw [settingLine_eq]
  simp [isName.plain.1, isText.plain.1]

/-- The line of a setting is parsed as its name and its text. -/
theorem parseString_settingLine (isName : IsName name) (isText : IsText text)
    : parseString (settingLine name text) = some (name, text) := by
  have zeroFree := zero_notMem_settingLine isName isText
  have joined : settingLine name text = [61].intercalate [name ++ [32], 32 :: text] := by
    rw [settingLine_eq, List.intercalate_cons_cons, List.intercalate_singleton]
  have parts : componentsSeparatedByString (settingLine name text) (ascii "=") = [name ++ [32], 32 :: text] := by
    have equals : ascii "=" = [61] := by decide
    rw [equals, componentsSeparatedByString_eq (by decide), cstring_of_zero_notMem zeroFree, joined]
    refine List.splitOn_intercalate _ (fun part mem => ?_) (List.cons_ne_nil _ _)
    simp only [List.mem_cons, List.not_mem_nil, or_false] at mem
    rcases mem with rfl | rfl
    · simp [isName.plain.2.2]
    · simp [isText.plain.2.2]
  have space : byteIsWhitespace 32 = true := rfl
  simp only [parseString, parts, trim_concat_blank space, trim_cons_blank space, trim_eq_self isName.trimmed,
    trim_eq_self isText.trimmed]

/-- The line of a setting is no comment. -/
theorem head_settingLine (isName : IsName name)
    : (settingLine name text).length > 0 ∧ (settingLine name text).head? ≠ some hash := by
  rw [settingLine_eq]
  refine ⟨by simp, ?_⟩
  cases same : name with
  | nil =>
      have differs : (32 : UInt8) ≠ hash := by decide
      simpa using differs
  | cons first rest =>
      have noComment := isName.noComment
      rw [same] at noComment
      exact noComment

/-- The line of a setting is about the setting. -/
theorem settingOfLine_settingLine (isName : IsName name) (isText : IsText text)
    : settingOfLine (settingLine name text) = some name := by
  rw [settingOfLine, if_neg (head_settingLine isName).2, parseString_settingLine isName isText,
    Option.map_some]

-----------------------------------------------------------------------------------------
-- Reading
-----------------------------------------------------------------------------------------

/-- The setting that a line sets. -/
def settingRead (string : Block) : Option (Block × Block) :=
  if string.length > 0 ∧ string.head? ≠ some hash then parseString string else none

/-- The texts that lines set a setting to. -/
def textsAbout (name : Block) (lines : List Block) : List Block :=
  lines.filterMap fun line =>
    (settingRead line).bind fun setting => if setting.1 = name then some setting.2 else none

/-- What one more text makes of the value of a setting. -/
def readText (tables : ConfigTables D) (lookups : Lookups D) (name : Block) (value : Option (ConfigInstance D))
    (text : Block) : Option (ConfigInstance D) :=
  match instanceForSetting tables lookups name text with
  | some (_, .stringList) => some (.array (listStrings value ++ [text]))
  | some (instance', _) => some instance'
  | none => value

/-- Reading a setting does to its value what its text does, and nothing to other values. -/
theorem lookup_readSetting (values : Instances D) (other name text : Block)
    : (readSetting tables lookups values other text).lookup name
      = if other = name then readText tables lookups name (values.lookup name) text
        else values.lookup name := by
  rw [readSetting, readText]
  by_cases same : other = name
  · subst same
    rw [if_pos rfl]
    split <;> simp_all
  · rw [if_neg same]
    split <;> simp [AList.lookup_insert_ne (Ne.symm same)]

/-- The value of a setting is what the lines about it make of it, by induction on the lines. -/
theorem lookup_foldl_readConfigLine (lines : List Block) (values : Instances D) (name : Block)
    : (lines.foldl (readConfigLine tables lookups) values).lookup name
      = (textsAbout name lines).foldl (readText tables lookups name) (values.lookup name) := by
  induction lines generalizing values with
  | nil => rfl
  | cons line lines ih =>
      have round : readConfigLine tables lookups values line
          = (settingRead line).elim values fun setting =>
              readSetting tables lookups values setting.1 setting.2 := by
        rw [readConfigLine, settingRead]
        split
        · cases parseString line <;> rfl
        · rfl
      rw [List.foldl_cons, ih, round]
      cases setting : settingRead line with
      | none =>
          have skipped : textsAbout name (line :: lines) = textsAbout name lines := by
            simp [textsAbout, setting]
          rw [skipped, Option.elim_none]
      | some pair =>
          rw [Option.elim_some, lookup_readSetting]
          by_cases same : pair.1 = name
          · have first : textsAbout name (line :: lines) = pair.2 :: textsAbout name lines := by
              simp [textsAbout, setting, same]
            rw [if_pos same, first, List.foldl_cons]
          · have skipped : textsAbout name (line :: lines) = textsAbout name lines := by
              simp [textsAbout, setting, same]
            rw [if_neg same, skipped]

/-- A line that sets a setting is about it. -/
theorem settingOfLine_of_settingRead {line : Block} {setting : Block × Block}
    (read : settingRead line = some setting)
    : settingOfLine line = some setting.1 := by
  rw [settingRead] at read
  split at read
  · rename_i plain
    rw [settingOfLine, if_neg plain.2, read, Option.map_some]
  · cases read

/-- Only the lines about a setting set it. -/
theorem textsAbout_filter (name : Block) (lines : List Block)
    : textsAbout name (lines.filter (isAbout settingOfLine name)) = textsAbout name lines := by
  rw [textsAbout, List.filterMap_filter]
  refine List.filterMap_congr fun line _ => ?_
  split
  · rfl
  · rename_i elsewhere
    cases read : settingRead line with
    | none => rfl
    | some setting =>
        rw [Option.bind_some, if_neg]
        rintro rfl
        rw [isAbout, settingOfLine_of_settingRead read, decide_eq_true rfl] at elsewhere
        exact elsewhere rfl

/-- The lines of a setting set it to its texts. -/
theorem textsAbout_settingLines (isName : IsName name) {texts : List Block}
    (areTexts : ∀ text ∈ texts, IsText text)
    : textsAbout name (texts.map (settingLine name)) = texts := by
  rw [textsAbout, List.filterMap_map, List.filterMap_congr (g := some), List.filterMap_some]
  intro text mem
  rw [Function.comp_apply, settingRead, if_pos (head_settingLine isName),
    parseString_settingLine isName (areTexts text mem), Option.bind_some, if_pos rfl]

-----------------------------------------------------------------------------------------
-- Writing
-----------------------------------------------------------------------------------------

/-- The lines of a setting, if it is written. -/
def settingBlock (tables : ConfigTables D) (lookups : Lookups D) (config : Config D) (name : Block)
    : Option (List Block) :=
  (writeSetting tables lookups config name).join

/-- The changed settings have instances of the classes of their types. -/
def ClassesFit (tables : ConfigTables D) (lookups : Lookups D) (config : Config D) : Prop :=
  ∀ name ∈ config.changes, (writeSetting tables lookups config name).isSome = true

/-- The loop of the writing as the general one. -/
def Writing.state (writing : Writing) : State Block Block where
  items := writing.lines
  pending := writing.changedkeys
  done := writing.writtenkeys

/-- A blank line is about no setting. -/
theorem settingOfLine_nil : settingOfLine [] = none := by
  have equals : ascii "=" = [61] := by decide
  have parts : componentsSeparatedByString [] (ascii "=") = [[]] := by
    rw [equals, componentsSeparatedByString_eq (by decide)]
    rfl
  simp [settingOfLine, parseString, parts]

/-- A round rewrites the line. -/
theorem writeLine_eq (fit : ClassesFit tables lookups config) {writing : Writing}
    (subset : writing.changedkeys ⊆ config.changes) (line : Block)
    : (writeLine tables lookups config writing line).map Writing.state
      = some (step settingOfLine (settingBlock tables lookups config) writing.state line) := by
  rw [writeLine, step]
  by_cases empty : line.length = 0
  · rw [List.length_eq_zero_iff] at empty
    subst empty
    rw [settingOfLine_nil]
    rfl
  · rw [if_neg empty]
    cases settingOfLine line with
    | none => rfl
    | some name =>
        by_cases waits : name ∈ writing.changedkeys
        · obtain ⟨written, found⟩ := Option.isSome_iff_exists.mp (fit name (subset waits))
          have block : settingBlock tables lookups config name = written := by
            rw [settingBlock, found, Option.join_some]
          simp only [Writing.state, waits, if_true, found, block, Option.map_some]
          cases written <;> rfl
        · by_cases isWritten : name ∈ writing.writtenkeys
          · simp only [Writing.state, waits, isWritten, if_true, if_false, Option.map_some]
          · simp only [Writing.state, waits, isWritten, if_false, Option.map_some]
            rfl

/-- The first loop rewrites the lines, by induction on them. -/
theorem foldlM_writeLine (fit : ClassesFit tables lookups config) (lines : List Block) {writing : Writing}
    (subset : writing.changedkeys ⊆ config.changes)
    : ∃ last, lines.foldlM (writeLine tables lookups config) writing = some last
      ∧ last.state = lines.foldl (step settingOfLine (settingBlock tables lookups config)) writing.state
      ∧ last.changedkeys ⊆ config.changes := by
  induction lines generalizing writing with
  | nil => exact ⟨writing, rfl, rfl, subset⟩
  | cons line lines ih =>
      obtain ⟨next, round, state⟩ := Option.map_eq_some_iff.mp (writeLine_eq fit subset line)
      have nextSubset : next.changedkeys ⊆ config.changes := by
        refine subset_trans ?_ subset
        have fewer := @pending_step _ _ _ settingOfLine (settingBlock tables lookups config) writing.state line
        rwa [← state] at fewer
      obtain ⟨last, rest, lastState, lastSubset⟩ := ih nextSubset
      refine ⟨last, ?_, ?_, lastSubset⟩
      · rw [List.foldlM_cons, round]
        exact rest
      · rw [List.foldl_cons, ← state, lastState]

/-- The second loop puts the other settings behind the lines, by induction on them. -/
theorem foldlM_writeRemaining (fit : ClassesFit tables lookups config) {names : List Block}
    (subset : ∀ name ∈ names, name ∈ config.changes) (lines : List Block)
    : names.foldlM (writeRemaining tables lookups config) lines
      = some (finish (settingBlock tables lookups config) lines names) := by
  induction names generalizing lines with
  | nil => rfl
  | cons name names ih =>
      obtain ⟨written, found⟩ := Option.isSome_iff_exists.mp (fit name (subset name List.mem_cons_self))
      have round : writeRemaining tables lookups config lines name
          = some (lines ++ (settingBlock tables lookups config name).getD []) := by
        rw [writeRemaining, settingBlock, found]
        cases written with
        | none => simp
        | some more => rfl
      rw [List.foldlM_cons, round]
      exact ih (fun other mem => subset other (List.mem_cons_of_mem _ mem)) _

/-- The temporary file has the rewritten lines. -/
theorem temporaryLines_eq {enumerate : Finset Block → List Block} (enumerates : Enumerates enumerate)
    (fit : ClassesFit tables lookups config) (contents : Block)
    : temporaryLines tables lookups enumerate config contents
      = some (rewrite settingOfLine (settingBlock tables lookups config) enumerate config.changes
          (linesOf contents)) := by
  have start : (Writing.mk [] config.changes ∅).changedkeys ⊆ config.changes := subset_rfl
  obtain ⟨last, ran, state, subset⟩ := foldlM_writeLine fit (linesOf contents) start
  have remaining := foldlM_writeRemaining fit
    (fun name mem => subset (((enumerates last.changedkeys).2 name).mp mem)) last.lines
  have items := congrArg State.items state
  have pending := congrArg State.pending state
  rw [temporaryLines, ran]
  refine remaining.trans ?_
  rw [rewrite]
  exact congrArg some (congrArg₂ _ items (congrArg enumerate pending))

-----------------------------------------------------------------------------------------
-- The written file
-----------------------------------------------------------------------------------------

/-- The value of a setting is written as texts that are lines' ends. -/
def IsPrintable (lookups : Lookups D) (name : Block) (type : ConfigType) (value : ConfigInstance D) : Prop :=
  IsName name ∧ ∃ texts, settingTexts lookups type value = some texts ∧ ∀ text ∈ texts, IsText text

/-- The changed settings can be written. -/
def ChangesPrintable (tables : ConfigTables D) (lookups : Lookups D) (config : Config D) : Prop :=
  ∀ name ∈ config.changes, ∀ type, tables.types.lookup name = some type →
    ∀ value, config.value name = some value → IsPrintable lookups name type value

/-- The lines of a setting that is written. -/
theorem settingBlock_eq_some {block : List Block} (found : settingBlock tables lookups config name = some block)
    : ∃ type value texts, tables.types.lookup name = some type ∧ config.value name = some value
      ∧ settingTexts lookups type value = some texts ∧ block = texts.map (settingLine name) := by
  rw [settingBlock, Option.join_eq_some_iff, writeSetting] at found
  split at found
  · rename_i type value isType isValue
    obtain ⟨texts, areTexts, same⟩ := Option.map_eq_some_iff.mp found
    cases same
    exact ⟨type, value, texts, isType, isValue, areTexts, rfl⟩
  · cases found

/-- A known setting with a value is written. -/
theorem settingBlock_of_value {type : ConfigType} {value : ConfigInstance D} {texts : List Block}
    (isType : tables.types.lookup name = some type) (isValue : config.value name = some value)
    (areTexts : settingTexts lookups type value = some texts)
    : settingBlock tables lookups config name = some (texts.map (settingLine name)) := by
  rw [settingBlock, writeSetting, isType, isValue]
  simp only [areTexts, Option.map_some, Option.join_some]

section Printable

variable (printable : ChangesPrintable tables lookups config)
include printable

/-- Settings that can be written have instances of their classes. -/
theorem ChangesPrintable.classesFit : ClassesFit tables lookups config := by
  intro name mem
  rw [writeSetting]
  split
  · rename_i type value isType isValue
    obtain ⟨-, texts, areTexts, -⟩ := printable name mem type isType value isValue
    rw [areTexts]
    rfl
  · rfl

/-- The lines of a changed setting are those of texts. -/
theorem ChangesPrintable.texts (mem : name ∈ config.changes) {block : List Block}
    (found : settingBlock tables lookups config name = some block)
    : IsName name ∧ ∃ texts : List Block, block = texts.map (settingLine name)
      ∧ ∀ text ∈ texts, IsText text := by
  obtain ⟨type, value, texts, isType, isValue, areTexts, same⟩ := settingBlock_eq_some found
  obtain ⟨isName, others, areOthers, plain⟩ := printable name mem type isType value isValue
  rw [areTexts] at areOthers
  cases areOthers
  exact ⟨isName, texts, same, plain⟩

/-- The lines of the changed settings are about them. -/
theorem ChangesPrintable.blocksAreAbout
    : BlocksAreAbout settingOfLine (settingBlock tables lookups config) config.changes := by
  intro name mem block found line inside
  obtain ⟨isName, texts, rfl, plain⟩ := printable.texts mem found
  obtain ⟨text, isText, rfl⟩ := List.mem_map.mp inside
  exact settingOfLine_settingLine isName (plain text isText)

/-- A rewritten line is a line of the file or of a setting. -/
theorem ChangesPrintable.mem_rewrite {enumerate : Finset Block → List Block}
    (enumerates : Enumerates enumerate) {contents line : Block}
    (mem : line ∈ rewrite settingOfLine (settingBlock tables lookups config) enumerate config.changes
      (linesOf contents))
    : line ∈ linesOf contents ∨ ∃ name text, IsName name ∧ IsText text ∧ line = settingLine name text := by
  have spec := rewrite_spec enumerates printable.blocksAreAbout (linesOf contents)
  by_cases other : isOther settingOfLine (settingBlock tables lookups config) config.changes line = true
  · have kept := List.mem_filter.mpr ⟨mem, other⟩
    rw [spec.1] at kept
    exact .inl (List.mem_of_mem_filter kept)
  · rw [isOther, Bool.not_eq_true', Bool.not_eq_false, Option.any_eq_true] at other
    obtain ⟨name, isAbout', changed⟩ := other
    rw [Bool.and_eq_true, decide_eq_true_eq, Option.isSome_iff_exists] at changed
    obtain ⟨isChange, block, found⟩ := changed
    have inside : isAbout settingOfLine name line = true := decide_eq_true isAbout'
    have own := List.mem_filter.mpr ⟨mem, inside⟩
    rw [spec.2 name isChange block found] at own
    obtain ⟨isName, texts, rfl, plain⟩ := printable.texts isChange found
    obtain ⟨text, isText, rfl⟩ := List.mem_map.mp own
    exact .inr ⟨name, text, isName, plain text isText, rfl⟩

/-- The written file has the rewritten lines. -/
theorem ChangesPrintable.writeFile_eq {enumerate : Finset Block → List Block}
    (enumerates : Enumerates enumerate) (contents : Block)
    : ∃ written, writeFile tables lookups enumerate config contents = some (clearChanges config, written)
      ∧ linesOf written = rewrite settingOfLine (settingBlock tables lookups config) enumerate config.changes
        (linesOf contents)
      ∧ (0 ∉ contents → 0 ∉ written) := by
  have noBreaks : ∀ line ∈ rewrite settingOfLine (settingBlock tables lookups config) enumerate config.changes
      (linesOf contents), newline ∉ line := by
    intro line mem
    rcases printable.mem_rewrite enumerates mem with kept | ⟨name, text, isName, isText, rfl⟩
    · exact newline_notMem_of_mem_linesOf kept
    · exact newline_notMem_settingLine isName isText
  refine ⟨contentsOf (rewrite settingOfLine (settingBlock tables lookups config) enumerate config.changes
    (linesOf contents)), ?_, linesOf_contentsOf noBreaks, fun zeroFree inside => ?_⟩
  · rw [writeFile, temporaryLines_eq enumerates printable.classesFit]
    exact congrArg (fun lines => some (clearChanges config, contentsOf lines)) (linesOf_contentsOf noBreaks)
  · obtain ⟨line, mem, here⟩ := List.mem_flatMap.mp inside
    have inLine : 0 ∈ line := by
      rcases List.mem_append.mp here with inLine | last
      · exact inLine
      · exact absurd (List.mem_singleton.mp last) (by decide)
    rcases printable.mem_rewrite enumerates mem with kept | ⟨name, text, isName, isText, rfl⟩
    · exact zeroFree (mem_of_mem_linesOf kept inLine)
    · exact zero_notMem_settingLine isName isText inLine

end Printable

/-- A port, of which the changed value is 80. -/
def portConfig : ConfigTables ℕ × Config ℕ :=
  (⟨AList.singleton (ascii "port") .port, ∅⟩, ⟨some (AList.singleton (ascii "port") (.number 80)), {ascii "port"}⟩)

/-- The value of a setting is written as texts that are read back as the value. -/
def IsWritable (tables : ConfigTables D) (lookups : Lookups D) (name : Block) (type : ConfigType)
    (value : ConfigInstance D) : Prop :=
  IsName name ∧ ∃ texts, settingTexts lookups type value = some texts ∧ (∀ text ∈ texts, IsText text)
    ∧ texts.foldl (readText tables lookups name) (tables.defaults.lookup name) = some value

/-- The changed settings can be written and read back. -/
def ChangesWritable (tables : ConfigTables D) (lookups : Lookups D) (config : Config D) : Prop :=
  ∀ name ∈ config.changes, ∀ type, tables.types.lookup name = some type →
    ∀ value, config.value name = some value → IsWritable tables lookups name type value

/-- A file reads back the values of the settings that have not changed. A change of a setting without a value
is none.
-/
def InForce (tables : ConfigTables D) (lookups : Lookups D) (config : Config D) (contents : Block) : Prop :=
  ∀ name, (tables.types.lookup name).isSome = true → (name ∈ config.changes → config.value name = none) →
    (readValues tables lookups contents).lookup name = config.value name

/-- The value of a setting in a file depends on the lines about it only. -/
theorem lookup_readValues (contents name : Block)
    : (readValues tables lookups contents).lookup name
      = (textsAbout name ((linesOf contents).filter (isAbout settingOfLine name))).foldl
        (readText tables lookups name) (tables.defaults.lookup name) := by
  rw [textsAbout_filter, readValues, lookup_foldl_readConfigLine]

/-- What can be read back can be written. -/
theorem ChangesWritable.printable (writable : ChangesWritable tables lookups config)
    : ChangesPrintable tables lookups config := by
  intro name mem type isType value isValue
  obtain ⟨isName, texts, areTexts, plain, -⟩ := writable name mem type isType value isValue
  exact ⟨isName, texts, areTexts, plain⟩

/-- Behind a write the file reads back all values. -/
theorem ChangesWritable.inForce_writeFile {enumerate : Finset Block → List Block}
    (enumerates : Enumerates enumerate) (writable : ChangesWritable tables lookups config) {contents : Block}
    (inForce : InForce tables lookups config contents)
    : ∃ written, writeFile tables lookups enumerate config contents = some (clearChanges config, written)
      ∧ InForce tables lookups (clearChanges config) written ∧ (0 ∉ contents → 0 ∉ written) := by
  have printable := writable.printable
  obtain ⟨written, wrote, lines, zeroFree⟩ := printable.writeFile_eq enumerates contents
  refine ⟨written, wrote, fun name known _ => ?_, zeroFree⟩
  obtain ⟨type, isType⟩ := Option.isSome_iff_exists.mp known
  have same : (clearChanges config).value name = config.value name := rfl
  rw [same, lookup_readValues, lines]
  by_cases changed : name ∈ config.changes ∧ (config.value name).isSome = true
  · obtain ⟨mem, hasValue⟩ := changed
    obtain ⟨value, isValue⟩ := Option.isSome_iff_exists.mp hasValue
    obtain ⟨isName, texts, areTexts, plain, back⟩ := writable name mem type isType value isValue
    have block := settingBlock_of_value isType isValue areTexts
    rw [(rewrite_spec enumerates printable.blocksAreAbout _).2 name mem _ block,
      textsAbout_settingLines isName plain, back, isValue]
  · have absent (mem : name ∈ config.changes) : config.value name = none := by
      by_contra hasValue
      exact changed ⟨mem, Option.isSome_iff_ne_none.mpr hasValue⟩
    have free (mem : name ∈ config.changes) : settingBlock tables lookups config name = none := by
      simp [settingBlock, writeSetting, absent mem]
    rw [rewrite_isAbout_other enumerates printable.blocksAreAbout _ free, ← lookup_readValues]
    exact inForce name known absent

/-- Behind a read the values are those of the file. -/
theorem inForce_readFile [DecidableEq D] (config : Config D) (contents : Block)
    : InForce tables lookups (clearChanges (readFile tables lookups config contents)) contents :=
  fun _ _ _ => rfl

/-- A setting that is set has its value, and the others keep theirs. -/
theorem value_setInstanceForName [DecidableEq D] (read : config.values.isSome = true) (value : ConfigInstance D)
    (name other : Block)
    : (setInstanceForName config value name).value other
      = if other = name then some value else config.value other := by
  obtain ⟨values, hasValues⟩ := Option.isSome_iff_exists.mp read
  split
  · rename_i same
    subst same
    simp [setInstanceForName, Config.value, hasValues]
  · rename_i differs
    simp [setInstanceForName, Config.value, hasValues, AList.lookup_insert_ne differs]

/-- A setting that is set is a change, unless it has its value. -/
theorem mem_changes_setInstanceForName [DecidableEq D] (value : ConfigInstance D) (name other : Block)
    : other ∈ (setInstanceForName config value name).changes
      ↔ other ∈ config.changes ∨ other = name ∧ config.value name ≠ some value := by
  rw [setInstanceForName]
  by_cases same : config.value name = some value
  · simp [same]
  · simp [same, or_comm]

/-- A setting that is set has changed, or has the value that it had. -/
theorem InForce.setInstanceForName [DecidableEq D] {contents : Block} (read : config.values.isSome = true)
    (inForce : InForce tables lookups config contents) (value : ConfigInstance D) (name : Block)
    : InForce tables lookups (setInstanceForName config value name) contents := by
  intro other known unchanged
  rw [value_setInstanceForName read] at unchanged ⊢
  rw [mem_changes_setInstanceForName] at unchanged
  by_cases same : other = name
  · subst same
    rw [if_pos rfl] at unchanged ⊢
    have isValue : config.value other = some value := by
      by_contra differs
      cases unchanged (.inr ⟨rfl, differs⟩)
    rw [← isValue]
    refine inForce other known fun mem => ?_
    cases unchanged (.inl mem)
  · rw [if_neg same] at unchanged ⊢
    exact inForce other known fun mem => unchanged (.inl mem)

/-- A change that is noted puts no other value into force. -/
theorem InForce.noteChange {contents : Block} (inForce : InForce tables lookups config contents) (name : Block)
    : InForce tables lookups (noteChange config name) contents :=
  fun other known unchanged => inForce other known fun mem => unchanged (Finset.mem_insert_of_mem mem)

end WiredServer.Files
