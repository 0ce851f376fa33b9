import Mathlib
import WiredServer.Data.Formats
import WiredServer.Data.TextLists
import WiredServer.Server.Accounts

/-! The statements whose literals are formatted into their text: those that store an account and the
one that searches the index of files.
-/

namespace WiredServer.Server

open Bytes Data QuotedTokens

-----------------------------------------------------------------------------------------
-- Accounts
-----------------------------------------------------------------------------------------

/-- The name of a field's column in the table of `wd_accounts_initialize`. -/
def AccountField.tableName : AccountField → Option String
  | .name => some "name"
  | .newName => none
  | .fullName => some "full_name"
  | .comment => some "comment"
  | .creationTime => some "creation_time"
  | .modificationTime => some "modification_time"
  | .loginTime => some "login_time"
  | .editedBy => some "edited_by"
  | .downloads => some "downloads"
  | .downloadTransferred => some "download_transferred"
  | .uploads => some "uploads"
  | .uploadTransferred => some "upload_transferred"
  | .group => some "group"
  | .groups => some "groups"
  | .password => some "password"
  | .color => some "color"
  | .files => some "files"
  | .userGetInfo => some "user_get_info"
  | .userDisconnectUsers => some "user_disconnect_users"
  | .userBanUsers => some "user_ban_users"
  | .userCannotBeDisconnected => some "user_cannot_be_disconnected"
  | .userCannotSetNick => some "user_cannot_set_nick"
  | .userGetUsers => some "user_get_users"
  | .chatKickUsers => some "chat_kick_users"
  | .chatSetTopic => some "chat_set_topic"
  | .chatCreateChats => some "chat_create_chats"
  | .messageSendMessages => some "message_send_messages"
  | .messageBroadcast => some "message_broadcast"
  | .fileListFiles => some "file_list_files"
  | .fileSearchFiles => some "file_search_files"
  | .fileGetInfo => some "file_get_info"
  | .fileCreateLinks => some "file_create_links"
  | .fileRenameFiles => some "file_rename_files"
  | .fileSetType => some "file_set_type"
  | .fileSetComment => some "file_set_comment"
  | .fileSetPermissions => some "file_set_permissions"
  | .fileSetExecutable => some "file_set_executable"
  | .fileSetLabel => some "file_set_label"
  | .fileRecursiveListDepthLimit => some "file_recursive_list_depth_limit"
  | .fileCreateDirectories => some "file_create_directories"
  | .fileMoveFiles => some "file_move_files"
  | .fileDeleteFiles => some "file_delete_files"
  | .fileAccessAllDropboxes => some "file_access_all_dropboxes"
  | .accountChangePassword => some "account_change_password"
  | .accountListAccounts => some "account_list_accounts"
  | .accountReadAccounts => some "account_read_accounts"
  | .accountCreateUsers => some "account_create_users"
  | .accountEditUsers => some "account_edit_users"
  | .accountDeleteUsers => some "account_delete_users"
  | .accountCreateGroups => some "account_create_groups"
  | .accountEditGroups => some "account_edit_groups"
  | .accountDeleteGroups => some "account_delete_groups"
  | .accountRaiseAccountPrivileges => some "account_raise_account_privileges"
  | .transferDownloadFiles => some "transfer_download_files"
  | .transferUploadFiles => some "transfer_upload_files"
  | .transferUploadAnywhere => some "transfer_upload_anywhere"
  | .transferUploadDirectories => some "transfer_upload_directories"
  | .transferDownloadSpeedLimit => some "transfer_download_speed_limit"
  | .transferUploadSpeedLimit => some "transfer_upload_speed_limit"
  | .transferDownloadLimit => some "transfer_download_limit"
  | .transferUploadLimit => some "transfer_upload_limit"
  | .logViewLog => some "log_view_log"
  | .eventsViewEvents => some "events_view_events"
  | .settingsGetSettings => some "settings_get_settings"
  | .settingsSetSettings => some "settings_set_settings"
  | .banlistGetBans => some "banlist_get_bans"
  | .banlistAddBans => some "banlist_add_bans"
  | .banlistDeleteBans => some "banlist_delete_bans"
  | .boardReadBoards => some "board_read_boards"
  | .boardAddBoards => some "board_add_boards"
  | .boardMoveBoards => some "board_move_boards"
  | .boardRenameBoards => some "board_rename_boards"
  | .boardDeleteBoards => some "board_delete_boards"
  | .boardGetBoardInfo => some "board_get_board_info"
  | .boardSetBoardInfo => some "board_set_board_info"
  | .boardAddThreads => some "board_add_threads"
  | .boardMoveThreads => some "board_move_threads"
  | .boardAddPosts => some "board_add_posts"
  | .boardEditOwnThreadsAndPosts => some "board_edit_own_threads_and_posts"
  | .boardEditAllThreadsAndPosts => some "board_edit_all_threads_and_posts"
  | .boardDeleteOwnThreadsAndPosts => some "board_delete_own_threads_and_posts"
  | .boardDeleteAllThreadsAndPosts => some "board_delete_all_threads_and_posts"
  | .trackerListServers => some "tracker_list_servers"
  | .trackerRegisterServers => some "tracker_register_servers"

/-- What the functions for each type of values give for a value of an account. -/
structure AccountValue where
  /-- `wi_description`. -/
  description : Block
  /-- `wi_date_sqlite3_string`. -/
  dateString : Block
  /-- `wi_number_integer`. -/
  integer : ℤ
  /-- The elements of a list. -/
  elements : List Block

variable (printer : Printer)

/-- What `wd_account_sqlite3_insert_string` appends for a value. -/
def insertedValue (type : FieldType) (value : AccountValue) : Option Block :=
  match type with
  | .string => stringWithFormat printer (ascii "'%q'") [.instance (some value.description)]
  | .date => stringWithFormat printer (ascii "'%q'") [.instance (some value.dateString)]
  | .number | .boolean | .enum => stringWithFormat printer (ascii "%u") [.scalar value.integer]
  | .list =>
      stringWithFormat printer (ascii "'%q'") [.instance (some (storedText value.elements))]

/-- What `wd_account_sqlite3_update_string` appends for a value. -/
def updatedValue (type : FieldType) (value : AccountValue) : Option Block :=
  match type with
  | .string | .enum => stringWithFormat printer (ascii "'%q'") [.instance (some value.description)]
  | .date => stringWithFormat printer (ascii "'%q'") [.instance (some value.dateString)]
  | .number | .boolean => stringWithFormat printer (ascii "%u") [.scalar value.integer]
  | .list =>
      stringWithFormat printer (ascii "'%q'") [.instance (some (storedText value.elements))]

/-- A text to which another one is appended, with a comma between them. -/
def withComma (string : Block) : Block :=
  if string.length > 0 then string ++ ascii ", " else string

/-- A round of the loop of `wd_account_sqlite3_insert_string`. -/
def insertRound (accounttype : ℕ) (strings : Block × Block) (entry : AccountField × AccountValue)
    : Option (Block × Block) :=
  if entry.1.isFor accounttype then do
    let column ← stringWithFormat printer (ascii "`%@`")
      [.instance (entry.1.tableName.map ascii)]
    let value ← insertedValue printer entry.1.type entry.2
    some (withComma strings.1 ++ column, withComma strings.2 ++ value)
  else some strings

/-- `wd_account_sqlite3_insert_string`, for the values of an account in the order in which the
dictionary gives those that have a field.
-/
def sqlite3InsertString (values : List (AccountField × AccountValue)) (accounttype : ℕ)
    : Option Block := do
  let strings ← values.foldlM (insertRound printer accounttype) ([], [])
  stringWithFormat printer (ascii "(%@) VALUES (%@)")
    [.instance (some strings.1), .instance (some strings.2)]

/-- What `wd_account_sqlite3_update_string` appends for a field, with a value or without one. -/
def updatedColumn (type : FieldType) : Option AccountValue → Option Block
  | some value => updatedValue printer type value
  | none => stringWithFormat printer (ascii "NULL") []

/-- A round of the loop of `wd_account_sqlite3_update_string`. -/
def updateRound (values : AccountField → Option AccountValue) (accounttype : ℕ) (string : Block)
    (field : AccountField)
    : Option Block :=
  if field.isFor accounttype then do
    let column ← stringWithFormat printer (ascii "`%@` = ") [.instance (field.tableName.map ascii)]
    let value ← updatedColumn printer field.type (values field)
    some (withComma string ++ column ++ value)
  else some string

/-- `wd_account_sqlite3_update_string`, for the fields in the order in which their dictionary gives
them.
-/
def sqlite3UpdateString (fields : List AccountField) (values : AccountField → Option AccountValue)
    (accounttype : ℕ)
    : Option Block :=
  fields.foldlM (updateRound printer values accounttype) []

/-- The tables of accounts. -/
inductive AccountTable where
  | users
  | groups

/-- The statement of `wd_accounts_create_user` and `wd_accounts_create_group`. -/
def insertStatement (table : AccountTable) (values : List (AccountField × AccountValue))
    (accounttype : ℕ)
    : Option Block := do
  let string ← sqlite3InsertString printer values accounttype
  match table with
  | .users => stringWithFormat printer (ascii "INSERT INTO users %@") [.instance (some string)]
  | .groups => stringWithFormat printer (ascii "INSERT INTO groups %@") [.instance (some string)]

/-- The statement of `wd_accounts_edit_user` and `wd_accounts_edit_group`. -/
def updateStatement (table : AccountTable) (fields : List AccountField)
    (values : AccountField → Option AccountValue) (accounttype : ℕ)
    : Option Block := do
  let string ← sqlite3UpdateString printer fields values accounttype
  match table with
  | .users =>
      stringWithFormat printer (ascii "UPDATE users SET %@ WHERE name = ?")
        [.instance (some string)]
  | .groups =>
      stringWithFormat printer (ascii "UPDATE groups SET %@ WHERE name = ?")
        [.instance (some string)]

/-- The statement of `wd_index_search`, for an account with a directory of its own or without. -/
def searchStatement (query : Block) (accountpath : Option Block) : Option Block :=
  match accountpath with
  | some accountpath =>
      stringWithFormat printer
        (ascii "SELECT name, virtual_path, real_path, alias "
          ++ ascii "FROM `index` "
          ++ ascii "WHERE name LIKE '%%%q%%' ESCAPE '\\' "
          ++ ascii "AND virtual_path LIKE '%q%%' ESCAPE '\\'")
        [.instance (some query), .instance (some accountpath)]
  | none =>
      stringWithFormat printer
        (ascii "SELECT name, virtual_path, real_path, alias "
          ++ ascii "FROM `index` "
          ++ ascii "WHERE name LIKE '%%%q%%' ESCAPE '\\'")
        [.instance (some query)]

-----------------------------------------------------------------------------------------
-- Their tokens
-----------------------------------------------------------------------------------------

/-- `%u` writes digits, at least one. -/
def PrintsDigits (printer : Printer) : Prop :=
  ∀ value, printer.print [37, 117] [.scalar value] ≠ []
    ∧ ∀ byte ∈ printer.print [37, 117] [.scalar value], 48 ≤ byte ∧ byte ≤ 57

/-- The texts of a value have no zero byte. -/
def AccountValue.IsZeroFree (value : AccountValue) : Prop :=
  0 ∉ value.description ∧ 0 ∉ value.dateString

/-- The literal of a text. -/
def literal (text : Block) : Token :=
  .quoted quote (symbols text)

/-- The tokens of a value that is inserted. -/
def insertedTokens (type : FieldType) (value : AccountValue) : List Token :=
  match type with
  | .string => [literal value.description]
  | .date => [literal value.dateString]
  | .number | .boolean | .enum => plainTokens (printer.print [37, 117] [.scalar value.integer])
  | .list => [literal (storedText value.elements)]

/-- The tokens of a value that is updated. -/
def updatedTokens (type : FieldType) : Option AccountValue → List Token
  | none => plainTokens (ascii "NULL")
  | some value =>
      match type with
      | .string | .enum => [literal value.description]
      | .date => [literal value.dateString]
      | .number | .boolean => plainTokens (printer.print [37, 117] [.scalar value.integer])
      | .list => [literal (storedText value.elements)]

/-- The token of the name of a column. -/
def columnToken (field : AccountField) : Token :=
  .quoted 96 (symbols (ascii (field.tableName.getD "(null)")))

/-- Tokens with commas between them. -/
def commaTokens (parts : List (List Token)) : List Token :=
  (plainTokens (ascii ", ")).intercalate parts

/-- The tokens of an inserting statement. -/
def insertStatementTokens (table : AccountTable) (values : List (AccountField × AccountValue))
    (accounttype : ℕ)
    : List Token :=
  let values := values.filter fun entry => entry.1.isFor accounttype
  plainTokens (match table with
    | .users => ascii "INSERT INTO users ("
    | .groups => ascii "INSERT INTO groups (")
    ++ commaTokens (values.map fun entry => [columnToken entry.1])
    ++ plainTokens (ascii ") VALUES (")
    ++ commaTokens (values.map fun entry => insertedTokens printer entry.1.type entry.2)
    ++ plainTokens (ascii ")")

/-- The tokens of an updating statement. -/
def updateStatementTokens (table : AccountTable) (fields : List AccountField)
    (values : AccountField → Option AccountValue) (accounttype : ℕ)
    : List Token :=
  let fields := fields.filter fun field => field.isFor accounttype
  plainTokens (match table with
    | .users => ascii "UPDATE users SET "
    | .groups => ascii "UPDATE groups SET ")
    ++ commaTokens (fields.map fun field =>
      columnToken field :: plainTokens (ascii " = ")
        ++ updatedTokens printer field.type (values field))
    ++ plainTokens (ascii " WHERE name = ?")

/-- The tokens of a search: the query is denoted between two percent signs, the directory before
one.
-/
def searchStatementTokens (query : Block) (accountpath : Option Block) : List Token :=
  plainTokens (ascii "SELECT name, virtual_path, real_path, alias FROM ")
    ++ [.quoted 96 (symbols (ascii "index"))]
    ++ plainTokens (ascii " WHERE name LIKE ")
    ++ [literal (ascii "%" ++ query ++ ascii "%")]
    ++ plainTokens (ascii " ESCAPE ") ++ [literal (ascii "\\")]
    ++ match accountpath with
      | some accountpath =>
          plainTokens (ascii " AND virtual_path LIKE ") ++ [literal (accountpath ++ ascii "%")]
            ++ plainTokens (ascii " ESCAPE ") ++ [literal (ascii "\\")]
      | none => []

-----------------------------------------------------------------------------------------
-- Plain texts
-----------------------------------------------------------------------------------------

/-- A character that begins no quoted token, no comment and no conversion. -/
def isPlainChar (char : Char) : Bool :=
  char.toNat < 128 && !([0, 34, 37, 39, 45, 47, 91, 96] : List ℕ).contains char.toNat

/-- The byte of a plain character. -/
theorem isInert_of_isPlainChar {char : Char} (plain : isPlainChar char = true)
    : (IsInert char.val.toUInt8 ∧ char.val.toUInt8 ≠ 37) ∧ char.val.toUInt8 ≠ 0 := by
  obtain ⟨small, notMem⟩ := Bool.and_eq_true_iff.mp plain
  have toNat : char.val.toUInt8.toNat = char.toNat := by
    rw [UInt32.toNat_toUInt8]
    exact Nat.mod_eq_of_lt (lt_trans (of_decide_eq_true small) (by decide))
  have differs (byte : UInt8) (mem : byte.toNat ∈ [0, 34, 37, 39, 45, 47, 91, 96])
      : char.val.toUInt8 ≠ byte := by
    rintro rfl
    rw [toNat] at mem
    rw [List.contains_iff_mem.mpr mem] at notMem
    cases notMem
  refine ⟨⟨⟨?_, differs 91 (by decide), differs 45 (by decide), differs 47 (by decide)⟩,
    differs 37 (by decide)⟩, differs 0 (by decide)⟩
  rw [isDelimiter, quote, decide_eq_false (differs 39 (by decide)),
    decide_eq_false (differs 34 (by decide)), decide_eq_false (differs 96 (by decide))]
  exact Bool.false_ne_true

/-- The bytes of plain characters. -/
theorem plain_ofList {chars : List Char} (plain : chars.all isPlainChar = true)
    : ∀ byte ∈ ascii (String.ofList chars), (IsInert byte ∧ byte ≠ 37) ∧ byte ≠ 0 := by
  rw [ascii_ofList, List.forall_mem_map]
  exact fun char mem => isInert_of_isPlainChar (List.all_eq_true.mp plain char mem)

/-- Plain characters begin no quoted token, no comment and no conversion. -/
theorem unformatted_ofList {chars : List Char} (plain : chars.all isPlainChar = true)
    : ∀ byte ∈ ascii (String.ofList chars), IsInert byte ∧ byte ≠ 37 :=
  fun byte mem => (plain_ofList plain byte mem).1

/-- Plain characters begin no quoted token and no comment. -/
theorem inert_ofList {chars : List Char} (plain : chars.all isPlainChar = true)
    : ∀ byte ∈ ascii (String.ofList chars), IsInert byte :=
  fun byte mem => (plain_ofList plain byte mem).1.1

/-- A byte that no character of a text has is not among its bytes. -/
theorem notMem_ofList {byte : UInt8} {chars : List Char}
    (free : chars.all (fun char => char.val.toUInt8 != byte) = true)
    : byte ∉ ascii (String.ofList chars) := by
  rw [ascii_ofList]
  intro mem
  obtain ⟨char, inChars, rfl⟩ := List.mem_map.mp mem
  exact bne_iff_ne.mp (List.all_eq_true.mp free char inChars) rfl

/-- A text that begins with a plain character is not begun by a delimiter. -/
theorem startsPlain_ofList {char : Char} {chars : List Char} (plain : isPlainChar char = true)
    (behind : Block)
    : ∀ byte, (ascii (String.ofList (char :: chars)) ++ behind).head? = some byte
      → ¬isDelimiter byte := by
  intro byte first
  rw [ascii_ofList, List.map_cons, List.cons_append, List.head?_cons] at first
  obtain rfl := Option.some.inj first
  exact (isInert_of_isPlainChar plain).1.1.1

-----------------------------------------------------------------------------------------
-- Formats of one value
-----------------------------------------------------------------------------------------

variable {printer}

/-- A text between quotes, as the format for texts writes it. -/
theorem format_quoted {text : Block} (zeroFree : 0 ∉ text)
    : stringWithFormat printer (ascii "'%q'") [.instance (some text)]
      = some (quote :: doubled text ++ [quote]) := by
  have format : ascii "'%q'" = [quote] ++ 37 :: 113 :: ([quote] ++ []) := by
    rw [ascii_ofList]
    decide
  have pieces : appendArguments printer none (ascii "'%q'") [.instance (some text)]
      = [.text [quote], .escaped text, .text [quote]] := by
    rw [format, appendArguments_plain (by decide), appendArguments_escape,
      appendArguments_plain (by decide)]
    rfl
  rw [stringWithFormat_eq]
  · rw [pieces]
    simp [Piece.output]
  · rw [pieces]
    simpa [Piece.IsZeroFree] using zeroFree

/-- A number, as the format for numbers writes it. -/
theorem format_unsigned (value : ℤ)
    : stringWithFormat printer (ascii "%u") [.scalar value]
      = some (printer.print [37, 117] [.scalar value]) := by
  have format : ascii "%u" = 37 :: 117 :: [] := by
    rw [ascii_ofList]
    decide
  have pieces : appendArguments printer none (ascii "%u") [.scalar value]
      = [.text (printer.print [37, 117] [.scalar value])] := by
    rw [format, appendArguments_number]
    rfl
  rw [stringWithFormat_eq]
  · rw [pieces]
    simp [Piece.output]
  · rw [pieces]
    simp [Piece.IsZeroFree]

/-- Pieces without escaped texts are written one after the other. -/
theorem format_texts {fmt : Block} {arguments : List FormatArgument} {texts : List Block}
    (pieces : appendArguments printer none fmt arguments = texts.map .text)
    : stringWithFormat printer fmt arguments = some texts.flatten := by
  rw [stringWithFormat_eq]
  · rw [pieces, List.flatMap_map]
    simp [Piece.output, List.flatMap_def]
  · rw [pieces]
    intro piece mem
    obtain ⟨text, -, rfl⟩ := List.mem_map.mp mem
    trivial

/-- The bytes of a text, one by one, make the text. -/
theorem flatten_bytes (text : Block)
    : (text.map fun byte => [byte]).flatten = text := by
  rw [← List.flatMap_def, List.flatMap_singleton']

/-- `%@` writes the description of an object, or a text of its own for a null pointer. -/
theorem appendArguments_described {description : Option Block}
    (zeroFree : 0 ∉ description.getD (ascii "(null)")) (fmt : Block)
    (arguments : List FormatArgument)
    : appendArguments printer none (37 :: 64 :: fmt) (.instance description :: arguments)
      = .text (description.getD (ascii "(null)")) :: appendArguments printer none fmt arguments := by
  cases description with
  | some description =>
      change 0 ∉ description at zeroFree
      rw [appendArguments_describe, cstring_of_zero_notMem zeroFree]
      rfl
  | none => exact appendArguments_describeNull fmt

/-- A text around the description of an object, or around the text for a null pointer. -/
theorem format_described {front behind : Block} (frontFree : 37 ∉ front) (behindFree : 37 ∉ behind)
    {description : Option Block} (zeroFree : 0 ∉ description.getD (ascii "(null)"))
    : stringWithFormat printer (front ++ 37 :: 64 :: (behind ++ [])) [.instance description]
      = some (front ++ description.getD (ascii "(null)") ++ behind) := by
  have pieces : appendArguments printer none (front ++ 37 :: 64 :: (behind ++ []))
        [.instance description]
      = (front.map (fun byte => [byte]) ++ description.getD (ascii "(null)")
        :: behind.map (fun byte => [byte])).map .text := by
    rw [appendArguments_plain frontFree, appendArguments_described zeroFree,
      appendArguments_plain behindFree]
    simp [Function.comp_def]
  rw [format_texts pieces, List.flatten_append, List.flatten_cons, flatten_bytes, flatten_bytes,
    List.append_assoc]

/-- The columns and the values of an inserting statement. -/
theorem format_inserted {sqlcolumns sqlvalues : Block} (columnsFree : 0 ∉ sqlcolumns)
    (valuesFree : 0 ∉ sqlvalues)
    : stringWithFormat printer (ascii "(%@) VALUES (%@)")
        [.instance (some sqlcolumns), .instance (some sqlvalues)]
      = some (ascii "(" ++ (sqlcolumns ++ (ascii ") VALUES (" ++ (sqlvalues ++ ascii ")")))) := by
  have format : ascii "(%@) VALUES (%@)"
      = ascii "(" ++ 37 :: 64 :: (ascii ") VALUES (" ++ 37 :: 64 :: (ascii ")" ++ [])) := by
    rw [ascii_ofList]
    decide
  have pieces : appendArguments printer none (ascii "(%@) VALUES (%@)")
        [.instance (some sqlcolumns), .instance (some sqlvalues)]
      = ((ascii "(").map (fun byte => [byte]) ++ sqlcolumns
        :: ((ascii ") VALUES (").map (fun byte => [byte]) ++ sqlvalues
          :: (ascii ")").map (fun byte => [byte]))).map .text := by
    have first := @appendArguments_described printer (some sqlcolumns) columnsFree
    have second := @appendArguments_described printer (some sqlvalues) valuesFree
    rw [format, appendArguments_plain (notMem_ofList (by decide)), first,
      appendArguments_plain (notMem_ofList (by decide)), second,
      appendArguments_plain (notMem_ofList (by decide))]
    simp [Function.comp_def]
  rw [format_texts pieces]
  simp only [List.flatten_append, List.flatten_cons, flatten_bytes]

/-- A text without percent signs, as it is. -/
theorem format_plain {text : Block} (free : 37 ∉ text)
    : stringWithFormat printer (text ++ []) [] = some text := by
  have pieces : appendArguments printer none (text ++ []) []
      = (text.map fun byte => [byte]).map .text := by
    rw [appendArguments_plain free]
    simp
  rw [format_texts pieces, flatten_bytes]

/-- A text that a loop appends: it is not empty, has no zero byte and is read as the tokens. -/
structure Appends (text : Block) (found : List Token) : Prop where
  nonempty : text ≠ []
  zeroFree : 0 ∉ text
  reads : Reads text found

/-- Doubling quotes brings in no zero byte. -/
theorem zero_notMem_doubled {text : Block} (zeroFree : 0 ∉ text)
    : 0 ∉ doubled text := by
  intro mem
  obtain ⟨byte, inText, inDoubled⟩ := List.mem_flatMap.mp mem
  split at inDoubled
  · exact absurd inDoubled (by decide)
  · rw [List.mem_singleton] at inDoubled
    exact zeroFree (inDoubled ▸ inText)

/-- A text is appended as a literal. -/
theorem appends_literal {text : Block} (zeroFree : 0 ∉ text)
    : Appends (quote :: doubled text ++ [quote]) [literal text] where
  nonempty := nofun
  zeroFree := by
    simp only [List.cons_append, List.mem_cons, List.mem_append, not_or]
    exact ⟨by decide, zero_notMem_doubled zeroFree, by decide, List.not_mem_nil⟩
  reads := reads_literal text

/-- Digits begin no quoted token and no comment, and none is a zero byte. -/
theorem isInert_of_digit {byte : UInt8} (digit : 48 ≤ byte ∧ byte ≤ 57)
    : IsInert byte ∧ byte ≠ 0 := by
  have all : ∀ byte : UInt8, 48 ≤ byte ∧ byte ≤ 57 → IsInert byte ∧ byte ≠ 0 := by decide +kernel
  exact all byte digit

/-- A number is appended as its digits. -/
theorem appends_unsigned (digits : PrintsDigits printer) (value : ℤ)
    : Appends (printer.print [37, 117] [.scalar value])
        (plainTokens (printer.print [37, 117] [.scalar value])) where
  nonempty := (digits value).1
  zeroFree := fun mem => (isInert_of_digit ((digits value).2 0 mem)).2 rfl
  reads := reads_plain fun byte mem => (isInert_of_digit ((digits value).2 byte mem)).1

/-- The stored text of a list has no zero byte. -/
theorem zero_notMem_storedText (texts : List Block)
    : 0 ∉ storedText texts := by
  intro mem
  rw [storedText, componentsJoinedByString_eq] at mem
  rcases Joining.mem_of_mem_intercalate mem with same | ⟨text, isText, inside⟩
  · exact absurd same (by decide)
  · obtain ⟨original, isOriginal, rfl⟩ := List.mem_map.mp isText
    exact zero_notMem_cstring original inside

/-- A value is inserted with its tokens. -/
theorem insertedValue_appends (digits : PrintsDigits printer) (type : FieldType)
    {value : AccountValue} (zeroFree : value.IsZeroFree)
    : ∃ text, insertedValue printer type value = some text
      ∧ Appends text (insertedTokens printer type value) := by
  obtain ⟨description, date⟩ := zeroFree
  cases type with
  | string => exact ⟨_, format_quoted description, appends_literal description⟩
  | date => exact ⟨_, format_quoted date, appends_literal date⟩
  | number => exact ⟨_, format_unsigned _, appends_unsigned digits _⟩
  | boolean => exact ⟨_, format_unsigned _, appends_unsigned digits _⟩
  | enum => exact ⟨_, format_unsigned _, appends_unsigned digits _⟩
  | list =>
      have stored := zero_notMem_storedText value.elements
      exact ⟨_, format_quoted stored, appends_literal stored⟩

/-- A value is updated with its tokens. -/
theorem updatedValue_appends (digits : PrintsDigits printer) (type : FieldType)
    {value : AccountValue} (zeroFree : value.IsZeroFree)
    : ∃ text, updatedValue printer type value = some text
      ∧ Appends text (updatedTokens printer type (some value)) := by
  obtain ⟨description, date⟩ := zeroFree
  cases type with
  | string => exact ⟨_, format_quoted description, appends_literal description⟩
  | enum => exact ⟨_, format_quoted description, appends_literal description⟩
  | date => exact ⟨_, format_quoted date, appends_literal date⟩
  | number => exact ⟨_, format_unsigned _, appends_unsigned digits _⟩
  | boolean => exact ⟨_, format_unsigned _, appends_unsigned digits _⟩
  | list =>
      have stored := zero_notMem_storedText value.elements
      exact ⟨_, format_quoted stored, appends_literal stored⟩

/-- The name of a column has no zero byte and no backquote. -/
theorem zero_notMem_tableName (field : AccountField)
    : 0 ∉ ascii (field.tableName.getD "(null)") ∧ 96 ∉ ascii (field.tableName.getD "(null)") := by
  have plain : ∀ byte ∈ ascii (field.tableName.getD "(null)"),
      (IsInert byte ∧ byte ≠ 37) ∧ byte ≠ 0 := by
    cases field <;> exact plain_ofList (by decide)
  exact ⟨fun mem => (plain 0 mem).2 rfl, fun mem => (plain 96 mem).1.1.1 rfl⟩

/-- The name of a column is read as one token. -/
theorem appends_column (field : AccountField)
    : Appends (96 :: ascii (field.tableName.getD "(null)") ++ [96]) [columnToken field] := by
  have plain := zero_notMem_tableName field
  refine ⟨nofun, ?_, reads_enclosed (by decide) plain.2⟩
  simp only [List.cons_append, List.mem_cons, List.mem_append, not_or]
  exact ⟨by decide, plain.1, by decide, List.not_mem_nil⟩

/-- `NULL` is appended as it is. -/
theorem appends_null
    : Appends (ascii "NULL") (plainTokens (ascii "NULL")) where
  nonempty := by
    rw [ascii_ofList]
    decide
  zeroFree := notMem_ofList (by decide)
  reads := reads_plain (inert_ofList (by decide))

/-- A column without a value is set to `NULL`. -/
theorem format_null
    : stringWithFormat printer (ascii "NULL") [] = some (ascii "NULL") := by
  have plain := @format_plain printer (ascii "NULL") (notMem_ofList (by decide))
  rwa [List.append_nil] at plain

/-- The name of a column between backquotes. -/
theorem format_column (field : AccountField)
    : stringWithFormat printer (ascii "`%@`") [.instance (field.tableName.map ascii)]
      = some (96 :: ascii (field.tableName.getD "(null)") ++ [96]) := by
  have format : ascii "`%@`" = [96] ++ 37 :: 64 :: ([96] ++ []) := by
    rw [ascii_ofList]
    decide
  have plain := (zero_notMem_tableName field).1
  rw [← Option.getD_map ascii] at plain ⊢
  rw [format, format_described (by decide) (by decide) plain]
  rfl

/-- The name of a column in front of its value. -/
theorem format_columnEquals (field : AccountField)
    : stringWithFormat printer (ascii "`%@` = ") [.instance (field.tableName.map ascii)]
      = some (96 :: ascii (field.tableName.getD "(null)") ++ [96] ++ ascii " = ") := by
  have format : ascii "`%@` = " = [96] ++ 37 :: 64 :: (([96] ++ ascii " = ") ++ []) := by
    rw [ascii_ofList]
    decide
  have plain := (zero_notMem_tableName field).1
  have free : 37 ∉ [96] ++ ascii " = " := by
    rw [ascii_ofList]
    decide
  rw [← Option.getD_map ascii] at plain ⊢
  rw [format, format_described (by decide) free plain]
  simp

/-- A column and its value stand on the sides of an equals sign. -/
theorem Appends.behind {field : AccountField} {value : Block} {found : List Token}
    (column : Appends (96 :: ascii (field.tableName.getD "(null)") ++ [96]) [columnToken field])
    (appends : Appends value found)
    : Appends (96 :: ascii (field.tableName.getD "(null)") ++ [96] ++ ascii " = " ++ value)
        (columnToken field :: plainTokens (ascii " = ") ++ found) where
  nonempty := nofun
  zeroFree := by
    rw [List.mem_append, List.mem_append, not_or, not_or]
    exact ⟨⟨column.zeroFree, notMem_ofList (by decide)⟩, appends.zeroFree⟩
  reads := by
    have equals : ascii " = " = [32, 61, 32] := by
      rw [ascii_ofList]
      decide
    have inert : ∀ byte ∈ ascii " = ", IsInert byte := inert_ofList (by decide)
    rw [equals] at inert
    rw [List.append_assoc, equals]
    refine column.reads.append (appends.reads.behind_plain inert) ?_
    rintro byte first
    obtain rfl : 32 = byte := by simpa using first
    decide

-----------------------------------------------------------------------------------------
-- Loops
-----------------------------------------------------------------------------------------

/-- A text that a loop has built, with a comma between each two parts. -/
structure Builds (string : Block) (parts : List (List Token)) : Prop where
  empty : string = [] ↔ parts = []
  zeroFree : 0 ∉ string
  reads : Reads string (commaTokens parts)

/-- Before the first round there is no text. -/
theorem builds_nil : Builds [] [] where
  empty := ⟨fun _ => rfl, fun _ => rfl⟩
  zeroFree := List.not_mem_nil
  reads := fun _ _ => rfl

/-- One more part stands behind another comma. -/
theorem commaTokens_concat {parts : List (List Token)} (some : parts ≠ []) (part : List Token)
    : commaTokens (parts ++ [part])
      = commaTokens parts ++ (plainTokens (ascii ", ") ++ part) := by
  induction parts with
  | nil => exact absurd rfl some
  | cons first rest ih =>
      cases rest with
      | nil =>
          rw [commaTokens, commaTokens, List.singleton_append, List.intercalate_cons_cons,
            List.intercalate_singleton, List.intercalate_singleton, List.append_assoc]
      | cons second others =>
          have next := ih (List.cons_ne_nil _ _)
          rw [commaTokens, commaTokens] at next
          rw [commaTokens, commaTokens, List.cons_append, List.cons_append,
            List.intercalate_cons_cons, List.intercalate_cons_cons, ← List.cons_append, next]
          simp only [List.append_assoc]

/-- A round builds one more part. -/
theorem Builds.concat {string text : Block} {parts : List (List Token)} {part : List Token}
    (builds : Builds string parts) (appends : Appends text part)
    : Builds (withComma string ++ text) (parts ++ [part]) := by
  have comma : ascii ", " = [44, 32] := by
    rw [ascii_ofList]
    decide
  rcases eq_or_ne string [] with rfl | nonempty
  · obtain rfl := builds.empty.mp rfl
    refine ⟨by simp [withComma, appends.nonempty], ?_, ?_⟩
    · simpa [withComma] using appends.zeroFree
    · simpa [withComma, commaTokens] using appends.reads
  · have some : parts ≠ [] := fun none => nonempty (builds.empty.mpr none)
    have long : string.length > 0 := List.length_pos_of_ne_nil nonempty
    rw [withComma, if_pos long, comma, List.append_assoc]
    refine ⟨by simp [nonempty], ?_, ?_⟩
    · rw [List.mem_append, List.mem_append, not_or, not_or]
      exact ⟨builds.zeroFree, by decide, appends.zeroFree⟩
    · have inert : ∀ byte ∈ ascii ", ", IsInert byte := inert_ofList (by decide)
      rw [comma] at inert
      rw [commaTokens_concat some, comma]
      refine builds.reads.append (appends.reads.behind_plain inert) ?_
      rintro byte first
      obtain rfl : 44 = byte := by simpa using first
      decide

/-- The loop of an inserting statement builds the columns and the values, by induction on the values
that are left.
-/
theorem foldlM_insertRound (digits : PrintsDigits printer) (accounttype : ℕ)
    {values : List (AccountField × AccountValue)}
    (zeroFree : ∀ entry ∈ values, entry.2.IsZeroFree) (strings : Block × Block)
    {columns parts : List (List Token)} (columnsBuilt : Builds strings.1 columns)
    (partsBuilt : Builds strings.2 parts)
    : ∃ sqlcolumns sqlvalues,
      values.foldlM (insertRound printer accounttype) strings = some (sqlcolumns, sqlvalues)
      ∧ Builds sqlcolumns (columns ++ (values.filter fun entry => entry.1.isFor accounttype).map
        fun entry => [columnToken entry.1])
      ∧ Builds sqlvalues (parts ++ (values.filter fun entry => entry.1.isFor accounttype).map
        fun entry => insertedTokens printer entry.1.type entry.2) := by
  induction values generalizing strings columns parts with
  | nil => exact ⟨strings.1, strings.2, rfl, by simpa using columnsBuilt, by simpa using partsBuilt⟩
  | cons entry rest ih =>
      have restFree : ∀ other ∈ rest, other.2.IsZeroFree :=
        fun other mem => zeroFree other (List.mem_cons_of_mem entry mem)
      rw [List.foldlM_cons]
      by_cases selected : entry.1.isFor accounttype = true
      · obtain ⟨value, valueText, valueAppends⟩ :=
          insertedValue_appends digits entry.1.type (zeroFree entry List.mem_cons_self)
        have round : insertRound printer accounttype strings entry
            = some (withComma strings.1
                ++ (96 :: ascii (entry.1.tableName.getD "(null)") ++ [96]),
              withComma strings.2 ++ value) := by
          rw [insertRound, if_pos selected, format_column, valueText]
          rfl
        obtain ⟨sqlcolumns, sqlvalues, ran, columnsBuilt', partsBuilt'⟩ :=
          ih restFree (_, _) (columnsBuilt.concat (appends_column entry.1)) (partsBuilt.concat valueAppends)
        refine ⟨sqlcolumns, sqlvalues, by rw [round]; exact ran, ?_, ?_⟩
        · simpa [List.filter_cons, selected] using columnsBuilt'
        · simpa [List.filter_cons, selected] using partsBuilt'
      · have round : insertRound printer accounttype strings entry = some strings :=
          if_neg selected
        obtain ⟨sqlcolumns, sqlvalues, ran, columnsBuilt', partsBuilt'⟩ :=
          ih restFree strings columnsBuilt partsBuilt
        refine ⟨sqlcolumns, sqlvalues, by rw [round]; exact ran, ?_, ?_⟩
        · simpa [List.filter_cons, selected] using columnsBuilt'
        · simpa [List.filter_cons, selected] using partsBuilt'

/-- The loop of an updating statement builds the columns with their values, by induction on the
fields that are left.
-/
theorem foldlM_updateRound (digits : PrintsDigits printer) (accounttype : ℕ)
    {values : AccountField → Option AccountValue}
    (zeroFree : ∀ field value, values field = some value → value.IsZeroFree)
    (fields : List AccountField) {string : Block} {parts : List (List Token)}
    (built : Builds string parts)
    : ∃ text, fields.foldlM (updateRound printer values accounttype) string = some text
      ∧ Builds text (parts ++ (fields.filter fun field => field.isFor accounttype).map
        fun field => columnToken field :: plainTokens (ascii " = ")
          ++ updatedTokens printer field.type (values field)) := by
  induction fields generalizing string parts with
  | nil => exact ⟨string, rfl, by simpa using built⟩
  | cons field rest ih =>
      rw [List.foldlM_cons]
      by_cases selected : field.isFor accounttype = true
      · obtain ⟨value, valueText, valueAppends⟩ : ∃ value,
            updatedColumn printer field.type (values field) = some value
            ∧ Appends value (updatedTokens printer field.type (values field)) := by
          cases found : values field with
          | some value => exact updatedValue_appends digits field.type (zeroFree field value found)
          | none => exact ⟨_, format_null, appends_null⟩
        have round : updateRound printer values accounttype string field
            = some (withComma string
              ++ (96 :: ascii (field.tableName.getD "(null)") ++ [96] ++ ascii " = " ++ value)) := by
          rw [updateRound, if_pos selected, format_columnEquals, valueText]
          simp
        obtain ⟨text, ran, built'⟩ :=
          ih (built.concat ((appends_column field).behind valueAppends))
        refine ⟨text, by rw [round]; exact ran, ?_⟩
        simpa [List.filter_cons, selected] using built'
      · have round : updateRound printer values accounttype string field = some string :=
          if_neg selected
        obtain ⟨text, ran, built'⟩ := ih built
        refine ⟨text, by rw [round]; exact ran, ?_⟩
        simpa [List.filter_cons, selected] using built'

-----------------------------------------------------------------------------------------
-- Statements
-----------------------------------------------------------------------------------------

/-- A statement is formatted around a text, with its tokens between the others. -/
theorem tokens_around {front behind text : Block} {found : List Token}
    (frontInert : ∀ byte ∈ front, IsInert byte ∧ byte ≠ 37)
    (behindInert : ∀ byte ∈ behind, IsInert byte ∧ byte ≠ 37) (zeroFree : 0 ∉ text)
    (reads : Reads text found)
    : ∃ statement,
      stringWithFormat printer (front ++ 37 :: 64 :: (behind ++ [])) [.instance (some text)]
        = some statement
      ∧ tokens (symbols statement) = plainTokens front ++ (found ++ plainTokens behind) := by
  have frontFree : 37 ∉ front := fun mem => (frontInert 37 mem).2 rfl
  have behindFree : 37 ∉ behind := fun mem => (behindInert 37 mem).2 rfl
  have whole := reads.between (fun byte mem => (frontInert byte mem).1)
    fun byte mem => (behindInert byte mem).1
  have described := @format_described printer front behind frontFree behindFree (some text) zeroFree
  rw [List.append_assoc] at described
  exact ⟨_, described, whole.tokens_eq⟩

/-- The text of an inserting statement has the tokens of its columns and values. -/
theorem sqlite3InsertString_reads (digits : PrintsDigits printer) (accounttype : ℕ)
    {values : List (AccountField × AccountValue)} (zeroFree : ∀ entry ∈ values, entry.2.IsZeroFree)
    : ∃ text, sqlite3InsertString printer values accounttype = some text
      ∧ 0 ∉ text
      ∧ Reads text
        (plainTokens (ascii "(")
          ++ (commaTokens ((values.filter fun entry => entry.1.isFor accounttype).map
              fun entry => [columnToken entry.1])
            ++ (plainTokens (ascii ") VALUES (")
              ++ (commaTokens ((values.filter fun entry => entry.1.isFor accounttype).map
                  fun entry => insertedTokens printer entry.1.type entry.2)
                ++ plainTokens (ascii ")"))))) := by
  obtain ⟨sqlcolumns, sqlvalues, ran, columns, parts⟩ :=
    foldlM_insertRound digits accounttype zeroFree ([], []) builds_nil builds_nil
  rw [List.nil_append] at columns parts
  have written := @format_inserted printer _ _ columns.zeroFree parts.zeroFree
  refine ⟨_, by rw [sqlite3InsertString, ran]; exact written, ?_, ?_⟩
  · simp only [List.mem_append, not_or]
    exact ⟨notMem_ofList (by decide), columns.zeroFree, notMem_ofList (by decide),
      parts.zeroFree, notMem_ofList (by decide)⟩
  · have front : ∀ byte ∈ ascii ") VALUES (", IsInert byte := inert_ofList (by decide)
    have behind : ∀ byte ∈ ascii ")", IsInert byte := inert_ofList (by decide)
    refine (columns.reads.append (parts.reads.between front behind) ?_).behind_plain
      (inert_ofList (by decide))
    have first (rest : Block) : (ascii ") VALUES (" ++ rest).head? = some 41 := rfl
    rintro byte start
    rw [first] at start
    obtain rfl := Option.some.inj start
    decide

/-- An inserting statement has the tokens of its values. -/
theorem tokens_insertStatement (digits : PrintsDigits printer) (table : AccountTable)
    (accounttype : ℕ) {values : List (AccountField × AccountValue)}
    (zeroFree : ∀ entry ∈ values, entry.2.IsZeroFree)
    : ∃ statement, insertStatement printer table values accounttype = some statement
      ∧ tokens (symbols statement) = insertStatementTokens printer table values accounttype := by
  obtain ⟨text, formatted, textFree, reads⟩ := sqlite3InsertString_reads digits accounttype zeroFree
  have nothing : ∀ byte ∈ ([] : Block), IsInert byte ∧ byte ≠ 37 := List.forall_mem_nil _
  cases table with
  | users =>
      have format : ascii "INSERT INTO users %@"
          = ascii "INSERT INTO users " ++ 37 :: 64 :: ([] ++ []) := by
            rw [ascii_ofList]
            decide
      have inert : ∀ byte ∈ ascii "INSERT INTO users ", IsInert byte ∧ byte ≠ 37 :=
        unformatted_ofList (by decide)
      have opened : ascii "INSERT INTO users (" = ascii "INSERT INTO users " ++ ascii "(" := by
        rw [ascii_ofList]
        decide
      obtain ⟨statement, whole, found⟩ := tokens_around inert nothing textFree reads
      refine ⟨statement, ?_, found.trans ?_⟩
      · rw [insertStatement, formatted]
        exact (congrArg (stringWithFormat printer · _) format).trans whole
      · simp [insertStatementTokens, opened, plainTokens]
  | groups =>
      have format : ascii "INSERT INTO groups %@"
          = ascii "INSERT INTO groups " ++ 37 :: 64 :: ([] ++ []) := by
            rw [ascii_ofList]
            decide
      have inert : ∀ byte ∈ ascii "INSERT INTO groups ", IsInert byte ∧ byte ≠ 37 :=
        unformatted_ofList (by decide)
      have opened : ascii "INSERT INTO groups (" = ascii "INSERT INTO groups " ++ ascii "(" := by
        rw [ascii_ofList]
        decide
      obtain ⟨statement, whole, found⟩ := tokens_around inert nothing textFree reads
      refine ⟨statement, ?_, found.trans ?_⟩
      · rw [insertStatement, formatted]
        exact (congrArg (stringWithFormat printer · _) format).trans whole
      · simp [insertStatementTokens, opened, plainTokens]

/-- An updating statement has the tokens of its values. -/
theorem tokens_updateStatement (digits : PrintsDigits printer) (table : AccountTable)
    (fields : List AccountField) {values : AccountField → Option AccountValue} (accounttype : ℕ)
    (zeroFree : ∀ field value, values field = some value → value.IsZeroFree)
    : ∃ statement, updateStatement printer table fields values accounttype = some statement
      ∧ tokens (symbols statement)
        = updateStatementTokens printer table fields values accounttype := by
  obtain ⟨text, formatted, built⟩ := foldlM_updateRound digits accounttype zeroFree fields builds_nil
  rw [List.nil_append] at built
  have behind : ∀ byte ∈ ascii " WHERE name = ?", IsInert byte ∧ byte ≠ 37 :=
    unformatted_ofList (by decide)
  cases table with
  | users =>
      have format : ascii "UPDATE users SET %@ WHERE name = ?"
          = ascii "UPDATE users SET " ++ 37 :: 64 :: (ascii " WHERE name = ?" ++ []) := by
        rw [ascii_ofList]
        decide
      have inert : ∀ byte ∈ ascii "UPDATE users SET ", IsInert byte ∧ byte ≠ 37 :=
        unformatted_ofList (by decide)
      obtain ⟨statement, whole, found⟩ := tokens_around inert behind built.zeroFree built.reads
      refine ⟨statement, ?_, found.trans ?_⟩
      · rw [updateStatement, sqlite3UpdateString, formatted]
        exact (congrArg (stringWithFormat printer · _) format).trans whole
      · simp [updateStatementTokens]
  | groups =>
      have format : ascii "UPDATE groups SET %@ WHERE name = ?"
          = ascii "UPDATE groups SET " ++ 37 :: 64 :: (ascii " WHERE name = ?" ++ []) := by
        rw [ascii_ofList]
        decide
      have inert : ∀ byte ∈ ascii "UPDATE groups SET ", IsInert byte ∧ byte ≠ 37 :=
        unformatted_ofList (by decide)
      obtain ⟨statement, whole, found⟩ := tokens_around inert behind built.zeroFree built.reads
      refine ⟨statement, ?_, found.trans ?_⟩
      · rw [updateStatement, sqlite3UpdateString, formatted]
        exact (congrArg (stringWithFormat printer · _) format).trans whole
      · simp [updateStatementTokens]

/-- A literal behind an escape clause. -/
theorem reads_escape
    : Reads (ascii " ESCAPE " ++ (quote :: doubled (ascii "\\") ++ [quote]))
        (plainTokens (ascii " ESCAPE ") ++ [literal (ascii "\\")]) :=
  (reads_literal _).behind_plain (inert_ofList (by decide))

/-- A pattern that is searched for, in front of more of the statement. -/
theorem reads_pattern {front behind : Block} (text : Block) {found : List Token}
    (frontInert : ∀ byte ∈ front, IsInert byte) (reads : Reads behind found)
    (plain : ∀ byte, behind.head? = some byte → ¬isDelimiter byte)
    : Reads (front ++ ((quote :: doubled text ++ [quote]) ++ behind))
        (plainTokens front ++ ([literal text] ++ found)) :=
  ((reads_literal text).append reads plain).behind_plain frontInert

/-- The name of the index between backquotes. -/
theorem reads_index {behind : Block} {found : List Token} (reads : Reads behind found)
    (plain : ∀ byte, behind.head? = some byte → ¬isDelimiter byte)
    : Reads (ascii "SELECT name, virtual_path, real_path, alias FROM "
          ++ ((96 :: ascii "index" ++ [96]) ++ behind))
        (plainTokens (ascii "SELECT name, virtual_path, real_path, alias FROM ")
          ++ ([.quoted 96 (symbols (ascii "index"))] ++ found)) := by
  have enclosed : Reads (96 :: ascii "index" ++ [96]) [.quoted 96 (symbols (ascii "index"))] :=
    reads_enclosed (by decide) (notMem_ofList (by decide))
  exact (enclosed.append reads plain).behind_plain (inert_ofList (by decide))

/-- The percent sign behind a text is not doubled. -/
theorem doubled_percent (text : Block)
    : doubled (text ++ ascii "%") = doubled text ++ [37] := by
  have percent : doubled (ascii "%") = [37] := by
    rw [ascii_ofList]
    decide
  rw [doubled_append, percent]

/-- The pieces of a statement that searches for a query, up to its first escape clause. -/
theorem appendArguments_query (query rest : Block) (arguments : List FormatArgument)
    : appendArguments printer none
        (ascii "SELECT name, virtual_path, real_path, alias FROM `index` WHERE name LIKE '"
          ++ 37 :: 37 :: 37 :: 113 :: 37 :: 37 :: (ascii "' ESCAPE '\\'" ++ rest))
        (.instance (some query) :: arguments)
      = (ascii "SELECT name, virtual_path, real_path, alias FROM `index` WHERE name LIKE '").map
          (fun byte => .text [byte])
        ++ .text [37] :: .escaped query :: .text [37]
          :: ((ascii "' ESCAPE '\\'").map (fun byte => .text [byte])
            ++ appendArguments printer none rest arguments) := by
  rw [appendArguments_plain (notMem_ofList (by decide)), appendArguments_percent,
    appendArguments_escape, appendArguments_percent,
    appendArguments_plain (notMem_ofList (by decide))]

/-- The pieces of the condition on a directory. -/
theorem appendArguments_directory (accountpath : Block)
    : appendArguments printer none
        (ascii " AND virtual_path LIKE '" ++ 37 :: 113 :: 37 :: 37 :: (ascii "' ESCAPE '\\'" ++ []))
        [.instance (some accountpath)]
      = (ascii " AND virtual_path LIKE '").map (fun byte => .text [byte])
        ++ .escaped accountpath :: .text [37]
          :: (ascii "' ESCAPE '\\'").map (fun byte => .text [byte]) := by
  rw [appendArguments_plain (notMem_ofList (by decide)), appendArguments_escape,
    appendArguments_percent, appendArguments_plain (notMem_ofList (by decide))]
  simp

/-- A text that is written between quotes and has an escape clause. -/
theorem quote_escape
    : ascii "' ESCAPE '\\'"
      = quote :: (ascii " ESCAPE " ++ (quote :: doubled (ascii "\\") ++ [quote])) := by
  rw [ascii_ofList]
  decide

/-- The text of a search up to its query. -/
theorem search_front
    : ascii "SELECT name, virtual_path, real_path, alias FROM `index` WHERE name LIKE '"
      = ascii "SELECT name, virtual_path, real_path, alias FROM "
        ++ ((96 :: ascii "index" ++ [96]) ++ (ascii " WHERE name LIKE " ++ [quote])) := by
  rw [ascii_ofList]
  decide

/-- A search is read with its query between two percent signs, in front of more of it. -/
theorem reads_query (query : Block) {behind : Block} {found : List Token} (reads : Reads behind found)
    (plain : ∀ byte, behind.head? = some byte → ¬isDelimiter byte)
    : Reads (ascii "SELECT name, virtual_path, real_path, alias FROM `index` WHERE name LIKE '"
          ++ 37 :: (doubled query ++ 37 :: (ascii "' ESCAPE '\\'" ++ behind)))
        (plainTokens (ascii "SELECT name, virtual_path, real_path, alias FROM ")
          ++ ([.quoted 96 (symbols (ascii "index"))]
            ++ (plainTokens (ascii " WHERE name LIKE ")
              ++ ([literal (ascii "%" ++ query ++ ascii "%")]
                ++ (plainTokens (ascii " ESCAPE ") ++ [literal (ascii "\\")] ++ found))))) := by
  have inert : ∀ byte ∈ ascii " WHERE name LIKE ", IsInert byte :=
    inert_ofList (by decide)
  have pattern := reads_pattern (ascii "%" ++ query ++ ascii "%") inert
    (reads_escape.append reads plain)
    (by rw [List.append_assoc]; exact startsPlain_ofList rfl _)
  have whole := reads_index pattern (startsPlain_ofList rfl _)
  have percents : doubled (ascii "%" ++ query ++ ascii "%") = 37 :: (doubled query ++ [37]) := by
    rw [doubled_percent, doubled_append]
    rfl
  have text : ascii "SELECT name, virtual_path, real_path, alias FROM `index` WHERE name LIKE '"
        ++ 37 :: (doubled query ++ 37 :: (ascii "' ESCAPE '\\'" ++ behind))
      = ascii "SELECT name, virtual_path, real_path, alias FROM "
        ++ ((96 :: ascii "index" ++ [96])
          ++ (ascii " WHERE name LIKE "
            ++ ((quote :: doubled (ascii "%" ++ query ++ ascii "%") ++ [quote])
              ++ ((ascii " ESCAPE " ++ (quote :: doubled (ascii "\\") ++ [quote])) ++ behind)))) := by
    rw [search_front, quote_escape, percents]
    simp only [List.append_assoc, List.cons_append, List.nil_append]
  rw [text]
  exact whole

/-- A condition on a directory is read with the directory in front of a percent sign. -/
theorem reads_directory (accountpath : Block)
    : Reads (ascii " AND virtual_path LIKE '"
          ++ (doubled accountpath ++ 37 :: ascii "' ESCAPE '\\'"))
        (plainTokens (ascii " AND virtual_path LIKE ")
          ++ ([literal (accountpath ++ ascii "%")]
            ++ (plainTokens (ascii " ESCAPE ") ++ [literal (ascii "\\")]))) := by
  have inert : ∀ byte ∈ ascii " AND virtual_path LIKE ", IsInert byte :=
    inert_ofList (by decide)
  have whole := reads_pattern (accountpath ++ ascii "%") inert reads_escape
    (startsPlain_ofList rfl _)
  have front : ascii " AND virtual_path LIKE '" = ascii " AND virtual_path LIKE " ++ [quote] := by
    rw [ascii_ofList]
    decide
  have text : ascii " AND virtual_path LIKE '"
        ++ (doubled accountpath ++ 37 :: ascii "' ESCAPE '\\'")
      = ascii " AND virtual_path LIKE "
        ++ ((quote :: doubled (accountpath ++ ascii "%") ++ [quote])
          ++ (ascii " ESCAPE " ++ (quote :: doubled (ascii "\\") ++ [quote]))) := by
    rw [front, quote_escape, doubled_percent]
    simp only [List.append_assoc, List.cons_append, List.nil_append]
  rw [text]
  exact whole

/-- Bytes that are written as they are come to themselves. -/
theorem flatMap_bytes (text : Block)
    : (text.map fun byte => Piece.text [byte]).flatMap Piece.output = text := by
  rw [List.flatMap_map]
  exact List.flatMap_singleton' text

/-- Bytes that are written as they are hold no text that is escaped. -/
theorem isZeroFree_of_bytes {text : Block} {piece : Piece}
    (mem : piece ∈ text.map fun byte => Piece.text [byte])
    : piece.IsZeroFree := by
  obtain ⟨byte, -, rfl⟩ := List.mem_map.mp mem
  trivial

/-- The statement of a search has the query and the directory in its patterns. -/
theorem tokens_searchStatement {query : Block} {accountpath : Option Block} (queryFree : 0 ∉ query)
    (pathFree : ∀ path, accountpath = some path → 0 ∉ path)
    : ∃ statement, searchStatement printer query accountpath = some statement
      ∧ tokens (symbols statement) = searchStatementTokens query accountpath := by
  cases accountpath with
  | some accountpath =>
      have format : ascii "SELECT name, virtual_path, real_path, alias " ++ ascii "FROM `index` "
            ++ ascii "WHERE name LIKE '%%%q%%' ESCAPE '\\' "
            ++ ascii "AND virtual_path LIKE '%q%%' ESCAPE '\\'"
          = ascii "SELECT name, virtual_path, real_path, alias FROM `index` WHERE name LIKE '"
            ++ 37 :: 37 :: 37 :: 113 :: 37 :: 37 :: (ascii "' ESCAPE '\\'"
              ++ (ascii " AND virtual_path LIKE '"
                ++ 37 :: 113 :: 37 :: 37 :: (ascii "' ESCAPE '\\'" ++ []))) := by
        rw [ascii_ofList]
        decide
      have pieces := @appendArguments_query printer query
        (ascii " AND virtual_path LIKE '" ++ 37 :: 113 :: 37 :: 37 :: (ascii "' ESCAPE '\\'" ++ []))
        [.instance (some accountpath)]
      rw [appendArguments_directory] at pieces
      have reads := reads_query query (reads_directory accountpath)
        (startsPlain_ofList rfl _)
      refine ⟨_, (congrArg (stringWithFormat printer · _) format).trans (stringWithFormat_eq ?_), ?_⟩
      · rw [pieces]
        simp only [List.mem_append, List.mem_cons]
        rintro piece (bytes | rfl | rfl | rfl | bytes | bytes | rfl | rfl | bytes)
        exacts [isZeroFree_of_bytes bytes, trivial, queryFree, trivial, isZeroFree_of_bytes bytes,
          isZeroFree_of_bytes bytes, pathFree _ rfl, trivial, isZeroFree_of_bytes bytes]
      · rw [pieces]
        simp only [List.flatMap_append, List.flatMap_cons, flatMap_bytes, Piece.output,
          List.singleton_append]
        exact reads.tokens_eq.trans (by simp [searchStatementTokens])
  | none =>
      have format : ascii "SELECT name, virtual_path, real_path, alias " ++ ascii "FROM `index` "
            ++ ascii "WHERE name LIKE '%%%q%%' ESCAPE '\\'"
          = ascii "SELECT name, virtual_path, real_path, alias FROM `index` WHERE name LIKE '"
            ++ 37 :: 37 :: 37 :: 113 :: 37 :: 37 :: ascii "' ESCAPE '\\'" := by
        rw [ascii_ofList]
        decide
      have pieces := @appendArguments_query printer query [] []
      rw [appendArguments_nil, List.append_nil, List.append_nil] at pieces
      have reads := reads_query query (reads_plain (List.forall_mem_nil _)) fun _ first => by cases first
      rw [List.append_nil] at reads
      refine ⟨_, (congrArg (stringWithFormat printer · _) format).trans (stringWithFormat_eq ?_), ?_⟩
      · rw [pieces]
        simp only [List.mem_append, List.mem_cons]
        rintro piece (bytes | rfl | rfl | rfl | bytes)
        exacts [isZeroFree_of_bytes bytes, trivial, queryFree, trivial, isZeroFree_of_bytes bytes]
      · rw [pieces]
        simp only [List.flatMap_append, List.flatMap_cons, flatMap_bytes, Piece.output,
          List.singleton_append]
        exact reads.tokens_eq.trans (by simp [searchStatementTokens, plainTokens])

-----------------------------------------------------------------------------------------
-- Every statement
-----------------------------------------------------------------------------------------

/-- What `snprintf` writes for `%u`: the number as one of 32 bits, in digits. -/
def unsignedPrinter : Printer where
  print
    | [37, 117], [.scalar value] => ascii (toString (value % 2 ^ 32).toNat)
    | _, _ => []
  errorString := ascii "No error"

/-- The decimal digits of a number are printed. -/
theorem printsDigits_unsignedPrinter : PrintsDigits unsignedPrinter := by
  intro value
  have digits : unsignedPrinter.print [37, 117] [.scalar value]
      = (Nat.toDigits 10 (value % 2 ^ 32).toNat).map fun char => char.val.toUInt8 := by
    rw [← Nat.toList_repr]
    rfl
  rw [digits]
  refine ⟨by simp [Nat.toDigits_ne_nil], ?_⟩
  rintro byte mem
  obtain ⟨char, isChar, rfl⟩ := List.mem_map.mp mem
  have digit := Nat.isDigit_of_mem_toDigits (by decide) (by decide) isChar
  simp only [Char.isDigit, Bool.and_eq_true, decide_eq_true_eq, ge_iff_le,
    UInt32.le_iff_toNat_le] at digit
  simp only [UInt8.le_iff_toNat_le, UInt32.toNat_toUInt8]
  obtain ⟨least, most⟩ := digit
  change 48 ≤ _ at least
  change _ ≤ 57 at most
  change 48 ≤ _ ∧ _ ≤ 57
  omega

end WiredServer.Server
