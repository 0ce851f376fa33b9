import WiredServer.Lib.Machine
import WiredServer.Lib.PartialMaps
import WiredServer.Files.FilePlaces

/-! Comments and labels of files. Each directory has a store for the comments and one for the labels of its
files, dictionaries that are read, changed and written again or deleted.
-/

namespace WiredServer.Files

open WiredServer.PathStrings

-----------------------------------------------------------------------------------------
-- Stores
-----------------------------------------------------------------------------------------

/-- What a property list is read as. -/
inductive Instance (ν : Type) where
  | dictionary (entries : AList fun _ : List Char => ν)
  | other

/-- An instance is a dictionary. -/
def Instance.isDictionary {ν : Type} : Instance ν → Bool
  | .dictionary _ => true
  | .other => false

/-- The store files of the directories, as they are read. -/
abbrev Stores (δ ν : Type) :=
  δ → Option (Instance ν)

/-- What a store has for a name. -/
def storeValue {ν : Type} (store : Option (Instance ν)) (name : List Char) : Option ν :=
  match store with
  | some (.dictionary entries) => entries.lookup name
  | some .other | none => none

/-- What the stores have for a file. -/
def Stores.value {δ ν : Type} (stores : Stores δ ν) (place : δ × List Char) : Option ν :=
  storeValue (stores place.1) place.2

section Operations

variable {δ ν : Type} [DecidableEq δ] (directoryAt : Location → δ) (home : Option (List Char))
variable (files : List Char)

/-- The entries of a store to which one is added: those of a new dictionary if there is none. -/
def entriesToChange (stores : Stores δ ν) (directory : δ) : AList fun _ : List Char => ν :=
  match stores directory with
  | some (.dictionary entries) => entries
  | some .other | none => ∅

/-- Sets the value of a file. -/
def setValue (stores : Stores δ ν) (path : List Char) (value : ν) (account : List Char)
    : Option (Stores δ ν) := do
  let name := lastPathComponent path
  let dirpath ← deletingLastPathComponent home path
  let directory := directoryAt (location (resolvedPath files account dirpath))
  let entries := (entriesToChange stores directory).insert name value
  return Function.update stores directory (some (.dictionary entries))

/-- Removes the value of a file, if the store passes a test of its class. Removing something from another
instance than a dictionary is undefined.
-/
def removeValue (test : Instance ν → Bool) (stores : Stores δ ν) (path account : List Char)
    : Option (Stores δ ν) := do
  let name := lastPathComponent path
  let dirpath ← deletingLastPathComponent home path
  let directory := directoryAt (location (resolvedPath files account dirpath))
  match stores directory with
  | none => return stores
  | some found =>
      if test found then
        match found with
        | .dictionary entries =>
            let entries := entries.erase name
            return Function.update stores directory
              (if entries.keys.length > 0 then some (.dictionary entries) else none)
        | .other => none
      else return stores

/-- The value of a file by its real path. -/
def valueOfFile (stores : Stores δ ν) (realpath : List Char) : Option (Option ν) :=
  (deletingLastPathComponent home realpath).map fun dirpath =>
    storeValue (stores (directoryAt (location dirpath))) (lastPathComponent realpath)

/-- Moves the value of a file, if it is one that is moved. -/
def moveValue (test : Instance ν → Bool) (moves : ν → Bool) (stores : Stores δ ν)
    (frompath topath account : List Char)
    : Option (Stores δ ν) := do
  match ← valueOfFile directoryAt home stores (resolvedPath files account frompath) with
  | none => return stores
  | some value =>
      if moves value then
        let stores ← removeValue directoryAt home files test stores frompath account
        setValue directoryAt home files stores topath value account
      else return stores

end Operations

-----------------------------------------------------------------------------------------
-- Comments
-----------------------------------------------------------------------------------------

section Comments

variable {δ : Type} [DecidableEq δ] (directoryAt : Location → δ) (home : Option (List Char))
variable (files : List Char) (stores : Stores δ (List Char))

/-- `wd_files_comment` without the files of the old style. -/
def comment (path : List Char) : Option (Option (List Char)) :=
  valueOfFile directoryAt home stores path

/-- `wd_files_set_comment` -/
def setComment (path comment account : List Char) : Option (Stores δ (List Char)) :=
  setValue directoryAt home files stores path comment account

/-- The test of the class in `wd_files_remove_comment` -/
def removesComment (found : Instance (List Char)) : Bool :=
  !found.isDictionary

/-- No dictionary passes the test. -/
theorem fails_removesComment (entries : AList fun _ : List Char => List Char)
    : removesComment (.dictionary entries) = false :=
  rfl

/-- `wd_files_remove_comment` -/
def removeComment (path account : List Char) : Option (Stores δ (List Char)) :=
  removeValue directoryAt home files removesComment stores path account

/-- `wd_files_move_comment` -/
def moveComment (frompath topath account : List Char) : Option (Stores δ (List Char)) :=
  moveValue directoryAt home files removesComment (fun _ => true) stores frompath topath account

end Comments

-----------------------------------------------------------------------------------------
-- Labels
-----------------------------------------------------------------------------------------

/-- `WD_FILE_LABEL_NONE` -/
def noLabel : Int32 :=
  0

section Labels

variable {δ : Type} [DecidableEq δ] (directoryAt : Location → δ) (home : Option (List Char))
variable (files : List Char) (stores : Stores δ Int32)

/-- `wd_files_label` -/
def label (path : List Char) : Option Int32 :=
  (valueOfFile directoryAt home stores path).map fun label => label.getD noLabel

/-- `wd_files_set_label` -/
def setLabel (path : List Char) (label : Int32) (account : List Char) : Option (Stores δ Int32) :=
  setValue directoryAt home files stores path label account

/-- The test of the class in `wd_files_remove_label` -/
def removesLabel (found : Instance Int32) : Bool :=
  found.isDictionary

/-- All dictionaries pass the test. -/
theorem passes_removesLabel (entries : AList fun _ : List Char => Int32)
    : removesLabel (.dictionary entries) = true :=
  rfl

/-- `wd_files_remove_label` -/
def removeLabel (path account : List Char) : Option (Stores δ Int32) :=
  removeValue directoryAt home files removesLabel stores path account

/-- `wd_files_move_label` -/
def moveLabel (frompath topath account : List Char) : Option (Stores δ Int32) :=
  moveValue directoryAt home files removesLabel (· ≠ noLabel) stores frompath topath account

end Labels

-----------------------------------------------------------------------------------------
-- Runs
-----------------------------------------------------------------------------------------

/-- The stores of all directories. -/
structure FileStores (δ : Type) where
  comments : Stores δ (List Char)
  labels : Stores δ Int32

/-- What is done with comments and labels: by a user with the directory of the account, after the move of a
file for such a user, and at the end of an upload with real paths and no user.
-/
inductive StoreAction (home : Option (List Char)) where
  | setComment (account : List Char) (file : ClientPath home) (comment : List Char)
  | removeComment (account : List Char) (file : ClientPath home)
  | setLabel (account : List Char) (file : ClientPath home) (label : { label // label ≠ noLabel })
  | removeLabel (account : List Char) (file : ClientPath home)
  | moveFile (account : List Char) (source destination : ClientPath home)
  | endUpload (realdatapath path : List Char)

section Runs

variable {δ : Type} [DecidableEq δ] (directoryAt : Location → δ) {home : Option (List Char)}
variable (files : List Char)

/-- The calls that `wd_files_move_path` and `wd_transfers_run_upload` make after a file was renamed. -/
def moveCommentAndLabel (home : Option (List Char)) (frompath topath account : List Char)
    (stores : FileStores δ)
    : Option (FileStores δ) := do
  let comments ← moveComment directoryAt home files stores.comments frompath topath account
  let labels ← moveLabel directoryAt home files stores.labels frompath topath account
  return { comments, labels }

/-- What an action does with the stores. -/
def storeStep (action : StoreAction home) (stores : FileStores δ) : Option (FileStores δ) :=
  match action with
  | .setComment account file comment =>
      (setComment directoryAt home files stores.comments file.path comment account).map
        fun comments => { stores with comments }
  | .removeComment account file =>
      (removeComment directoryAt home files stores.comments file.path account).map
        fun comments => { stores with comments }
  | .setLabel account file label =>
      (setLabel directoryAt home files stores.labels file.path label account).map
        fun labels => { stores with labels }
  | .removeLabel account file =>
      (removeLabel directoryAt home files stores.labels file.path account).map
        fun labels => { stores with labels }
  | .moveFile account source destination =>
      moveCommentAndLabel directoryAt files home source.path destination.path account stores
  | .endUpload realdatapath path =>
      moveCommentAndLabel directoryAt files home realdatapath path [] stores

end Runs

-----------------------------------------------------------------------------------------
-- Maps
-----------------------------------------------------------------------------------------

/-- The comments and labels that files have, by their places. -/
structure FileValues (δ : Type) where
  comments : δ × List Char → Option (List Char)
  labels : δ × List Char → Option Int32

/-- What the stores have for all files. -/
def FileStores.values {δ : Type} (stores : FileStores δ) : FileValues δ where
  comments := stores.comments.value
  labels := stores.labels.value

/-- Moves the comment and the label of a file. -/
def FileValues.move {δ : Type} [DecidableEq δ] (values : FileValues δ)
    (source destination : δ × List Char)
    : FileValues δ where
  comments := PartialMap.moved values.comments source destination
  labels := PartialMap.moved values.labels source destination

section Maps

variable {δ : Type} [DecidableEq δ] (directoryAt : Location → δ) {home : Option (List Char)}
variable (files : List Char)

/-- The place of a file of an account. -/
def placeOfFile (account : List Char) (file : ClientPath home) : Option (δ × List Char) :=
  filePlace directoryAt home (resolvedPath files account file.path)

/-- What an action should do with comments and labels. -/
def valueStep (action : StoreAction home) (values : FileValues δ) : Option (FileValues δ) :=
  match action with
  | .setComment account file comment =>
      (placeOfFile directoryAt files account file).map fun place =>
        { values with comments := Function.update values.comments place (some comment) }
  | .removeComment account file =>
      (placeOfFile directoryAt files account file).map fun place =>
        { values with comments := Function.update values.comments place none }
  | .setLabel account file label =>
      (placeOfFile directoryAt files account file).map fun place =>
        { values with labels := Function.update values.labels place (some label.1) }
  | .removeLabel account file =>
      (placeOfFile directoryAt files account file).map fun place =>
        { values with labels := Function.update values.labels place none }
  | .moveFile account source destination => do
      let source ← placeOfFile directoryAt files account source
      let destination ← placeOfFile directoryAt files account destination
      return values.move source destination
  | .endUpload realdatapath path => do
      let source ← filePlace directoryAt home realdatapath
      let destination ← filePlace directoryAt home path
      return values.move source destination

/-- After a run of actions every file has the comment and the label that it should have. -/
def ActAsMaps (start : FileStores δ) (actions : List (StoreAction home)) : Prop :=
  ∃ last values, Machine.run (storeStep directoryAt files) actions start = some last
    ∧ Machine.run (valueStep directoryAt files) actions start.values = some values
    ∧ ∀ realpath place, filePlace directoryAt home realpath = some place
      → comment directoryAt home last.comments realpath = some (values.comments place)
        ∧ label directoryAt home last.labels realpath
          = some ((values.labels place).getD noLabel)

end Maps

-----------------------------------------------------------------------------------------
-- Conditions
-----------------------------------------------------------------------------------------

section Conditions

variable {δ : Type} (directoryAt : Location → δ)

/-- The operations find a place for a path, both when they read a value to be moved and when they change
one.
-/
structure Finds (home : Option (List Char)) (files account path : List Char) (place : δ × List Char)
    : Prop where
  client : clientPlace directoryAt home files account path = some place
  read : filePlace directoryAt home (resolvedPath files account path) = some place

/-- There is neither a comment nor a label at a place. -/
structure FileStores.NothingAt (stores : FileStores δ) (place : δ × List Char) : Prop where
  comment : stores.comments.value place = none
  label : stores.labels.value place = none

variable {home : Option (List Char)} (files : List Char)

/-- A file of an account has no comment. -/
def FileStores.Uncommented (stores : FileStores δ) (account : List Char) (file : ClientPath home) : Prop :=
  ∀ place, placeOfFile directoryAt files account file = some place → stores.comments.value place = none

/-- At the end of an upload there is nothing to move, neither for the file nor where the real path leads if
it is taken for the path of a client.
-/
def NothingToMove (stores : FileStores δ) (home : Option (List Char)) (realdatapath path : List Char)
    : Prop :=
  filePlace directoryAt home path ≠ none
  ∧ ∃ place place', filePlace directoryAt home realdatapath = some place
    ∧ filePlace directoryAt home (resolvedPath files [] realdatapath) = some place'
    ∧ stores.NothingAt place ∧ stores.NothingAt place'

/-- The real paths at the end of an upload lead to the same places if they are taken for paths of clients,
and there is no comment to remove.
-/
def LeadsBack (stores : FileStores δ) (home : Option (List Char)) (realdatapath path : List Char)
    : Prop :=
  ∃ place place', Finds directoryAt home files [] realdatapath place
    ∧ filePlace directoryAt home realdatapath = some place
    ∧ Finds directoryAt home files [] path place' ∧ filePlace directoryAt home path = some place'
    ∧ (stores.comments.value place = none ∨ place = place')

/-- An action does what it should: the paths of clients name files, no comment that there is has to be
removed, and the end of an upload has nothing to move.
-/
def Fits (action : StoreAction home) (stores : FileStores δ) : Prop :=
  match action with
  | .setComment account file _ => NamesFile files account file.path
  | .removeComment account file =>
      NamesFile files account file.path ∧ stores.Uncommented directoryAt files account file
  | .setLabel account file _ => NamesFile files account file.path
  | .removeLabel account file => NamesFile files account file.path
  | .moveFile account source destination =>
      NamesFile files account source.path ∧ NamesFile files account destination.path
      ∧ (stores.Uncommented directoryAt files account source
        ∨ placeOfFile directoryAt files account source
          = placeOfFile directoryAt files account destination)
  | .endUpload realdatapath path =>
      NothingToMove directoryAt files stores home realdatapath path
      ∨ LeadsBack directoryAt files stores home realdatapath path

end Conditions

-----------------------------------------------------------------------------------------
-- Single operations
-----------------------------------------------------------------------------------------

/-- Stores that the server wrote: dictionaries whose values are ones that are moved. -/
structure Stores.Written {δ ν : Type} (stores : Stores δ ν) (moves : ν → Bool) : Prop where
  dictionaries : ∀ directory, stores directory ≠ some .other
  values : ∀ place value, stores.value place = some value → moves value = true

section Single

variable {δ ν : Type} {directoryAt : Location → δ} {home : Option (List Char)}
variable {files account path : List Char} {stores : Stores δ ν} {place : δ × List Char}

/-- The place of a client's path is a directory and a name. -/
theorem exists_directory_of_clientPlace
    (isPlace : clientPlace directoryAt home files account path = some place)
    : ∃ dirpath, deletingLastPathComponent home path = some dirpath
      ∧ place = (directoryAt (location (resolvedPath files account dirpath)),
        lastPathComponent path) := by
  obtain ⟨dirpath, directory, same⟩ := Option.map_eq_some_iff.mp isPlace
  exact ⟨dirpath, directory, same.symm⟩

/-- The value of a file is what the stores have for its place. -/
theorem valueOfFile_eq (stores : Stores δ ν) (realpath : List Char)
    : valueOfFile directoryAt home stores realpath
      = (filePlace directoryAt home realpath).map stores.value := by
  rw [valueOfFile, filePlace, Option.map_map]
  rfl

/-- The entries of a store are what it has. -/
theorem lookup_entriesToChange (stores : Stores δ ν) (directory : δ) (name : List Char)
    : (entriesToChange stores directory).lookup name = storeValue (stores directory) name := by
  rw [entriesToChange]
  cases stores directory with
  | none => rfl
  | some found => cases found <;> rfl

variable [DecidableEq δ]

/-- A store that is written in place of one that differs for one name changes the value of one file. -/
theorem value_update {directory : δ} {name : List Char} {store : Option (Instance ν)}
    {value : Option ν} (changed : storeValue store name = value)
    (others : ∀ other, other ≠ name → storeValue store other = storeValue (stores directory) other)
    : Stores.value (Function.update stores directory store)
      = Function.update stores.value (directory, name) value := by
  funext ⟨directory', name'⟩
  by_cases same : directory' = directory
  · subst same
    rw [Stores.value, Function.update_self]
    by_cases named : name' = name
    · rw [named, Function.update_self, changed]
    · rw [Function.update_of_ne fun isPlace => named (congrArg Prod.snd isPlace), others name' named,
        Stores.value]
  · rw [Stores.value, Function.update_of_ne same,
      Function.update_of_ne fun isPlace => same (congrArg Prod.fst isPlace), Stores.value]

/-- Stores are dictionaries after one was written. -/
theorem update_ne_other (dictionaries : ∀ directory, stores directory ≠ some .other)
    {store : Option (Instance ν)} (written : store ≠ some .other) (directory directory' : δ)
    : Function.update stores directory store directory' ≠ some .other := by
  by_cases same : directory' = directory
  · rw [same, Function.update_self]
    exact written
  · rw [Function.update_of_ne same]
    exact dictionaries directory'

/-- Setting the value of a file sets it and no other. -/
theorem exists_setValue (isPlace : clientPlace directoryAt home files account path = some place)
    (value : ν) (dictionaries : ∀ directory, stores directory ≠ some .other)
    : ∃ next, setValue directoryAt home files stores path value account = some next
      ∧ next.value = Function.update stores.value place (some value)
      ∧ ∀ directory, next directory ≠ some .other := by
  obtain ⟨dirpath, directory, rfl⟩ := exists_directory_of_clientPlace isPlace
  rw [setValue, directory]
  refine ⟨_, rfl, value_update ?_ fun other named => ?_, update_ne_other dictionaries (by simp) _⟩
  · exact AList.lookup_insert _
  · rw [storeValue, AList.lookup_insert_ne named, lookup_entriesToChange]

/-- Removing the value of a file removes it and no other, if dictionaries pass the test. -/
theorem exists_removeValue {test : Instance ν → Bool}
    (isPlace : clientPlace directoryAt home files account path = some place)
    (passes : ∀ entries, test (.dictionary entries) = true)
    (dictionaries : ∀ directory, stores directory ≠ some .other)
    : ∃ next, removeValue directoryAt home files test stores path account = some next
      ∧ next.value = Function.update stores.value place none
      ∧ ∀ directory, next directory ≠ some .other := by
  obtain ⟨dirpath, directory, rfl⟩ := exists_directory_of_clientPlace isPlace
  simp only [removeValue, directory, Option.bind_eq_bind, Option.bind_some, Option.pure_def]
  cases here : stores (directoryAt (location (resolvedPath files account dirpath))) with
  | none =>
      refine ⟨stores, rfl, (Function.update_eq_self_iff.mpr ?_).symm, dictionaries⟩
      rw [Stores.value, here]
      rfl
  | some found =>
      cases found with
      | other => exact absurd here (dictionaries _)
      | dictionary entries =>
          simp only [passes, if_true]
          -- A store without entries is deleted, which has as little as one that is empty.
          have written (name : List Char)
              : storeValue (if (entries.erase (lastPathComponent path)).keys.length > 0 then
                  some (.dictionary (entries.erase (lastPathComponent path))) else none) name
                = (entries.erase (lastPathComponent path)).lookup name := by
            split
            · rfl
            · rename_i empty
              have noKeys := List.eq_nil_of_length_eq_zero (Nat.eq_zero_of_not_pos empty)
              rw [(AList.lookup_eq_none (a := name)).mpr (by simp [AList.mem_keys, noKeys])]
              rfl
          refine ⟨_, rfl, value_update ?_ fun other named => ?_, update_ne_other dictionaries ?_ _⟩
          · rw [written, AList.lookup_erase]
          · rw [written, AList.lookup_erase_ne named, here, storeValue]
          · split <;> simp

/-- Nothing is removed if dictionaries do not pass the test. -/
theorem removeValue_of_fails {test : Instance ν → Bool}
    (isPlace : clientPlace directoryAt home files account path = some place)
    (fails : ∀ entries, test (.dictionary entries) = false)
    (dictionaries : ∀ directory, stores directory ≠ some .other)
    : removeValue directoryAt home files test stores path account = some stores := by
  obtain ⟨dirpath, directory, rfl⟩ := exists_directory_of_clientPlace isPlace
  simp only [removeValue, directory, Option.bind_eq_bind, Option.bind_some, Option.pure_def]
  cases here : stores (directoryAt (location (resolvedPath files account dirpath))) with
  | none => rfl
  | some found =>
      cases found with
      | other => exact absurd here (dictionaries _)
      | dictionary entries => simp only [fails, Bool.false_eq_true, if_false]

/-- Nothing is moved for a file that has no value. -/
theorem moveValue_of_none {topath : List Char} (test : Instance ν → Bool) (moves : ν → Bool)
    (read : filePlace directoryAt home (resolvedPath files account path) = some place)
    (nothing : stores.value place = none)
    : moveValue directoryAt home files test moves stores path topath account = some stores := by
  rw [moveValue, valueOfFile_eq, read, Option.map_some, nothing]
  rfl

/-- The value of a file is moved to another one. -/
theorem exists_moveValue {topath : List Char} {destination : δ × List Char}
    {test : Instance ν → Bool} {moves : ν → Bool} (written : stores.Written moves)
    (source : Finds directoryAt home files account path place)
    (target : Finds directoryAt home files account topath destination)
    (removes : (∀ entries, test (.dictionary entries) = true)
      ∨ (∀ entries, test (.dictionary entries) = false)
        ∧ (stores.value place = none ∨ place = destination))
    : ∃ next, moveValue directoryAt home files test moves stores path topath account = some next
      ∧ next.value = PartialMap.moved stores.value place destination
      ∧ ∀ directory, next directory ≠ some .other := by
  cases here : stores.value place with
  | none =>
      refine ⟨stores, moveValue_of_none test moves source.read here, ?_, written.dictionaries⟩
      rw [PartialMap.moved_of_none here]
  | some value =>
      have starts : moveValue directoryAt home files test moves stores path topath account
          = (removeValue directoryAt home files test stores path account).bind fun stores =>
            setValue directoryAt home files stores topath value account := by
        rw [moveValue, valueOfFile_eq, source.read, Option.map_some, here]
        simp only [Option.bind_eq_bind, Option.bind_some, written.values place value here, if_true]
      rw [starts]
      rcases removes with passes | ⟨fails, nothing | stays⟩
      · obtain ⟨middle, removed, isMiddle, dictionaries⟩ :=
          exists_removeValue source.client passes written.dictionaries
        obtain ⟨next, set, isNext, dictionaries'⟩ :=
          exists_setValue target.client value dictionaries
        refine ⟨next, by rw [removed, Option.bind_some, set], ?_, dictionaries'⟩
        rw [isNext, isMiddle, PartialMap.moved_of_some here]
      · cases here.symm.trans nothing
      · subst stays
        obtain ⟨next, set, isNext, dictionaries⟩ :=
          exists_setValue target.client value written.dictionaries
        refine ⟨next, ?_, ?_, dictionaries⟩
        · rw [removeValue_of_fails source.client fails written.dictionaries, Option.bind_some, set]
        · rw [isNext, PartialMap.moved_self, ← here, Function.update_eq_self]

/-- Values that are moved are still ones that are moved when one was set. -/
theorem written_of_update {next : Stores δ ν} {moves : ν → Bool} (written : stores.Written moves)
    {value : Option ν} (isNext : next.value = Function.update stores.value place value)
    (isMoved : ∀ set, value = some set → moves set = true)
    (dictionaries : ∀ directory, next directory ≠ some .other)
    : next.Written moves where
  dictionaries := dictionaries
  values other found here := by
    rw [isNext] at here
    by_cases same : other = place
    · rw [same, Function.update_self] at here
      exact isMoved found here
    · rw [Function.update_of_ne same] at here
      exact written.values other found here

/-- Values that are moved are still ones that are moved after one of them was. -/
theorem written_of_moved {next : Stores δ ν} {moves : ν → Bool} (written : stores.Written moves)
    {destination : δ × List Char}
    (isNext : next.value = PartialMap.moved stores.value place destination)
    (dictionaries : ∀ directory, next directory ≠ some .other)
    : next.Written moves where
  dictionaries := dictionaries
  values other found here := by
    rw [isNext] at here
    cases there : stores.value place with
    | none =>
        rw [PartialMap.moved_of_none there] at here
        exact written.values other found here
    | some value =>
        rw [PartialMap.moved_of_some there, Function.update_apply, Function.update_apply] at here
        split at here
        · cases here
          exact written.values place _ there
        · split at here
          · cases here
          · exact written.values other found here

end Single

-----------------------------------------------------------------------------------------
-- Runs of operations
-----------------------------------------------------------------------------------------

section Proofs

variable {δ : Type} [DecidableEq δ] {directoryAt : Location → δ} {home : Option (List Char)}
variable {files : List Char}

/-- The server wrote all stores. -/
structure FileStores.Written (stores : FileStores δ) : Prop where
  comments : stores.comments.Written fun _ => true
  labels : stores.labels.Written fun label => label ≠ noLabel

omit [DecidableEq δ] in
/-- A place is found for a path that names a file. -/
theorem finds_of_namesFile (directoryAt : Location → δ) (absolute : HomeIsAbsolute home) {account : List Char}
    {file : ClientPath home} (names : NamesFile files account file.path)
    : ∃ place, Finds directoryAt home files account file.path place
      ∧ placeOfFile directoryAt files account file = some place := by
  obtain ⟨place, client, read⟩ := clientPlace_eq_filePlace directoryAt absolute file names
  exact ⟨place, ⟨client, read⟩, read⟩

/-- The comment and the label of a file are moved to another one. -/
theorem exists_moveCommentAndLabel {account path topath : List Char} {stores : FileStores δ}
    {place destination : δ × List Char} (written : stores.Written)
    (source : Finds directoryAt home files account path place)
    (target : Finds directoryAt home files account topath destination)
    (stays : stores.comments.value place = none ∨ place = destination)
    : ∃ next, moveCommentAndLabel directoryAt files home path topath account stores = some next
      ∧ next.values = stores.values.move place destination ∧ next.Written := by
  obtain ⟨comments, movedComment, areComments, dictionaries⟩ :=
    exists_moveValue written.comments source target (.inr ⟨fails_removesComment, stays⟩)
  obtain ⟨labels, movedLabel, areLabels, dictionaries'⟩ :=
    exists_moveValue written.labels source target (.inl passes_removesLabel)
  refine ⟨⟨comments, labels⟩, ?_, ?_, ?_⟩
  · rw [moveCommentAndLabel, moveComment, movedComment, moveLabel]
    simp only [Option.bind_eq_bind, Option.bind_some, movedLabel, Option.pure_def]
  · rw [FileStores.values, FileValues.move, areComments, areLabels]
    rfl
  · exact ⟨written_of_moved written.comments areComments dictionaries,
      written_of_moved written.labels areLabels dictionaries'⟩

/-- An action that fits does with the stores what it should do with the values. -/
theorem exists_step_of_fits (absolute : HomeIsAbsolute home) (action : StoreAction home)
    {stores : FileStores δ} (written : stores.Written) (fits : Fits directoryAt files action stores)
    : ∃ next values, storeStep directoryAt files action stores = some next
      ∧ valueStep directoryAt files action stores.values = some values
      ∧ next.values = values ∧ next.Written := by
  cases action with
  | setComment account file comment =>
      obtain ⟨place, finds, isPlace⟩ := finds_of_namesFile directoryAt absolute fits
      obtain ⟨comments, set, areComments, dictionaries⟩ :=
        exists_setValue finds.client comment written.comments.dictionaries
      refine ⟨{ stores with comments }, _, ?_, by rw [valueStep, isPlace]; rfl, ?_, ?_⟩
      · rw [storeStep, setComment, set]
        rfl
      · rw [FileStores.values, areComments]
        rfl
      · exact ⟨written_of_update written.comments areComments (fun _ _ => rfl) dictionaries,
          written.labels⟩
  | removeComment account file =>
      obtain ⟨names, nothing⟩ := fits
      obtain ⟨place, finds, isPlace⟩ :=
        finds_of_namesFile directoryAt absolute names
      have stays := removeValue_of_fails finds.client fails_removesComment
        written.comments.dictionaries
      refine ⟨stores, _, ?_, by rw [valueStep, isPlace]; rfl, ?_, written⟩
      · rw [storeStep, removeComment, stays]
        rfl
      · have same : Function.update stores.comments.value place none = stores.comments.value :=
          Function.update_eq_self_iff.mpr (nothing place isPlace).symm
        exact congrArg (fun comments => { stores.values with comments }) same.symm
  | setLabel account file label =>
      obtain ⟨place, finds, isPlace⟩ := finds_of_namesFile directoryAt absolute fits
      obtain ⟨labels, set, areLabels, dictionaries⟩ :=
        exists_setValue finds.client label.1 written.labels.dictionaries
      refine ⟨{ stores with labels }, _, ?_, by rw [valueStep, isPlace]; rfl, ?_, ?_⟩
      · rw [storeStep, setLabel, set]
        rfl
      · rw [FileStores.values, areLabels]
        rfl
      · refine ⟨written.comments, written_of_update written.labels areLabels ?_ dictionaries⟩
        intro set isSet
        cases isSet
        exact decide_eq_true label.2
  | removeLabel account file =>
      obtain ⟨place, finds, isPlace⟩ := finds_of_namesFile directoryAt absolute fits
      obtain ⟨labels, removed, areLabels, dictionaries⟩ :=
        exists_removeValue finds.client passes_removesLabel written.labels.dictionaries
      refine ⟨{ stores with labels }, _, ?_, by rw [valueStep, isPlace]; rfl, ?_, ?_⟩
      · rw [storeStep, removeLabel, removed]
        rfl
      · rw [FileStores.values, areLabels]
        rfl
      · exact ⟨written.comments, written_of_update written.labels areLabels nofun dictionaries⟩
  | moveFile account source destination =>
      obtain ⟨names, names', stays⟩ := fits
      obtain ⟨place, finds, isPlace⟩ := finds_of_namesFile directoryAt absolute names
      obtain ⟨place', finds', isPlace'⟩ := finds_of_namesFile directoryAt absolute names'
      obtain ⟨next, moved, areNext, written'⟩ := exists_moveCommentAndLabel written finds finds' <| by
        rcases stays with nothing | same
        · exact .inl (nothing place isPlace)
        · rw [isPlace, isPlace'] at same
          exact .inr (Option.some.inj same)
      refine ⟨next, _, moved, ?_, areNext, written'⟩
      rw [valueStep, isPlace, isPlace']
      rfl
  | endUpload realdatapath path =>
      rcases fits with ⟨some, place, place', isPlace, read, nothing, nothing'⟩ |
        ⟨place, place', finds, isPlace, finds', isPlace', stays⟩
      · obtain ⟨destination, isDestination⟩ := Option.ne_none_iff_exists'.mp some
        refine ⟨stores, stores.values.move place destination, ?_, ?_, ?_, written⟩
        · rw [storeStep, moveCommentAndLabel, moveComment, moveLabel,
            moveValue_of_none removesComment _ read nothing'.comment,
            moveValue_of_none removesLabel _ read nothing'.label]
          rfl
        · rw [valueStep, isPlace, isDestination]
          rfl
        · rw [FileValues.move]
          simp only [FileStores.values, PartialMap.moved_of_none nothing.comment,
            PartialMap.moved_of_none nothing.label]
      · obtain ⟨next, moved, areNext, written'⟩ :=
          exists_moveCommentAndLabel written finds finds' stays
        refine ⟨next, _, moved, ?_, areNext, written'⟩
        rw [valueStep, isPlace, isPlace']
        rfl

end Proofs

-----------------------------------------------------------------------------------------
-- Two files
-----------------------------------------------------------------------------------------

/-- A file. -/
def firstFile : ClientPath none where
  path := "/a".toList
  sent := ⟨"/a".toList, by decide, by decide⟩

/-- Another file. -/
def secondFile : ClientPath none where
  path := "/b".toList
  sent := ⟨"/b".toList, by decide, by decide⟩

/-- A server on which no file has a comment or a label. -/
def noStores : FileStores Location where
  comments _ := none
  labels _ := none

end WiredServer.Files
