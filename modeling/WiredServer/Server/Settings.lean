import Mathlib
import WiredServer.Files.ConfigValues
import WiredServer.Lib.Machine

/-! The settings of the server. Clients change them all at once, and they are written to the configuration file,
which is read when the server starts and when it is told to.
-/

namespace WiredServer.Server

open Bytes Data Files KeyedRewriting

variable {D : Type}

-----------------------------------------------------------------------------------------
-- Data model
-----------------------------------------------------------------------------------------

/-- `wi_dictionary_with_data_and_keys`. -/
def dictionaryWithDataAndKeys {ν : Type} (arguments : List (ν × Block)) : AList fun _ : Block => ν :=
  arguments.foldl (fun dictionary argument => dictionary.insert argument.2 argument.1) ∅

/-- The types that `wd_settings_initialize` gives, with their keys. -/
def settingTypeArguments : List (ConfigType × Block) :=
  [
    (.stringList, ascii "address"),
    (.path, ascii "banner"),
    (.stringList, ascii "category"),
    (.string, ascii "description"),
    (.bool, ascii "enable tracker"),
    (.path, ascii "files"),
    (.bool, ascii "force encryption"),
    (.integer, ascii "preferred cipher"),
    (.group, ascii "group"),
    (.bool, ascii "snapshots"),
    (.timeInterval, ascii "snapshot time"),
    (.string, ascii "events time"),
    (.timeInterval, ascii "index time"),
    (.string, ascii "ip"),
    (.bool, ascii "map port"),
    (.string, ascii "name"),
    (.port, ascii "port"),
    (.bool, ascii "register"),
    (.integer, ascii "total download speed"),
    (.integer, ascii "total downloads"),
    (.integer, ascii "total upload speed"),
    (.integer, ascii "total uploads"),
    (.stringList, ascii "tracker"),
    (.user, ascii "user"),
    (.string, ascii "launchmode")
  ]

/-- The types of `wd_settings_initialize`. -/
def settingTypes : AList fun _ : Block => ConfigType :=
  dictionaryWithDataAndKeys settingTypeArguments

/-- The defaults that `wd_settings_initialize` gives, with their keys. -/
def settingDefaultArguments : List (ConfigInstance D × Block) :=
  [
    (.array [], ascii "address"),
    (.string (ascii "banner.png"), ascii "banner"),
    (.array [], ascii "category"),
    (.string (ascii "Wired Server"), ascii "description"),
    (.number 0, ascii "enable tracker"),
    (.string (ascii "files"), ascii "files"),
    (.number 1, ascii "force encryption"),
    (.number (-1), ascii "preferred cipher"),
    (.string (ascii "daemon"), ascii "group"),
    (.number 1, ascii "snapshots"),
    (.number 86400, ascii "snapshot time"),
    (.string (ascii "none"), ascii "events time"),
    (.number 3600, ascii "index time"),
    (.number 0, ascii "map port"),
    (.string (ascii "Wired Server"), ascii "name"),
    (.number 4871, ascii "port"),
    (.number 0, ascii "register"),
    (.number 0, ascii "total download speed"),
    (.number 10, ascii "total downloads"),
    (.number 0, ascii "total upload speed"),
    (.number 10, ascii "total uploads"),
    (.array [], ascii "tracker"),
    (.string (ascii "wired"), ascii "user")
  ]

/-- The defaults of `wd_settings_initialize`. -/
def settingDefaults : Instances D :=
  dictionaryWithDataAndKeys settingDefaultArguments

/-- The tables of `wd_config`. -/
def settingTables : ConfigTables D where
  types := settingTypes
  defaults := settingDefaults

/-- The fields of `wired.settings.set_settings` that become settings. -/
structure SettingsRequest where
  name : Block
  description : Block
  totalDownloads : UInt32
  totalDownloadSpeed : UInt32
  totalUploads : UInt32
  totalUploadSpeed : UInt32
  registerWithTrackers : Bool
  trackers : List Block
  tracker : Bool
  categories : List Block

/-- Which paths there are, and whether the banner of a request can be written to one. -/
structure BannerFiles where
  pathExists : Block → Bool
  writes : Block → Bool

/-- The configuration, and what its file contains. -/
structure SettingsState (D : Type) where
  config : Config D
  contents : Block

-----------------------------------------------------------------------------------------
-- Operations
-----------------------------------------------------------------------------------------

/-- `wi_p7_message_number_for_name` of a field of unsigned numbers. -/
def numberOfUInt32 (value : UInt32) : ConfigInstance D :=
  .number ((value.toNat : ℤ).bmod (2 ^ 32))

/-- `wi_number_with_bool`. -/
def numberOfBool (value : Bool) : ConfigInstance D :=
  .number (if value then 1 else 0)

/-- The settings that a request sets, in the order of `wd_settings_set_settings`. -/
def SettingsRequest.assignments (request : SettingsRequest) : List (Block × ConfigInstance D) := [
  (ascii "name", .string request.name),
  (ascii "description", .string request.description),
  (ascii "total downloads", numberOfUInt32 request.totalDownloads),
  (ascii "total download speed", numberOfUInt32 request.totalDownloadSpeed),
  (ascii "total uploads", numberOfUInt32 request.totalUploads),
  (ascii "total upload speed", numberOfUInt32 request.totalUploadSpeed),
  (ascii "register", numberOfBool request.registerWithTrackers),
  (ascii "tracker", .array request.trackers),
  (ascii "enable tracker", numberOfBool request.tracker),
  (ascii "category", .array request.categories)
]

variable [DecidableEq D]

/-- Where `wd_settings_set_settings` writes the banner: to its path, or to `banner.png` if it is not there. -/
def bannerPath (files : BannerFiles) (config : Config D) : Block × Config D :=
  let missing := (ascii "banner.png",
    setInstanceForName config (.string (ascii "banner.png")) (ascii "banner"))
  match config.value (ascii "banner") with
  | some (.string path) => if files.pathExists path then (path, config) else missing
  | _ => missing

/-- The first part of `wd_settings_set_settings`: the banner is written. -/
def setBanner (files : BannerFiles) (config : Config D) : Config D :=
  let chosen := bannerPath files config
  if files.writes chosen.1 then noteChange chosen.2 (ascii "banner") else chosen.2

/-- `wd_settings_set_settings`. The file may not be there to be opened. -/
def setSettings (lookups : Lookups D) (enumerate : Finset Block → List Block) (request : SettingsRequest)
    (files : BannerFiles) (opens : Bool) (state : SettingsState D) : Option (SettingsState D) :=
  let config := request.assignments.foldl
    (fun config assignment => setInstanceForName config assignment.2 assignment.1)
    (setBanner files state.config)
  if opens then
    (writeFile settingTables lookups enumerate config state.contents).map fun written =>
      ⟨written.1, written.2⟩
  else some { state with config }

/-- `wd_settings_read_config`. -/
def readConfig (lookups : Lookups D) (opens : Bool) (state : SettingsState D) : SettingsState D :=
  if opens then
    { state with config := clearChanges (readFile settingTables lookups state.config state.contents) }
  else state

/-- What happens to the settings of a running server. -/
inductive SettingsAction where
  | readConfig (opens : Bool)
  | setSettings (request : SettingsRequest) (files : BannerFiles) (opens : Bool)

/-- The file can be opened. -/
def SettingsAction.opens : SettingsAction → Bool
  | .readConfig opens => opens
  | .setSettings _ _ opens => opens

/-- One action. -/
def stepSettings (lookups : Lookups D) (enumerate : Finset Block → List Block)
    : SettingsAction → SettingsState D → Option (SettingsState D)
  | .readConfig opens, state => some (Server.readConfig lookups opens state)
  | .setSettings request files opens, state => Server.setSettings lookups enumerate request files opens state

/-- The server has started with a file. -/
def startSettings (lookups : Lookups D) (contents : Block) : SettingsState D :=
  Server.readConfig lookups true ⟨⟨none, ∅⟩, contents⟩

-----------------------------------------------------------------------------------------
-- Requests
-----------------------------------------------------------------------------------------

/-- A dictionary has the last data that is given for a key, by induction on the data. -/
theorem lookup_dictionaryWithDataAndKeys {ν : Type} (arguments : List (ν × Block)) (name : Block)
    : (dictionaryWithDataAndKeys arguments).lookup name
      = (arguments.reverse.find? fun argument => argument.2 = name).map Prod.fst := by
  induction arguments using List.reverseRecOn with
  | nil => rfl
  | append_singleton arguments argument ih =>
      rw [dictionaryWithDataAndKeys, List.foldl_concat, List.reverse_concat, List.find?_cons]
      by_cases same : argument.2 = name
      · subst same
        rw [AList.lookup_insert, decide_eq_true rfl]
        rfl
      · rw [AList.lookup_insert_ne (Ne.symm same), decide_eq_false same]
        exact ih

/-- The texts of a request can stand in the file. -/
structure SettingsRequest.IsPlain (request : SettingsRequest) : Prop where
  name : IsText request.name
  description : IsText request.description
  trackers : ∀ text ∈ request.trackers, IsText text
  categories : ∀ text ∈ request.categories, IsText text

/-- The texts of an action can stand in the file. -/
def SettingsAction.IsPlain : SettingsAction → Prop
  | .readConfig _ => True
  | .setSettings request _ _ => request.IsPlain

/-- The names and the types of the settings of a request. -/
def requestFields : List (Block × ConfigType) := [
  (ascii "name", .string),
  (ascii "description", .string),
  (ascii "total downloads", .integer),
  (ascii "total download speed", .integer),
  (ascii "total uploads", .integer),
  (ascii "total upload speed", .integer),
  (ascii "register", .bool),
  (ascii "tracker", .stringList),
  (ascii "enable tracker", .bool),
  (ascii "category", .stringList)
]

/-- The settings of a request, and the banner, are known under names that can start a line. -/
theorem requestFields_known : ∀ field ∈ (ascii "banner", .path) :: requestFields,
    IsName field.1 ∧ settingTypes.lookup field.1 = some field.2 := by
  simp only [settingTypes, lookup_dictionaryWithDataAndKeys]
  decide

/-- No setting of a request is the banner. -/
theorem requestFields_noBanner : ∀ field ∈ requestFields, field.1 ≠ ascii "banner" := by
  decide

omit [DecidableEq D] in
/-- The lists that a request sets are empty by default. -/
theorem settingDefaults_lists
    : (settingDefaults (D := D)).lookup (ascii "tracker") = some (.array [])
      ∧ (settingDefaults (D := D)).lookup (ascii "category") = some (.array [])
      ∧ (settingDefaults (D := D)).lookup (ascii "banner") = some (.string (ascii "banner.png")) := by
  simp only [settingDefaults, lookup_dictionaryWithDataAndKeys]
  exact ⟨rfl, rfl, rfl⟩

omit [DecidableEq D] in
/-- A number of a request has 32 bits. -/
theorem isWritable_uint32 {lookups : Lookups D} {name : Block} (isName : IsName name)
    (isType : settingTypes.lookup name = some .integer) (value : UInt32)
    : IsWritable settingTables lookups name .integer (numberOfUInt32 value) := by
  refine isWritable_integer isName isType ?_ ?_
  · exact Int.le_bmod (by decide)
  · exact Int.bmod_lt (by decide)

omit [DecidableEq D] in
/-- The settings of a request can be written and read back. -/
theorem SettingsRequest.IsPlain.isWritable {lookups : Lookups D} {request : SettingsRequest}
    (plain : request.IsPlain) {assignment : Block × ConfigInstance D} (mem : assignment ∈ request.assignments)
    : assignment.1 ≠ ascii "banner"
      ∧ ∃ type, settingTypes.lookup assignment.1 = some type
        ∧ IsWritable settingTables lookups assignment.1 type assignment.2 := by
  have field {name : Block} {type : ConfigType} (known : (name, type) ∈ requestFields) {value : ConfigInstance D}
      (writable : IsName name → settingTypes.lookup name = some type →
        IsWritable settingTables lookups name type value)
      : name ≠ ascii "banner" ∧ ∃ type, settingTypes.lookup name = some type
        ∧ IsWritable settingTables lookups name type value := by
    obtain ⟨isName, isType⟩ := requestFields_known _ (List.mem_cons_of_mem _ known)
    exact ⟨requestFields_noBanner _ known, type, isType, writable isName isType⟩
  have at' {index : ℕ} {field : Block × ConfigType} (here : requestFields[index]? = some field)
      : field ∈ requestFields := List.mem_of_getElem? here
  obtain ⟨trackers, categories, -⟩ := settingDefaults_lists (D := D)
  simp only [SettingsRequest.assignments, List.mem_cons, List.not_mem_nil, or_false] at mem
  rcases mem with rfl | rfl | rfl | rfl | rfl | rfl | rfl | rfl | rfl | rfl
  · exact field (@at' 0 _ rfl) fun isName isType => isWritable_string isName isType (.inl rfl) plain.name
  · exact field (@at' 1 _ rfl) fun isName isType => isWritable_string isName isType (.inl rfl) plain.description
  · exact field (@at' 2 _ rfl) fun isName isType => isWritable_uint32 isName isType _
  · exact field (@at' 3 _ rfl) fun isName isType => isWritable_uint32 isName isType _
  · exact field (@at' 4 _ rfl) fun isName isType => isWritable_uint32 isName isType _
  · exact field (@at' 5 _ rfl) fun isName isType => isWritable_uint32 isName isType _
  · exact field (@at' 6 _ rfl) fun isName isType => isWritable_bool isName isType _
  · refine field (@at' 7 _ rfl) fun isName isType => ?_
    refine isWritable_list isName isType ?_ plain.trackers
    exact trackers
  · exact field (@at' 8 _ rfl) fun isName isType => isWritable_bool isName isType _
  · refine field (@at' 9 _ rfl) fun isName isType => ?_
    refine isWritable_list isName isType ?_ plain.categories
    exact categories

-----------------------------------------------------------------------------------------
-- Steps
-----------------------------------------------------------------------------------------

/-- The values that are not pending are in the file, and the pending ones can be written. -/
structure Settled (lookups : Lookups D) (config : Config D) (contents : Block) : Prop where
  read : config.values.isSome = true
  inForce : InForce settingTables lookups config contents
  writable : ChangesWritable settingTables lookups config
  banner : ∀ value, config.value (ascii "banner") = some value → ∃ text, value = .string text ∧ IsText text

variable {lookups : Lookups D} {config : Config D} {contents : Block}

omit [DecidableEq D] in
/-- The path of the banner can be written and read back. -/
theorem isWritable_banner {text : Block} (isText : IsText text)
    : IsWritable settingTables lookups (ascii "banner") .path (.string text) := by
  obtain ⟨isName, isType⟩ := requestFields_known _ List.mem_cons_self
  exact isWritable_string isName isType (.inr rfl) isText

/-- A setting is set to a value that can be written. -/
theorem Settled.setInstanceForName (settled : Settled lookups config contents) {name : Block}
    {type : ConfigType} (isType : settingTypes.lookup name = some type) {value : ConfigInstance D}
    (writable : IsWritable settingTables lookups name type value)
    (banner : name = ascii "banner" → ∃ text, value = .string text ∧ IsText text)
    : Settled lookups (setInstanceForName config value name) contents := by
  have values := value_setInstanceForName settled.read value name
  refine {
    read := by rw [Files.setInstanceForName, Option.isSome_map]; exact settled.read
    inForce := settled.inForce.setInstanceForName settled.read value name
    writable := fun other mem type' isType' value' isValue => ?_
    banner := fun value' isValue => ?_
  }
  · rw [values] at isValue
    by_cases same : other = name
    · subst same
      rw [if_pos rfl] at isValue
      obtain rfl : type = type' := Option.some.inj (isType.symm.trans isType')
      cases isValue
      exact writable
    · rw [if_neg same] at isValue
      rcases (mem_changes_setInstanceForName value name other).mp mem with earlier | ⟨here, -⟩
      · exact settled.writable other earlier type' isType' value' isValue
      · exact absurd here same
  · rw [values] at isValue
    by_cases same : ascii "banner" = name
    · rw [if_pos same] at isValue
      cases isValue
      exact banner same.symm
    · rw [if_neg same] at isValue
      exact settled.banner value' isValue

omit [DecidableEq D] in
/-- The banner may be noted. -/
theorem Settled.noteChange (settled : Settled lookups config contents)
    : Settled lookups (noteChange config (ascii "banner")) contents where
  read := settled.read
  inForce := settled.inForce.noteChange (ascii "banner")
  writable := by
    intro name mem type isType value isValue
    rcases Finset.mem_insert.mp mem with rfl | earlier
    · obtain ⟨text, rfl, isText⟩ := settled.banner value isValue
      have known := (requestFields_known _ List.mem_cons_self).2
      obtain rfl : ConfigType.path = type := Option.some.inj (known.symm.trans isType)
      exact isWritable_banner isText
    · exact settled.writable name earlier type isType value isValue
  banner := settled.banner

/-- The path of the banner is the one it has, or one that can stand in the file. -/
theorem Settled.bannerPath (settled : Settled lookups config contents) (files : BannerFiles)
    : Settled lookups (bannerPath files config).2 contents := by
  have known := (requestFields_known _ List.mem_cons_self).2
  have missing : Settled lookups
      (Files.setInstanceForName config (.string (ascii "banner.png")) (ascii "banner")) contents :=
    settled.setInstanceForName known (isWritable_banner (by decide)) fun _ => ⟨_, rfl, by decide⟩
  rw [Server.bannerPath]
  split
  · split
    · exact settled
    · exact missing
  · exact missing

/-- The banner is written. -/
theorem Settled.setBanner (settled : Settled lookups config contents) (files : BannerFiles)
    : Settled lookups (setBanner files config) contents := by
  have chosen := settled.bannerPath files
  rw [Server.setBanner]
  split
  · exact chosen.noteChange
  · exact chosen

/-- The settings of a request are set one after the other, by induction on them. -/
theorem Settled.foldl {assignments : List (Block × ConfigInstance D)}
    (writable : ∀ assignment ∈ assignments, assignment.1 ≠ ascii "banner"
      ∧ ∃ type, settingTypes.lookup assignment.1 = some type
        ∧ IsWritable settingTables lookups assignment.1 type assignment.2)
    (settled : Settled lookups config contents)
    : Settled lookups (assignments.foldl
        (fun config assignment => Files.setInstanceForName config assignment.2 assignment.1) config)
      contents := by
  induction assignments generalizing config with
  | nil => exact settled
  | cons assignment assignments ih =>
      obtain ⟨noBanner, type, isType, first⟩ := writable assignment List.mem_cons_self
      rw [List.foldl_cons]
      refine ih (fun other mem => writable other (List.mem_cons_of_mem _ mem)) ?_
      exact settled.setInstanceForName isType first fun same => absurd same noBanner

/-- The values that have been read are those of the file. -/
theorem settled_readFile (config : Config D) (contents : Block)
    : Settled lookups (clearChanges (readFile settingTables lookups config contents)) contents where
  read := rfl
  inForce := inForce_readFile config contents
  writable := fun name mem => absurd mem (Finset.notMem_empty name)
  banner := by
    intro value isValue
    have known : (settingTables (D := D)).types.lookup (ascii "banner") = some .path :=
      (requestFields_known _ List.mem_cons_self).2
    refine isText_of_readValues known (.inr rfl) (fun other isDefault => ?_) isValue
    have default := (settingDefaults_lists (D := D)).2.2
    obtain rfl : ConfigInstance.string (ascii "banner.png") = other := Option.some.inj (default.symm.trans isDefault)
    exact ⟨_, rfl, by decide⟩

-----------------------------------------------------------------------------------------
-- Runs
-----------------------------------------------------------------------------------------

/-- The values of a state are settled, and its file can be read. -/
structure SettingsState.IsSettled (lookups : Lookups D) (state : SettingsState D) : Prop where
  settled : Settled lookups state.config state.contents
  zeroFree : 0 ∉ state.contents

variable {enumerate : Finset Block → List Block} {state : SettingsState D}

/-- What an action keeps, and what it leaves when the file can be opened. -/
theorem SettingsState.IsSettled.step (isSettled : state.IsSettled lookups) (enumerates : Enumerates enumerate)
    {action : SettingsAction} (plain : action.IsPlain)
    : ∃ next, stepSettings lookups enumerate action state = some next ∧ next.IsSettled lookups
      ∧ (action.opens = true → next.config.changes = ∅) := by
  cases action with
  | readConfig opens =>
      refine ⟨_, rfl, ?_⟩
      cases opens with
      | false => exact ⟨isSettled, fun opened => nomatch opened⟩
      | true => exact ⟨⟨settled_readFile state.config state.contents, isSettled.zeroFree⟩, fun _ => rfl⟩
  | setSettings request files opens =>
      have set := (isSettled.settled.setBanner files).foldl fun _ mem =>
        SettingsRequest.IsPlain.isWritable plain mem
      rw [stepSettings, Server.setSettings]
      cases opens with
      | false => exact ⟨_, rfl, ⟨set, isSettled.zeroFree⟩, fun opened => nomatch opened⟩
      | true =>
          obtain ⟨written, wrote, inForce, zeroFree⟩ := set.writable.inForce_writeFile enumerates set.inForce
          refine ⟨_, congrArg (Option.map _) wrote, ⟨?_, zeroFree isSettled.zeroFree⟩, fun _ => rfl⟩
          exact {
            read := set.read
            inForce := inForce
            writable := fun name mem => absurd mem (Finset.notMem_empty name)
            banner := set.banner
          }

/-- What a run keeps, by induction on its actions. -/
theorem SettingsState.IsSettled.run (isSettled : state.IsSettled lookups) (enumerates : Enumerates enumerate)
    {actions : List SettingsAction} (plain : ∀ action ∈ actions, action.IsPlain)
    : ∃ last, Machine.run (stepSettings lookups enumerate) actions state = some last
      ∧ last.IsSettled lookups
      ∧ ∀ action, actions.getLast? = some action → action.opens = true → last.config.changes = ∅ := by
  induction actions generalizing state with
  | nil => exact ⟨state, rfl, isSettled, fun action last => nomatch last⟩
  | cons action actions ih =>
      obtain ⟨next, stepped, nextSettled, cleared⟩ := isSettled.step enumerates (plain action List.mem_cons_self)
      obtain ⟨last, ran, lastSettled, lastCleared⟩ := ih nextSettled fun other mem =>
        plain other (List.mem_cons_of_mem _ mem)
      refine ⟨last, Machine.run_cons.mpr ⟨next, stepped, ran⟩, lastSettled, fun final isLast => ?_⟩
      cases actions with
      | nil =>
          cases isLast
          cases ran
          exact cleared
      | cons second others =>
          rw [List.getLast?_cons_cons] at isLast
          exact lastCleared final isLast

/-- A request that names the server. -/
def namingRequest (name : String) : SettingsRequest where
  name := ascii name
  description := []
  totalDownloads := 10
  totalDownloadSpeed := 0
  totalUploads := 10
  totalUploadSpeed := 4294967295
  registerWithTrackers := true
  trackers := [ascii "wired.read.se", ascii "localhost"]
  tracker := false
  categories := []

/-- The classes of the changed settings still fit when one more is set. -/
theorem classesFit_setInstanceForName (read : config.values.isSome = true)
    (fit : ClassesFit settingTables lookups config) {name : Block} {type : ConfigType} {value : ConfigInstance D}
    (isType : settingTypes.lookup name = some type) (fits : (settingTexts lookups type value).isSome = true)
    : ClassesFit settingTables lookups (setInstanceForName config value name) := by
  intro other mem
  rw [writeSetting, value_setInstanceForName read]
  by_cases same : other = name
  · subst same
    have isType' : (settingTables (D := D)).types.lookup other = some type := isType
    rw [if_pos rfl, isType']
    simpa using fits
  · rw [if_neg same, ← writeSetting]
    rcases (mem_changes_setInstanceForName value name other).mp mem with earlier | ⟨here, -⟩
    · exact fit other earlier
    · exact absurd here same

/-- Settings with different names that are set one after the other have their values, by induction on them. -/
theorem foldl_assignments {assignments : List (Block × ConfigInstance D)} (read : config.values.isSome = true)
    (fit : ClassesFit settingTables lookups config)
    (fits : ∀ assignment ∈ assignments, ∃ type, settingTypes.lookup assignment.1 = some type
      ∧ (settingTexts lookups type assignment.2).isSome = true)
    (distinct : (assignments.map Prod.fst).Nodup) {last : Config D}
    (isLast : assignments.foldl
      (fun config assignment => setInstanceForName config assignment.2 assignment.1) config = last)
    : ClassesFit settingTables lookups last
      ∧ (∀ assignment ∈ assignments, last.value assignment.1 = some assignment.2)
      ∧ ∀ name, name ∉ assignments.map Prod.fst → last.value name = config.value name := by
  induction assignments generalizing config with
  | nil =>
      subst isLast
      exact ⟨fit, fun _ mem => absurd mem List.not_mem_nil, fun _ _ => rfl⟩
  | cons first assignments ih =>
      obtain ⟨type, isType, texts⟩ := fits first List.mem_cons_self
      rw [List.map_cons, List.nodup_cons] at distinct
      have readNext : (setInstanceForName config first.2 first.1).values.isSome = true := by
        rwa [setInstanceForName, Option.isSome_map]
      obtain ⟨lastFit, values, others⟩ := ih readNext (classesFit_setInstanceForName read fit isType texts)
        (fun other mem => fits other (List.mem_cons_of_mem _ mem)) distinct.2 isLast
      refine ⟨lastFit, fun other mem => ?_, fun name absent => ?_⟩
      · rcases List.mem_cons.mp mem with rfl | later
        · rw [others _ distinct.1, value_setInstanceForName read, if_pos rfl]
        · exact values other later
      · rw [List.map_cons, List.mem_cons, not_or] at absent
        rw [others name absent.2, value_setInstanceForName read, if_neg absent.1]

omit [DecidableEq D] in
/-- The settings of a request have the classes of their types, under different names. -/
theorem SettingsRequest.assignments_fit (request : SettingsRequest) (lookups : Lookups D)
    : (∀ assignment ∈ request.assignments (D := D), ∃ type, settingTypes.lookup assignment.1 = some type
        ∧ (settingTexts lookups type assignment.2).isSome = true)
      ∧ ((request.assignments (D := D)).map Prod.fst).Nodup := by
  have isType (field : Block × ConfigType) (mem : field ∈ requestFields)
      : settingTypes.lookup field.1 = some field.2 :=
    (requestFields_known field (List.mem_cons_of_mem _ mem)).2
  have names : (request.assignments (D := D)).map Prod.fst = requestFields.map Prod.fst := rfl
  refine ⟨fun assignment mem => ?_, ?_⟩
  · simp only [requestFields, List.forall_mem_cons] at isType
    obtain ⟨t0, t1, t2, t3, t4, t5, t6, t7, t8, t9, -⟩ := isType
    simp only [SettingsRequest.assignments, List.mem_cons, List.not_mem_nil, or_false] at mem
    rcases mem with rfl | rfl | rfl | rfl | rfl | rfl | rfl | rfl | rfl | rfl
    · exact ⟨_, t0, rfl⟩
    · exact ⟨_, t1, rfl⟩
    · exact ⟨_, t2, rfl⟩
    · exact ⟨_, t3, rfl⟩
    · exact ⟨_, t4, rfl⟩
    · exact ⟨_, t5, rfl⟩
    · exact ⟨_, t6, rfl⟩
    · exact ⟨_, t7, rfl⟩
    · exact ⟨_, t8, rfl⟩
    · exact ⟨_, t9, rfl⟩
  · rw [names]
    decide

omit [DecidableEq D] in
/-- The default of the name and of the description is plain. -/
theorem settingDefaults_strings {name : Block} (mem : name = ascii "name" ∨ name = ascii "description")
    (value : ConfigInstance D) (isDefault : (settingTables (D := D)).defaults.lookup name = some value)
    : ∃ text, value = .string text ∧ IsText text := by
  have default : (settingDefaults (D := D)).lookup name = some (.string (ascii "Wired Server")) := by
    simp only [settingDefaults, lookup_dictionaryWithDataAndKeys]
    rcases mem with rfl | rfl <;> rfl
  have same : settingDefaults.lookup name = some value := isDefault
  rw [default] at same
  cases same
  exact ⟨_, rfl, by decide⟩

/-- In every state that can be reached by plain requests, a request whose file can be opened is written whatever
its texts are, and a restart reads back every setting if and only if each text of the request is trimmed and
has no zero byte, no line break and no equals sign.
-/
theorem setSettings_readsBack_iff (enumerates : Enumerates enumerate) (zeroFree : 0 ∉ contents)
    {actions : List SettingsAction} (plainRun : ∀ action ∈ actions, action.IsPlain)
    (ran : Machine.run (stepSettings lookups enumerate) actions (startSettings lookups contents) = some state)
    (request : SettingsRequest) (files : BannerFiles)
    : ∃ next, setSettings lookups enumerate request files true state = some next
      ∧ ((∀ name, (settingTypes.lookup name).isSome = true →
          (startSettings lookups next.contents).config.value name = next.config.value name)
        ↔ request.IsPlain) := by
  have isSettled : state.IsSettled lookups := by
    have start : (startSettings lookups contents).IsSettled lookups :=
      ⟨settled_readFile ⟨none, ∅⟩ contents, zeroFree⟩
    obtain ⟨last, ran', lastSettled, -⟩ := start.run enumerates plainRun
    rw [ran] at ran'
    cases ran'
    exact lastSettled
  have banner := isSettled.settled.setBanner files
  obtain ⟨fits, distinct⟩ := request.assignments_fit lookups
  obtain ⟨fit, values, -⟩ := foldl_assignments banner.read banner.writable.printable.classesFit fits distinct rfl
  obtain ⟨next, wrote, value⟩ : ∃ next, setSettings lookups enumerate request files true state = some next
      ∧ ∀ assignment ∈ request.assignments, next.config.value assignment.1 = some assignment.2 := by
    rw [setSettings, if_pos rfl, writeFile, temporaryLines_eq enumerates fit state.contents]
    exact ⟨_, rfl, values⟩
  refine ⟨next, wrote, fun same => ?_, fun plain name known => ?_⟩
  · have type (field : Block × ConfigType) (mem : field ∈ requestFields)
        : (settingTables (D := D)).types.lookup field.1 = some field.2 :=
      (requestFields_known field (List.mem_cons_of_mem _ mem)).2
    have back {index : ℕ} {field : Block × ConfigType} (here : requestFields[index]? = some field)
        {assignment : Block × ConfigInstance D} (assigned : request.assignments[index]? = some assignment)
        (name : assignment.1 = field.1)
        : (settingTables (D := D)).types.lookup field.1 = some field.2
          ∧ (readValues settingTables lookups next.contents).lookup field.1 = some assignment.2 := by
      have known := type field (List.mem_of_getElem? here)
      have isSome : (settingTypes.lookup field.1).isSome = true := Option.isSome_of_eq_some known
      refine ⟨known, (same field.1 isSome).trans ?_⟩
      rw [← name]
      exact value assignment (List.mem_of_getElem? assigned)
    obtain ⟨trackersDefault, categoriesDefault, -⟩ := settingDefaults_lists (D := D)
    have plainString {name text : Block} (mem : name = ascii "name" ∨ name = ascii "description")
        (read : (settingTables (D := D)).types.lookup name = some .string
          ∧ (readValues settingTables lookups next.contents).lookup name = some (.string text))
        : IsText text := by
      obtain ⟨other, isText, plain⟩ :=
        isText_of_readValues read.1 (.inl rfl) (settingDefaults_strings mem) read.2
      cases isText
      exact plain
    exact {
      name := plainString (.inl rfl) (@back 0 _ rfl _ rfl rfl)
      description := plainString (.inr rfl) (@back 1 _ rfl _ rfl rfl)
      trackers :=
        have read := @back 7 _ rfl _ rfl rfl
        isText_of_readValues_list read.1 trackersDefault read.2
      categories :=
        have read := @back 9 _ rfl _ rfl rfl
        isText_of_readValues_list read.1 categoriesDefault read.2
    }
  · have plainAction : (SettingsAction.setSettings request files true).IsPlain := plain
    obtain ⟨next', wrote', nextSettled, cleared⟩ := isSettled.step enumerates plainAction
    obtain rfl : next = next' := Option.some.inj (wrote.symm.trans wrote')
    exact nextSettled.settled.inForce name known fun mem => by
      rw [cleared rfl] at mem
      exact absurd mem (Finset.notMem_empty name)

/-- A server without a file, to which a plain name has been given. -/
theorem setSettings_readsBack_iff_afterFirst
    : ∃ state next, Machine.run (stepSettings bareLookups Finset.toList)
        [.setSettings (namingRequest "First") ⟨fun _ => true, fun _ => true⟩ true]
        (startSettings bareLookups []) = some state
      ∧ setSettings bareLookups Finset.toList (namingRequest "A = B") ⟨fun _ => true, fun _ => true⟩ true state
        = some next
      ∧ ((∀ name, (settingTypes.lookup name).isSome = true →
          (startSettings bareLookups next.contents).config.value name = next.config.value name)
        ↔ (namingRequest "A = B").IsPlain) := by
  have enumerates : Enumerates (Finset.toList : Finset Block → List Block) :=
    fun names => ⟨names.nodup_toList, fun _ => Finset.mem_toList⟩
  have plain : ∀ action ∈ [SettingsAction.setSettings (namingRequest "First")
      ⟨fun _ => true, fun _ => true⟩ true], action.IsPlain := by
    intro action mem
    rw [List.mem_singleton.mp mem]
    exact ⟨(by decide : IsText (ascii "First")), (by decide : IsText []),
      (by decide : ∀ text ∈ [ascii "wired.read.se", ascii "localhost"], IsText text), fun _ mem => nomatch mem⟩
  have start : (startSettings bareLookups []).IsSettled bareLookups :=
    ⟨settled_readFile ⟨none, ∅⟩ [], List.not_mem_nil⟩
  obtain ⟨state, ran, -, -⟩ := start.run enumerates plain
  obtain ⟨next, wrote, same⟩ := setSettings_readsBack_iff enumerates List.not_mem_nil plain ran
    (namingRequest "A = B") ⟨fun _ => true, fun _ => true⟩
  exact ⟨state, next, ran, wrote, same⟩

end WiredServer.Server
