import WiredServer.Base.PathStrings
import WiredServer.Lib.PathComponents
import WiredServer.Files.Privileges

/-! Special folders: folders for uploads and drop boxes, which are marked by a file, and the privileges of
the drop box that a path of a client lies in.
-/

namespace WiredServer.Files

open WiredServer.PathStrings

-----------------------------------------------------------------------------------------
-- The file system
-----------------------------------------------------------------------------------------

/-- What the operating system finds by a path: from the root or the current directory, these names. -/
structure Location where
  absolute : Bool
  names : List (List Char)
  deriving DecidableEq, Repr

/-- The location that a path names. -/
def location (path : List Char) : Location where
  absolute := path.head? = some '/'
  names := (PathComponents.components '/' path).filter (· ≠ ['.'])

/-- What is at a location. -/
inductive Node where
  | directory
  | file (file : MetaFile)
  deriving DecidableEq, Repr

/-- A file system, with what can be reached by each location. -/
abbrev FileSystem :=
  Location → Option Node

/-- `wd_file_type_t`, with the numbers that are none of its values. -/
inductive FileType where
  | file
  | dir
  | uploads
  | dropBox
  | other (number : UInt32)
  deriving DecidableEq, Repr

/-- The type with a number. -/
def FileType.ofNumber (number : UInt32) : FileType :=
  if number = 0 then .file
  else if number = 1 then .dir
  else if number = 2 then .uploads
  else if number = 3 then .dropBox
  else .other number

namespace FileSystem

variable (system : FileSystem)

/-- A file that the server keeps for a folder, by its name. A directory in its place is too large. -/
def metaFile (folder : List Char) (name : String) : Option MetaFile :=
  match system (location (appendPathComponent folder name.toList)) with
  | some (.file file) => some file
  | some .directory | none => none

/-- `wd_files_type_with_stat`, for a directory. -/
def typeOfDirectory (folder : List Char) : FileType :=
  match system.metaFile folder ".wired/type" with
  | none => .dir
  | some file =>
      if file.contents.length > 8 then .dir
      else if !file.opens then .dir
      else
        let type := FileType.ofNumber
          (Ip.stringUInt32 (cText (deletingSurroundingWhitespace file.contents)))
        if type = .file then .dir else type

/-- `wd_files_type` -/
def type (path : List Char) : FileType :=
  match system (location path) with
  | some .directory => system.typeOfDirectory path
  | some (.file _) | none => .file

/-- `wd_files_drop_box_privileges` -/
def dropBoxPrivileges (folder : List Char) : FilePrivileges :=
  privilegesOfFile (system.metaFile folder ".wired/permissions")

end FileSystem

/-- `wd_files_real_path`, for the directory of the server and the one of the account, which is empty when
there is none.
-/
def realPath (files account path : List Char) : List Char :=
  if account ≠ [] then files ++ '/' :: account ++ '/' :: path else files ++ '/' :: path

/-- The real path of the root of an account. -/
def rootPath (files account : List Char) : List Char :=
  resolvingAliasesInPath (realPath files account ['/'])

-----------------------------------------------------------------------------------------
-- Special folders in a path
-----------------------------------------------------------------------------------------

namespace FileSystem

variable (system : FileSystem)

/-- The loop of `wd_files_drop_box_path_in_path` over the components that are left. -/
def dropBoxPathLoop (realpath : List Char) : List (List Char) → Option (List Char)
  | [] => none
  | component :: rest =>
      let realpath := appendPathComponent realpath component
      if system.type realpath = .dropBox then some realpath else dropBoxPathLoop realpath rest

/-- `wd_files_drop_box_path_in_path` -/
def dropBoxPathInPath (root path : List Char) : Option (List Char) :=
  system.dropBoxPathLoop root (pathComponents path)

/-- `wd_files_privileges` -/
def privileges (root path : List Char) : Option FilePrivileges :=
  (system.dropBoxPathInPath root path).map system.dropBoxPrivileges

/-- The loop of `wd_files_has_uploads_or_drop_box_in_path` over the components that are left. -/
def uploadsOrDropBoxLoop (path realpath : List Char) : List (List Char) → Bool × Option FilePrivileges
  | [] => (false, none)
  | component :: rest =>
      let realpath := appendPathComponent realpath component
      match system.type realpath with
      | .uploads => (true, none)
      | .dropBox => (true, some (system.dropBoxPrivileges path))
      | _ => uploadsOrDropBoxLoop path realpath rest

/-- `wd_files_has_uploads_or_drop_box_in_path`, unless the directory of the path ends the server. -/
def hasUploadsOrDropBoxInPath (home : Option (List Char)) (root path : List Char)
    : Option (Bool × Option FilePrivileges) :=
  (deletingLastPathComponent home path).map fun dirpath =>
    system.uploadsOrDropBoxLoop path root (pathComponents dirpath)

end FileSystem

/-- The folders on the way along components from a folder. -/
def foldersAlong (realpath : List Char) : List (List Char) → List (List Char)
  | [] => []
  | component :: rest =>
      let realpath := appendPathComponent realpath component
      realpath :: foldersAlong realpath rest

namespace FileSystem

variable (system : FileSystem)

/-- Whether a folder is one for uploads or a drop box. -/
def isSpecial (folder : List Char) : Bool :=
  system.type folder = .uploads || system.type folder = .dropBox

/-- The special folder above a path with a directory, if there is one. -/
def specialFolder (root dirpath : List Char) : Option (List Char) :=
  (foldersAlong root (pathComponents dirpath)).find? system.isSpecial

/-- A path lies in a drop box and in no other. -/
structure LiesOnlyIn (root path folder : List Char) : Prop where
  lies : ∃ other ∈ foldersAlong root (pathComponents path), system.type other = .dropBox
  only : ∀ other ∈ foldersAlong root (pathComponents path), system.type other = .dropBox
    → location other = location folder

/-- What is found above a path are the privileges that are stored for the special folder if it is a drop
box, and otherwise none.
-/
structure FindsStored (root path dirpath : List Char) (found : Bool × Option FilePrivileges) : Prop where
  dropBox : ∀ folder, system.specialFolder root dirpath = some folder
    → system.type folder = .dropBox → found = (true, some (system.dropBoxPrivileges folder))
  same : ∀ folder, system.specialFolder root dirpath = some folder
    → system.type folder = .dropBox → system.LiesOnlyIn root path folder
    → found.2 = system.privileges root path
  uploads : ∀ folder, system.specialFolder root dirpath = some folder
    → system.type folder = .uploads → found = (true, none)
  none : system.specialFolder root dirpath = none → found = (false, none)

/-- The loop stops at the first special folder, by induction on the components. -/
theorem uploadsOrDropBoxLoop_eq (path realpath : List Char) (components : List (List Char))
    : system.uploadsOrDropBoxLoop path realpath components
      = match (foldersAlong realpath components).find? system.isSpecial with
        | none => (false, none)
        | some folder =>
            (true, if system.type folder = .dropBox then some (system.dropBoxPrivileges path)
              else none) := by
  induction components generalizing realpath with
  | nil => rfl
  | cons component rest ih =>
      rw [uploadsOrDropBoxLoop, foldersAlong]
      cases type : system.type (appendPathComponent realpath component) with
      | uploads => simp [isSpecial, type]
      | dropBox => simp [isSpecial, type]
      | file | dir | other number =>
          simp only [ih]
          rw [List.find?_cons_of_neg (by simp [isSpecial, type])]

/-- What is found above a path is decided by the special folder. -/
theorem hasUploadsOrDropBoxInPath_eq {home : Option (List Char)} {path dirpath : List Char}
    (directory : deletingLastPathComponent home path = some dirpath) (root : List Char)
    : system.hasUploadsOrDropBoxInPath home root path
      = some (match system.specialFolder root dirpath with
        | none => (false, none)
        | some folder =>
            (true, if system.type folder = .dropBox then some (system.dropBoxPrivileges path)
              else none)) := by
  rw [hasUploadsOrDropBoxInPath, directory, Option.map_some, uploadsOrDropBoxLoop_eq]
  rfl

/-- The loop stops at the first drop box, by induction on the components. -/
theorem dropBoxPathLoop_eq (realpath : List Char) (components : List (List Char))
    : system.dropBoxPathLoop realpath components
      = (foldersAlong realpath components).find? (system.type · = .dropBox) := by
  induction components generalizing realpath with
  | nil => rfl
  | cons component rest ih =>
      simp only [dropBoxPathLoop, foldersAlong, List.find?_cons]
      split
      · rename_i type
        simp [type]
      · rename_i type
        simp [type, ih]

/-- A file that the server keeps for a folder is found by the location of the folder. -/
theorem location_appendPathComponent (folder : List Char) {name : List Char}
    (relative : name.head? ≠ some '/')
    : location (appendPathComponent folder name)
      = { absolute := (location folder).absolute
          names := (location folder).names ++ (location name).names } := by
  unfold appendPathComponent
  split
  · rename_i nothing
    simp [nothing, location, relative]
  · rename_i something
    have head (rest : List Char) : (folder ++ rest).head? = folder.head? := by
      cases folder with
      | nil => exact absurd rfl something
      | cons first others => rfl
    split
    · rename_i ends
      simp only [location, head, PathComponents.components_append '/' (.inr (.inl ends)),
        List.filter_append]
    · split
      · simp only [location, head, PathComponents.components_append_cons, List.filter_append]
      · rename_i slash
        rw [not_not] at slash
        exact absurd (by rw [slash]; rfl) relative

/-- Folders at one location have the same privileges. -/
theorem dropBoxPrivileges_congr {folder other : List Char} (same : location other = location folder)
    : system.dropBoxPrivileges other = system.dropBoxPrivileges folder := by
  have relative : (".wired/permissions".toList).head? ≠ some '/' := by decide
  simp only [dropBoxPrivileges, metaFile, location_appendPathComponent _ relative, same]

/-- A path that lies in one drop box only has its privileges. -/
theorem privileges_of_liesOnlyIn {root path folder : List Char}
    (lies : system.LiesOnlyIn root path folder)
    : system.privileges root path = some (system.dropBoxPrivileges folder) := by
  obtain ⟨other, along, type⟩ := lies.lies
  rw [privileges, dropBoxPathInPath, dropBoxPathLoop_eq]
  cases found : (foldersAlong root (pathComponents path)).find? (system.type · = .dropBox) with
  | none => exact absurd (List.find?_eq_none.mp found other along) (by simp [type])
  | some first =>
      have isDropBox : system.type first = .dropBox := by simpa using List.find?_some found
      have same := lies.only first (List.mem_of_find?_eq_some found) isDropBox
      rw [Option.map_some, system.dropBoxPrivileges_congr same]

/-- The privileges that are found above a path are the ones that are stored for the special folder just
when those at the path itself, taken for a path of the server, are the same as the ones of the drop
box that is found.
-/
theorem findsStored_iff (home : Option (List Char)) (files account path : List Char)
    : (∀ dirpath found, deletingLastPathComponent home path = some dirpath
        → system.hasUploadsOrDropBoxInPath home (rootPath files account) path = some found
        → system.FindsStored (rootPath files account) path dirpath found)
      ↔ ∀ dirpath folder, deletingLastPathComponent home path = some dirpath
        → system.specialFolder (rootPath files account) dirpath = some folder
        → system.type folder = .dropBox
        → system.dropBoxPrivileges path = system.dropBoxPrivileges folder := by
  constructor
  · intro finds dirpath folder directory special type
    have found := system.hasUploadsOrDropBoxInPath_eq directory (rootPath files account)
    have stored := (finds dirpath _ directory found).dropBox folder special type
    simpa [special, type] using stored
  · intro same dirpath found directory isFound
    rw [system.hasUploadsOrDropBoxInPath_eq directory, Option.some.injEq] at isFound
    subst isFound
    refine ⟨?_, ?_, ?_, ?_⟩
    · intro folder special type
      rw [special]
      simp only [type, if_true, same dirpath folder directory special type]
    · intro folder special type lies
      rw [special, system.privileges_of_liesOnlyIn lies]
      simp only [type, if_true, same dirpath folder directory special type]
    · intro folder special type
      rw [special]
      simp [type]
    · intro special
      rw [special]

end FileSystem

-----------------------------------------------------------------------------------------
-- A private drop box
-----------------------------------------------------------------------------------------

/-- A server with one drop box, which only its owner may use. -/
def privateDropBox : FileSystem := fun location =>
  if location = ⟨false, ["files".toList]⟩ then some .directory
  else if location = ⟨false, ["files".toList, "drop".toList]⟩ then some .directory
  else if location = ⟨false, ["files".toList, "drop".toList, ".wired".toList, "type".toList]⟩ then
    some (.file ⟨"3\n".toList, true⟩)
  else if location = ⟨false, ["files".toList, "drop".toList, ".wired".toList,
      "permissions".toList]⟩ then
    some (.file ⟨(FilePrivileges.string ⟨"alice".toList, [], 384⟩), true⟩)
  else none

/-- An upload to the private drop box is found to be open for everyone. -/
theorem not_findsStored_privateDropBox
    : ¬ ∀ dirpath found, deletingLastPathComponent none "/drop/x".toList = some dirpath
        → privateDropBox.hasUploadsOrDropBoxInPath none (rootPath "files".toList [])
            "/drop/x".toList = some found
        → privateDropBox.FindsStored (rootPath "files".toList []) "/drop/x".toList dirpath found := by
  intro finds
  have stored := (finds "/drop".toList (true, some defaultDropBoxPrivileges) (by decide)
    (by decide)).dropBox "files/drop".toList (by decide) (by decide)
  exact absurd stored (by decide)

end WiredServer.Files
