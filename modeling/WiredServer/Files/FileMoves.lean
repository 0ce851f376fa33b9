import WiredServer.Base.PathParents
import WiredServer.Files.DropBoxes

/-! The permission to move a file. Whether a move stays in one directory is decided by the paths as the
client sent them, while the drop boxes and the move itself are those of the normalised paths.
-/

namespace WiredServer.Files

open WiredServer.PathStrings

-----------------------------------------------------------------------------------------
-- Requests
-----------------------------------------------------------------------------------------

/-- `wd_files_path_is_valid` -/
def pathIsValid (path : List Char) : Bool :=
  !(['.'].isPrefixOf path) && !(['/', '.', '.'] <:+: path : Bool) && !(['.', '.', '/'] <:+: path : Bool)

/-- What comes of a request to move a file. A path with the tilde of another user ends the server. -/
inductive MoveOutcome where
  | fileNotFound
  | permissionDenied
  | ends
  | moves (frompath topath : List Char)
  deriving DecidableEq, Repr

/-- Whether an account may move to or from a path with these privileges. -/
def mayMove (privileges : Option FilePrivileges) (account : FileAccount) (sameDirectory : Bool) : Bool :=
  match privileges with
  | some privileges => privileges.isWritableByAccount account
  | none => account.moveFiles || (account.renameFiles && sameDirectory)

/-- `wd_message_file_move` up to the call of `wd_files_move_path` -/
def fileMove (system : FileSystem) (home : Option (List Char)) (root : List Char)
    (account : FileAccount) (frompath topath : List Char)
    : MoveOutcome :=
  if !pathIsValid frompath || !pathIsValid topath then .fileNotFound
  else
    match deletingLastPathComponent home frompath, deletingLastPathComponent home topath,
      normalizePath home frompath with
    | some fromdirectory, some todirectory, some frompath =>
        if !mayMove (system.privileges root frompath) account (fromdirectory = todirectory) then
          .permissionDenied
        else
          match normalizePath home topath with
          | none => .ends
          | some topath =>
              if !mayMove (system.privileges root topath) account (fromdirectory = todirectory) then
                .permissionDenied
              else .moves frompath topath
    | _, _, _ => .ends

/-- An account may move files to or from a normalised path: it may write the drop box there, or there is
none and it may move files, or rename them when the two paths have the same directory.
-/
structure EndPermitted (system : FileSystem) (home : Option (List Char)) (root : List Char)
    (account : FileAccount) (frompath topath path : List Char)
    : Prop where
  dropBox : ∀ privileges, system.privileges root path = some privileges
    → privileges.isWritableByAccount account = true
  elsewhere : system.privileges root path = none
    → account.moveFiles = true
      ∨ account.renameFiles = true
        ∧ deletingLastPathComponent home frompath = deletingLastPathComponent home topath

/-- A move that is made is permitted on both ends. -/
def MovesPermitted (system : FileSystem) (home : Option (List Char)) (root : List Char)
    (account : FileAccount) (frompath topath : List Char)
    : Prop :=
  ∀ frompath' topath', fileMove system home root account frompath topath = .moves frompath' topath'
    → EndPermitted system home root account frompath' topath' frompath'
      ∧ EndPermitted system home root account frompath' topath' topath'

-----------------------------------------------------------------------------------------
-- Odd paths
-----------------------------------------------------------------------------------------

/-- A path of two or more slashes. -/
def IsSlashes (path : List Char) : Prop :=
  2 ≤ path.length ∧ ∀ char ∈ path, char = '/'

/-- A path whose last name is a dot, for another directory than the root. -/
def EndsInDot (home : Option (List Char)) (path : List Char) : Prop :=
  (names path).getLast? = some ['.'] ∧ normalizePath home path ≠ some ['/']

/-- A path whose directory changes with normalisation. -/
def IsOdd (home : Option (List Char)) (path : List Char) : Prop :=
  EndsInDot home path ∨ IsSlashes path ∨ IsHome home path

/-- The directory that the directory of a tilde lies in. -/
def homeParent (home : Option (List Char)) : Option (List Char) :=
  (normalizePath home ['~']).bind (deletingLastPathComponent home)

/-- Two paths in one directory that are not in one directory after normalisation. -/
def DirectoriesPart (home : Option (List Char)) (path other : List Char) : Prop :=
  (IsOdd home path ∧ ¬IsOdd home other) ∨ (¬IsOdd home path ∧ IsOdd home other)
  ∨ ((IsSlashes path ∧ IsHome home other) ∨ (IsHome home path ∧ IsSlashes other))
    ∧ homeParent home ≠ some ['/']

-----------------------------------------------------------------------------------------
-- Valid paths
-----------------------------------------------------------------------------------------

/-- A part of a joined path stands at its start or after a slash. -/
theorem mem_join_infix {parts : List (List Char)} {part : List Char} (mem : part ∈ parts)
    : ∃ start rest, join parts = start ++ part ++ rest
      ∧ (start = [] ∨ start.getLast? = some '/') := by
  induction parts with
  | nil => cases mem
  | cons first parts ih =>
      cases parts with
      | nil =>
          rw [List.mem_singleton] at mem
          exact ⟨[], [], by simp [mem], .inl rfl⟩
      | cons second others =>
          rw [join, List.intercalate_cons_cons]
          rcases List.mem_cons.mp mem with rfl | mem
          · exact ⟨[], _, by rw [List.nil_append, List.append_assoc], .inl rfl⟩
          · obtain ⟨start, rest, same, begins⟩ := ih mem
            have same : ['/'].intercalate (second :: others) = start ++ part ++ rest := same
            refine ⟨first ++ '/' :: start, rest, by rw [same]; simp, .inr ?_⟩
            rcases begins with rfl | last
            · simp
            · rw [List.getLast?_append_cons]
              cases start with
              | nil => cases last
              | cons char others => rwa [List.getLast?_cons_cons]

/-- A valid path does not begin with a dot and has no name of two dots. -/
theorem plain_of_pathIsValid {path : List Char} (valid : pathIsValid path = true)
    : path.head? ≠ some '.' ∧ ['.', '.'] ∉ names path := by
  simp only [pathIsValid, Bool.and_eq_true, Bool.not_eq_true', decide_eq_false_iff_not] at valid
  obtain ⟨⟨noDot, noUp⟩, -⟩ := valid
  have begins : path.head? ≠ some '.' := by
    intro dot
    obtain ⟨rest, rfl⟩ := List.head?_eq_some_iff.mp dot
    simp at noDot
  refine ⟨begins, fun mem => ?_⟩
  have whole : join (path.splitOn '/') = path := List.intercalate_splitOn '/'
  obtain ⟨start, rest, same, first⟩ := mem_join_infix (List.mem_of_mem_filter mem)
  rw [whole] at same
  rcases first with rfl | last
  · exact begins (by rw [same]; rfl)
  · obtain ⟨start, rfl⟩ := List.getLast?_eq_some_iff.mp last
    exact noUp ⟨start, rest, by rw [same]; simp⟩

/-- A path without names consists of slashes, by induction on it. -/
theorem names_eq_nil_iff (path : List Char) : names path = [] ↔ ∀ char ∈ path, char = '/' := by
  induction path with
  | nil => simp
  | cons char path ih =>
      by_cases slash : char = '/'
      · subst slash
        rw [names, PathComponents.components_cons_self, ← names, ih]
        simp
      · have relative : (char :: path).head? ≠ some '/' := by simpa using slash
        have isNames := pathComponents_of_relative (by simp) relative
        constructor
        · intro nothing
          rw [nothing, pathComponents] at isNames
          split at isNames
          · rename_i parts
            exact absurd parts (List.splitOn_ne_nil '/' _)
          · cases isNames
        · intro slashes
          exact absurd (slashes char List.mem_cons_self) slash

/-- A valid path with names is one that is expanded, after its tilde is. -/
theorem isExpanded_of_expandTilde {home : Option (List Char)} (absolute : HomeIsAbsolute home)
    {path expanded : List Char} (valid : pathIsValid path = true)
    (isNames : names path ≠ []) (expands : expandTilde home path = some expanded)
    : IsExpanded home expanded := by
  obtain ⟨noDot, -⟩ := plain_of_pathIsValid valid
  obtain ⟨first, rest, begins⟩ := List.exists_cons_of_ne_nil isNames
  by_cases slash : path.head? = some '/'
  · rw [expandTilde_of_noTilde home (by rw [slash]; decide)] at expands
    cases expands
    exact .inl (by simpa [isAbsolute] using slash)
  · have head := head_names slash begins
    by_cases tilde : path.head? = some '~'
    · obtain ⟨others, rfl⟩ := List.head?_eq_some_iff.mp tilde
      have alone := tilde_of_expandTilde expands
      cases home with
      | none =>
          rw [expandTilde_none alone] at expands
          cases expands
          refine .inr ⟨first, rest, begins, slash, head ▸ noDot, fun _ => ⟨?_, rfl⟩⟩
          rw [pathComponents_of_relative (by simp) slash, begins] at alone
          exact Option.some.inj alone
      | some directory =>
          obtain ⟨expanded', same, fromRoot, -⟩ := expandTilde_home (absolute directory rfl) alone
          rw [same] at expands
          cases expands
          exact .inl fromRoot
    · rw [expandTilde_of_noTilde home tilde] at expands
      cases expands
      exact .inr ⟨first, rest, begins, slash, head ▸ noDot, fun isTilde =>
        absurd (head.trans isTilde) tilde⟩

-----------------------------------------------------------------------------------------
-- Directories of odd paths
-----------------------------------------------------------------------------------------

section Directories

variable {home : Option (List Char)}

/-- A path that is made of names has these names. -/
theorem render_injective {absolute : Bool} {list list' : List (List Char)}
    (areNames : ∀ name ∈ list, IsName name) (areNames' : ∀ name ∈ list', IsName name)
    (same : render absolute list = render absolute list')
    : list = list' := by
  have joined : join list = join list' := by
    cases absolute with
    | false => exact same
    | true => exact (List.cons.inj same).2
  rw [← names_join areNames, ← names_join areNames', joined]

/-- The root has no names. -/
theorem eq_nil_of_render {absolute : Bool} {list : List (List Char)}
    (areNames : ∀ name ∈ list, IsName name) (root : render absolute list = ['/'])
    : list = [] := by
  have joined := names_join areNames
  cases absolute with
  | false =>
      rw [show join list = ['/'] from root] at joined
      exact joined.symm
  | true =>
      rw [(List.cons.inj root).2] at joined
      exact joined.symm

/-- The directory of a path as it was sent, its normal form and the directory of that, for the kinds of
paths.
-/
inductive DirectoriesOf (home : Option (List Char)) (path directory normal normalDirectory : List Char)
    : Prop where
  | plain (odd : ¬IsOdd home path) (same : normalDirectory = directory)
  | dot (odd : EndsInDot home path) (same : normal = directory)
      (other : normalDirectory ≠ directory)
  | slashes (odd : IsSlashes path) (nothing : directory = []) (root : normalDirectory = ['/'])
  | home (odd : IsHome home path) (nothing : directory = []) (something : normalDirectory ≠ [])
      (parent : homeParent home = some normalDirectory)

/-- A path of slashes has no names. -/
theorem IsSlashes.names_eq {path : List Char} (slashes : IsSlashes path) : names path = [] :=
  (names_eq_nil_iff path).mpr slashes.2

/-- A tilde is a name. -/
theorem names_of_isHome {path : List Char} (isHome : IsHome home path) : names path = [['~']] := by
  have components := isHome.2
  cases path with
  | nil => exact absurd components (by decide)
  | cons char rest =>
      by_cases slash : char = '/'
      · subst slash
        rw [pathComponents_cons_slash] at components
        exact absurd (List.cons.inj components).1 (by decide)
      · rwa [pathComponents_of_relative (by simp) (by simpa using slash)] at components

/-- The directories of a path without names. -/
theorem directoriesOf_of_slashes {path : List Char} (nothing : names path = [])
    : ∃ directory normalDirectory, deletingLastPathComponent home path = some directory
      ∧ normalizePath home path = some (normalForm path)
      ∧ deletingLastPathComponent home (normalForm path) = some normalDirectory
      ∧ DirectoriesOf home path directory (normalForm path) normalDirectory := by
  have slashes := (names_eq_nil_iff path).mp nothing
  have noTilde : path.head? ≠ some '~' := fun tilde =>
    absurd (slashes '~' (List.mem_of_head? tilde)) (by decide)
  have notHome : ¬IsHome home path := fun isHome => by
    rw [names_of_isHome isHome] at nothing
    cases nothing
  have noDot : ¬EndsInDot home path := fun ends => by
    rw [EndsInDot, nothing] at ends
    cases ends.1
  have normal : normalizePath home path = some (normalForm path) := by
    rw [normalizePath_eq, expandTilde_of_noTilde home noTilde, Option.map_some]
  match path with
  | [] =>
      refine ⟨[], [], rfl, normal, rfl, .plain ?_ rfl⟩
      rintro (ends | few | isHome)
      · exact noDot ends
      · exact absurd few.1 (by decide)
      · exact notHome isHome
  | [char] =>
      have slash := slashes char List.mem_cons_self
      subst slash
      refine ⟨['/'], ['/'], rfl, normal, rfl, .plain ?_ rfl⟩
      rintro (ends | few | isHome)
      · exact noDot ends
      · exact absurd few.1 (by decide)
      · exact notHome isHome
  | char :: second :: rest =>
      have slash := slashes char List.mem_cons_self
      subst slash
      have form : normalForm ('/' :: second :: rest) = ['/'] := by
        rw [normalForm, nothing]
        rfl
      refine ⟨[], ['/'], ?_, normal, by rw [form]; rfl, .slashes ⟨by simp, slashes⟩ rfl rfl⟩
      rw [deletingLastPathComponent, if_neg (by simp), pathComponents_cons_slash]
      rw [names, PathComponents.components_cons_self, ← names] at nothing
      rw [nothing]
      rfl

/-- The directories of the tilde. -/
theorem directoriesOf_of_isHome (absolute : HomeIsAbsolute home) {path expanded : List Char}
    (isHome : IsHome home path) (expands : expandTilde home path = some expanded)
    : ∃ directory normalDirectory, deletingLastPathComponent home path = some directory
      ∧ deletingLastPathComponent home (normalForm expanded) = some normalDirectory
      ∧ DirectoriesOf home path directory (normalForm expanded) normalDirectory := by
  have isNames := names_of_isHome isHome
  have relative : path.head? ≠ some '/' := by
    intro slash
    obtain ⟨rest, rfl⟩ := List.head?_eq_some_iff.mp slash
    have components := isHome.2
    rw [pathComponents_cons_slash] at components
    exact absurd (List.cons.inj components).1 (by decide)
  obtain ⟨rest, rfl⟩ := List.head?_eq_some_iff.mp (head_names relative isNames)
  have alone := tilde_of_expandTilde expands
  have nothing : names rest = [] := (List.cons.inj ((names_tilde alone).2.symm.trans isNames)).2
  cases home with
  | none => exact absurd rfl isHome.1
  | some path' =>
      have fromRoot := absolute path' rfl
      obtain ⟨expanded', same, isAbsolute', isNames'⟩ := expandTilde_home fromRoot alone
      rw [same] at expands
      cases expands
      obtain ⟨expanded', same', isAbsolute'', isNames''⟩ :=
        expandTilde_home fromRoot (by decide : (pathComponents ('~' :: [])).head? = some ['~'])
      have form : normalForm expanded' = normalForm expanded := by
        rw [normalForm, normalForm, isAbsolute', isAbsolute'', isNames', isNames'', nothing]
        rfl
      have directory' := deletingLastPathComponent_normalForm absolute (.inl isAbsolute')
      refine ⟨[], _, ?_, directory', .home isHome rfl ?_ ?_⟩
      · have split : names ('~' :: rest) = [] ++ [['~']] := isNames
        rw [deletingLastPathComponent_of_relative relative split]
        rfl
      · rw [isAbsolute']
        exact List.cons_ne_nil _ _
      · rw [homeParent, normalizePath_eq, same', Option.map_some, Option.bind_some, form, directory']

/-- The directories of a valid path with names. -/
theorem directoriesOf_of_names (absolute : HomeIsAbsolute home) {path expanded : List Char}
    (valid : pathIsValid path = true) (isNames : names path ≠ []) (notHome : ¬IsHome home path)
    (expands : expandTilde home path = some expanded)
    : ∃ directory normalDirectory, deletingLastPathComponent home path = some directory
      ∧ deletingLastPathComponent home (normalForm expanded) = some normalDirectory
      ∧ DirectoriesOf home path directory (normalForm expanded) normalDirectory := by
  have isExpanded := isExpanded_of_expandTilde absolute valid isNames expands
  have directory' := deletingLastPathComponent_normalForm absolute isExpanded
  rcases List.eq_nil_or_concat (names path) with nothing | ⟨front, last, split⟩
  · exact absurd nothing isNames
  rw [List.concat_eq_append] at split
  obtain ⟨list, isList, directory⟩ := deletingLastPathComponent_eq absolute expands split notHome
  have noSlashes : ¬IsSlashes path := fun slashes => isNames slashes.names_eq
  have isLast : (names path).getLast? = some last := by rw [split, List.getLast?_concat]
  have isName : IsName last := isName_of_mem_names (split ▸ by simp : last ∈ names path)
  have up : last ≠ ['.', '.'] := by
    rintro rfl
    exact (plain_of_pathIsValid valid).2 (split ▸ by simp)
  have slash : last ≠ ['/'] := fun slash => isName.2 (by simp [slash])
  refine ⟨_, _, directory, directory', ?_⟩
  have areNames {name : List Char} (mem : name ∈ list) : IsName name :=
    isName_of_mem_names (isList ▸ List.mem_append_left _ mem : name ∈ names expanded)
  by_cases dot : last = ['.']
  · have kept : normalNames (isAbsolute expanded) (names expanded)
        = normalNames (isAbsolute expanded) list := by
      rw [isList, normalNames_concat, keepName, if_pos (by simp [dot])]
    have areNormal {name : List Char} (mem : name ∈ normalNames (isAbsolute expanded) list)
        : IsName name :=
      isName_of_mem_normalNames (fun _ mem => areNames mem) mem
    have normal : normalizePath home path = some (normalForm expanded) := by
      rw [normalizePath_eq, expands, Option.map_some]
    have form : normalForm expanded
        = render (isAbsolute expanded) (normalNames (isAbsolute expanded) list) := by
      rw [normalForm, kept]
    rw [kept]
    by_cases root : normalForm expanded = ['/']
    · have noNames : normalNames (isAbsolute expanded) list = [] :=
        eq_nil_of_render (fun name mem => areNormal mem) (form.symm.trans root)
      refine .plain (fun odd => ?_) (by rw [noNames]; rfl)
      rcases odd with ends | slashes | isHome
      · exact ends.2 (by rw [normal, root])
      · exact noSlashes slashes
      · exact notHome isHome
    · refine .dot ⟨by rw [isLast, dot], by rw [normal]; simpa using root⟩ form ?_
      intro same
      have shorter := render_injective
        (fun name mem => areNormal (List.mem_of_mem_dropLast mem)) (fun name mem => areNormal mem) same
      have noNames : normalNames (isAbsolute expanded) list = [] := by
        have length := congrArg List.length shorter
        rw [List.length_dropLast] at length
        exact List.length_eq_zero_iff.mp (by omega)
      rcases isExpanded with fromRoot | ⟨first, rest, begins, outside, noDot, -⟩
      · rw [form, noNames, fromRoot] at root
        exact root rfl
      · have noRoot : isAbsolute expanded = false := by simpa [isAbsolute] using outside
        obtain ⟨others, some⟩ := normalNames_cons rest
          (isName_of_mem_names (begins ▸ List.mem_cons_self : first ∈ names expanded)) noDot
        rw [noRoot, begins, some, ← noRoot, noNames] at kept
        cases kept
  · have noDot : ¬EndsInDot home path := fun ends => by
      rw [EndsInDot, isLast] at ends
      exact dot (Option.some.inj ends.1)
    refine .plain (fun odd => ?_) ?_
    · rcases odd with ends | slashes | isHome
      · exact noDot ends
      · exact noSlashes slashes
      · exact notHome isHome
    · rw [isList, normalNames_dropLast_concat _ _ slash dot up]

/-- The directories of a valid path that can be normalised. -/
theorem exists_directoriesOf (absolute : HomeIsAbsolute home) {path normal : List Char}
    (valid : pathIsValid path = true) (normalizes : normalizePath home path = some normal)
    : ∃ directory normalDirectory, deletingLastPathComponent home path = some directory
      ∧ deletingLastPathComponent home normal = some normalDirectory
      ∧ DirectoriesOf home path directory normal normalDirectory := by
  have isForm := normalizes
  rw [normalizePath_eq, Option.map_eq_some_iff] at isForm
  obtain ⟨expanded, expands, rfl⟩ := isForm
  by_cases nothing : names path = []
  · obtain ⟨directory, normalDirectory, isDirectory, normalizes', isNormal, kinds⟩ :=
      @directoriesOf_of_slashes home path nothing
    rw [normalizes, Option.some.injEq] at normalizes'
    rw [normalizes']
    exact ⟨directory, normalDirectory, isDirectory, isNormal, kinds⟩
  · by_cases isHome : IsHome home path
    · exact directoriesOf_of_isHome absolute isHome expands
    · exact directoriesOf_of_names absolute valid nothing isHome expands

/-- The kinds of odd paths exclude one another. -/
theorem odd_exclusive {path : List Char}
    : ¬(EndsInDot home path ∧ IsSlashes path) ∧ ¬(EndsInDot home path ∧ IsHome home path)
      ∧ ¬(IsSlashes path ∧ IsHome home path) := by
  refine ⟨fun ⟨ends, slashes⟩ => ?_, fun ⟨ends, isHome⟩ => ?_, fun ⟨slashes, isHome⟩ => ?_⟩
  · rw [EndsInDot, slashes.names_eq] at ends
    cases ends.1
  · rw [EndsInDot, names_of_isHome isHome] at ends
    exact absurd ends.1 (by decide)
  · have none := slashes.names_eq
    rw [names_of_isHome isHome] at none
    cases none

/-- The directory of a path changes with normalisation just when the path is odd. -/
theorem DirectoriesOf.isOdd_iff {path directory normal normalDirectory : List Char}
    (kind : DirectoriesOf home path directory normal normalDirectory)
    : IsOdd home path ↔ normalDirectory ≠ directory := by
  cases kind with
  | plain odd same => exact iff_of_false odd (not_not.mpr same)
  | dot odd same other => exact iff_of_true (.inl odd) other
  | slashes odd nothing root =>
      refine iff_of_true (.inr (.inl odd)) ?_
      rw [nothing, root]
      decide
  | home odd nothing something parent =>
      refine iff_of_true (.inr (.inr odd)) ?_
      rwa [nothing]

/-- The directory of a path that ends in a dot is not the empty path. -/
theorem directory_ne_nil_of_dot {directory normal normalDirectory : List Char}
    (isNormal : deletingLastPathComponent home normal = some normalDirectory)
    (same : normal = directory) (other : normalDirectory ≠ directory)
    : directory ≠ [] := by
  rintro rfl
  subst same
  exact other (Option.some.inj isNormal.symm)

/-- Two valid paths in one directory are not in one directory after normalisation just when one of them is
odd, or they are so in different ways.
-/
theorem directoriesPart_iff (absolute : HomeIsAbsolute home)
    {path other normal otherNormal : List Char}
    (valid : pathIsValid path = true) (otherValid : pathIsValid other = true)
    (normalizes : normalizePath home path = some normal)
    (otherNormalizes : normalizePath home other = some otherNormal)
    (together : deletingLastPathComponent home path = deletingLastPathComponent home other)
    : deletingLastPathComponent home normal ≠ deletingLastPathComponent home otherNormal
      ↔ DirectoriesPart home path other := by
  obtain ⟨directory, normalDirectory, isDirectory, isNormal, kind⟩ :=
    exists_directoriesOf absolute valid normalizes
  obtain ⟨otherDirectory, otherNormalDirectory, isDirectory', isNormal', otherKind⟩ :=
    exists_directoriesOf absolute otherValid otherNormalizes
  rw [isDirectory, isDirectory', Option.some.injEq] at together
  subst together
  rw [isNormal, isNormal', ne_eq, Option.some.injEq, DirectoriesPart]
  by_cases odd : IsOdd home path
  · by_cases otherOdd : IsOdd home other
    · simp only [odd, otherOdd, not_true_eq_false, and_false, false_and, false_or]
      obtain ⟨dotSlashes, dotHome, slashesHome⟩ := @odd_exclusive home path
      obtain ⟨dotSlashes', dotHome', slashesHome'⟩ := @odd_exclusive home other
      cases kind with
      | plain plain same => exact absurd odd plain
      | dot ends same apart =>
          have some := directory_ne_nil_of_dot isNormal same apart
          cases otherKind with
          | plain plain same => exact absurd otherOdd plain
          | dot ends' same' apart' =>
              have together : normalDirectory = otherNormalDirectory := by
                rw [same, ← same', isNormal'] at isNormal
                exact (Option.some.inj isNormal).symm
              refine iff_of_false (not_not.mpr together) ?_
              rintro ⟨⟨slashes, -⟩ | ⟨isHome, -⟩, -⟩
              · exact dotSlashes ⟨ends, slashes⟩
              · exact dotHome ⟨ends, isHome⟩
          | slashes slashes nothing root => exact absurd nothing some
          | home isHome nothing something parent => exact absurd nothing some
      | slashes slashes nothing root =>
          cases otherKind with
          | plain plain same => exact absurd otherOdd plain
          | dot ends' same' apart' =>
              exact absurd nothing (directory_ne_nil_of_dot isNormal' same' apart')
          | slashes slashes' nothing' root' =>
              refine iff_of_false (not_not.mpr (root.trans root'.symm)) ?_
              rintro ⟨⟨-, isHome⟩ | ⟨isHome, -⟩, -⟩
              · exact slashesHome' ⟨slashes', isHome⟩
              · exact slashesHome ⟨slashes, isHome⟩
          | home isHome' nothing' something' parent' =>
              rw [root, parent', ne_eq, Option.some.injEq]
              constructor
              · exact fun apart => ⟨.inl ⟨slashes, isHome'⟩, fun same => apart same.symm⟩
              · exact fun part same => part.2 same.symm
      | home isHome nothing something parent =>
          cases otherKind with
          | plain plain same => exact absurd otherOdd plain
          | dot ends' same' apart' =>
              exact absurd nothing (directory_ne_nil_of_dot isNormal' same' apart')
          | slashes slashes' nothing' root' =>
              rw [root', parent, ne_eq, Option.some.injEq]
              constructor
              · exact fun apart => ⟨.inr ⟨isHome, slashes'⟩, apart⟩
              · exact fun part => part.2
          | home isHome' nothing' something' parent' =>
              refine iff_of_false (not_not.mpr (Option.some.inj (parent.symm.trans parent'))) ?_
              rintro ⟨⟨slashes, -⟩ | ⟨-, slashes⟩, -⟩
              · exact slashesHome ⟨slashes, isHome⟩
              · exact slashesHome' ⟨slashes, isHome'⟩
    · have same : otherNormalDirectory = directory :=
        not_not.mp fun apart => otherOdd (otherKind.isOdd_iff.mpr apart)
      rw [same]
      exact iff_of_true (kind.isOdd_iff.mp odd) (.inl ⟨odd, otherOdd⟩)
  · have same : normalDirectory = directory :=
      not_not.mp fun apart => odd (kind.isOdd_iff.mpr apart)
    have noSlashes : ¬IsSlashes path := fun slashes => odd (.inr (.inl slashes))
    have notHome : ¬IsHome home path := fun isHome => odd (.inr (.inr isHome))
    rw [same, eq_comm, ← ne_eq, ← otherKind.isOdd_iff]
    simp [odd, noSlashes, notHome]

end Directories

-----------------------------------------------------------------------------------------
-- Permission
-----------------------------------------------------------------------------------------

section Permission

variable (system : FileSystem) {home : Option (List Char)} (root : List Char) (account : FileAccount)

/-- An account may write the drop box that a path lies in, if there is one. -/
def MayWriteDropBox (path : List Char) : Prop :=
  ∀ privileges, system.privileges root path = some privileges
    → privileges.isWritableByAccount account = true

/-- An account that may rename files but not move them moves a file to another directory: the paths as sent
have one directory, and the normalised ones have not.
-/
structure CrossesDirectories (home : Option (List Char)) (frompath topath : List Char) : Prop where
  fromValid : pathIsValid frompath = true
  toValid : pathIsValid topath = true
  renames : account.renameFiles = true
  stays : account.moveFiles = false
  together : deletingLastPathComponent home frompath = deletingLastPathComponent home topath
  parts : DirectoriesPart home frompath topath
  outside : ∃ frompath' topath', normalizePath home frompath = some frompath'
    ∧ normalizePath home topath = some topath'
    ∧ MayWriteDropBox system root account frompath' ∧ MayWriteDropBox system root account topath'
    ∧ (system.privileges root frompath' = none ∨ system.privileges root topath' = none)

variable {system root account}

/-- The requests that reach the move. -/
theorem fileMove_eq_moves_iff {frompath topath frompath' topath' : List Char}
    : fileMove system home root account frompath topath = .moves frompath' topath'
      ↔ pathIsValid frompath = true ∧ pathIsValid topath = true
        ∧ normalizePath home frompath = some frompath' ∧ normalizePath home topath = some topath'
        ∧ ∃ fromdirectory todirectory, deletingLastPathComponent home frompath = some fromdirectory
          ∧ deletingLastPathComponent home topath = some todirectory
          ∧ mayMove (system.privileges root frompath') account (fromdirectory = todirectory) = true
          ∧ mayMove (system.privileges root topath') account (fromdirectory = todirectory) = true := by
  unfold fileMove
  cases pathIsValid frompath with
  | false => simp
  | true =>
      cases pathIsValid topath with
      | false => simp
      | true =>
          cases deletingLastPathComponent home frompath with
          | none => simp
          | some fromdirectory =>
              cases deletingLastPathComponent home topath with
              | none => simp
              | some todirectory =>
                  cases normalizePath home frompath with
                  | none => simp
                  | some normal =>
                      cases normalizePath home topath with
                      | none =>
                          cases may : mayMove (system.privileges root normal) account
                            (decide (fromdirectory = todirectory)) <;> simp [may]
                      | some normal' =>
                          cases may : mayMove (system.privileges root normal) account
                              (decide (fromdirectory = todirectory)) <;>
                            cases may' : mayMove (system.privileges root normal') account
                              (decide (fromdirectory = todirectory)) <;>
                            simp [may, may'] <;> grind

/-- What an account needs for one end of a move. -/
theorem mayMove_eq_true_iff {path : List Char} {sameDirectory : Bool}
    : mayMove (system.privileges root path) account sameDirectory = true
      ↔ MayWriteDropBox system root account path
        ∧ (system.privileges root path = none
          → account.moveFiles = true ∨ account.renameFiles = true ∧ sameDirectory = true) := by
  rw [MayWriteDropBox]
  cases system.privileges root path <;> simp [mayMove]

end Permission

-----------------------------------------------------------------------------------------
-- A rename out of a directory
-----------------------------------------------------------------------------------------

/-- A server with folders only, none of which is special. -/
def plainServer : FileSystem := fun location =>
  if location.names.contains ".wired".toList then none else some .directory

/-- An account that may rename files but not move them. -/
def renamer : FileAccount where
  name := "bob".toList
  group := []
  groups := []
  accessAllDropboxes := false
  moveFiles := false
  renameFiles := true

end WiredServer.Files
