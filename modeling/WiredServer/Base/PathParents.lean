import WiredServer.Base.PathStrings
import WiredServer.Lib.Joining
import WiredServer.Lib.PathComponents

/-! The directories of paths. The directory of a path as it was sent and the one of its normal form agree,
except for a path that ends with a dot, that consists of slashes, or that is a tilde.
-/

namespace WiredServer.PathStrings

-----------------------------------------------------------------------------------------
-- Names
-----------------------------------------------------------------------------------------

/-- The names in a path. -/
abbrev names (path : List Char) : List (List Char) :=
  PathComponents.components '/' path

/-- Names with slashes in between. -/
abbrev join (list : List (List Char)) : List Char :=
  ['/'].intercalate list

/-- A text that is a name. -/
def IsName (text : List Char) : Prop :=
  text ≠ [] ∧ '/' ∉ text

/-- A path from the root has the slash before its names. -/
theorem pathComponents_cons_slash (rest : List Char)
    : pathComponents ('/' :: rest) = ['/'] :: names rest := by
  rw [pathComponents, List.splitOn_cons_eq_if_modifyHead, if_pos (by rfl)]
  rfl

/-- Any other path consists of its names. -/
theorem pathComponents_of_relative {path : List Char} (nonempty : path ≠ [])
    (relative : path.head? ≠ some '/')
    : pathComponents path = names path := by
  obtain ⟨first, rest, rfl⟩ := List.exists_cons_of_ne_nil nonempty
  have other : first ≠ '/' := fun same => relative (congrArg some same)
  rw [pathComponents, names, PathComponents.components, List.splitOn_cons_eq_if_modifyHead,
    if_neg (by simpa using other)]
  cases parts : rest.splitOn '/' with
  | nil => exact absurd parts (List.splitOn_ne_nil '/' rest)
  | cons head tail => simp [List.modifyHead]

/-- The names in a path are names. -/
theorem isName_of_mem_names {path name : List Char} (mem : name ∈ names path) : IsName name := by
  rw [names, PathComponents.components, List.mem_filter, decide_eq_true_eq] at mem
  exact ⟨mem.2, Joining.separator_notMem_of_mem_splitOn mem.1⟩

/-- Names that are joined are found again, by induction on them. -/
theorem names_join {list : List (List Char)} (areNames : ∀ name ∈ list, IsName name)
    : names (join list) = list := by
  induction list with
  | nil => rfl
  | cons name list ih =>
      have isName := areNames name List.mem_cons_self
      have rest := ih fun other mem => areNames other (List.mem_cons_of_mem _ mem)
      have first : names name = [name] :=
        PathComponents.components_of_notMem '/' isName.1 isName.2
      cases list with
      | nil => rw [join, List.intercalate_singleton, first]
      | cons second others =>
          rw [join, List.intercalate_cons_cons, List.append_assoc, List.singleton_append, names,
            PathComponents.components_append_cons]
          exact congrArg₂ (· ++ ·) first rest

-----------------------------------------------------------------------------------------
-- Normal names
-----------------------------------------------------------------------------------------

/-- What normalisation leaves of names. -/
abbrev normalNames (absolute : Bool) (list : List (List Char)) : List (List Char) :=
  normalizeComponents absolute [] list

/-- Normalisation goes on with what it has kept. -/
theorem normalizeComponents_append (absolute : Bool) (kept list rest : List (List Char))
    : normalizeComponents absolute kept (list ++ rest)
      = normalizeComponents absolute (normalizeComponents absolute kept list).reverse rest := by
  induction list generalizing kept with
  | nil => simp [normalizeComponents]
  | cons name list ih =>
      simp only [List.cons_append, normalizeComponents]
      split
      · exact ih _
      · split
        · exact ih _
        · exact ih _

/-- What normalisation does with one more name. -/
def keepName (absolute : Bool) (kept : List (List Char)) (name : List Char) : List (List Char) :=
  if name = ['/'] || name = ['.'] then kept
  else if absolute && name = ['.', '.'] && kept ≠ [] then kept.dropLast
  else kept ++ [name]

/-- Normalisation takes one name after the other. -/
theorem normalNames_concat (absolute : Bool) (list : List (List Char)) (name : List Char)
    : normalNames absolute (list ++ [name]) = keepName absolute (normalNames absolute list) name := by
  rw [normalNames, normalizeComponents_append]
  simp only [normalizeComponents, keepName, List.reverse_eq_nil_iff, ne_eq]
  split
  · rw [List.reverse_reverse]
  · split
    · rw [List.tail_reverse, List.reverse_reverse]
    · rw [List.reverse_cons, List.reverse_reverse]

/-- Normalisation makes no list longer, by induction on it from its end. -/
theorem length_normalNames_le (absolute : Bool) (list : List (List Char))
    : (normalNames absolute list).length ≤ list.length := by
  induction list using List.reverseRecOn with
  | nil => exact le_refl 0
  | append_singleton list name ih =>
      rw [normalNames_concat, keepName, List.length_append, List.length_singleton]
      split
      · exact Nat.le_succ_of_le ih
      · split
        · rw [List.length_dropLast]
          omega
        · rw [List.length_append, List.length_singleton]
          omega

/-- The beginning of normal names is normal. -/
theorem normalNames_dropLast {absolute : Bool} {list : List (List Char)}
    (normal : normalNames absolute list = list)
    : normalNames absolute list.dropLast = list.dropLast := by
  induction list using List.reverseRecOn with
  | nil => rfl
  | append_singleton list name _ =>
      have short := length_normalNames_le absolute list
      rw [List.dropLast_concat]
      rw [normalNames_concat, keepName] at normal
      split at normal
      · have length := congrArg List.length normal
        rw [List.length_append, List.length_singleton] at length
        omega
      · split at normal
        · have length := congrArg List.length normal
          rw [List.length_append, List.length_singleton, List.length_dropLast] at length
          omega
        · exact List.append_cancel_right normal

/-- Normalisation leaves what it has left once, by induction on the names from their end. -/
theorem normalNames_normalNames (absolute : Bool) (list : List (List Char))
    : normalNames absolute (normalNames absolute list) = normalNames absolute list := by
  induction list using List.reverseRecOn with
  | nil => rfl
  | append_singleton list name ih =>
      rw [normalNames_concat]
      by_cases skipped : name = ['/'] || name = ['.']
      · rw [keepName, if_pos skipped]
        exact ih
      · by_cases up : absolute && name = ['.', '.'] && normalNames absolute list ≠ []
        · rw [keepName, if_neg skipped, if_pos up]
          exact normalNames_dropLast ih
        · rw [keepName, if_neg skipped, if_neg up, normalNames_concat, ih, keepName, if_neg skipped,
            if_neg up]

/-- Normal names are names. -/
theorem isName_of_mem_normalNames {absolute : Bool} {list : List (List Char)}
    (areNames : ∀ name ∈ list, IsName name) {name : List Char}
    (mem : name ∈ normalNames absolute list)
    : IsName name := by
  induction list using List.reverseRecOn with
  | nil => cases mem
  | append_singleton list last ih =>
      have start := ih fun other inside => areNames other (List.mem_append_left _ inside)
      rw [normalNames_concat, keepName] at mem
      split at mem
      · exact start mem
      · split at mem
        · exact start (List.mem_of_mem_dropLast mem)
        · rcases List.mem_append.mp mem with mem | mem
          · exact start mem
          · rw [List.mem_singleton.mp mem]
            exact areNames last (by simp)

-----------------------------------------------------------------------------------------
-- Normal forms
-----------------------------------------------------------------------------------------

/-- Whether a path starts at the root. -/
def isAbsolute (path : List Char) : Bool :=
  path.head? = some '/'

/-- A path that is made of names. -/
def render (absolute : Bool) (list : List (List Char)) : List Char :=
  if absolute then '/' :: join list else join list

/-- The normal form of a path without a tilde. -/
def normalForm (path : List Char) : List Char :=
  render (isAbsolute path) (normalNames (isAbsolute path) (names path))

/-- A path without a tilde is not expanded. -/
theorem expandTilde_of_noTilde (home : Option (List Char)) {path : List Char}
    (noTilde : path.head? ≠ some '~')
    : expandTilde home path = some path :=
  if_pos noTilde

/-- Normalisation expands the tilde and takes the normal form. -/
theorem normalizePath_eq (home : Option (List Char)) (path : List Char)
    : normalizePath home path = (expandTilde home path).map normalForm := by
  by_cases nothing : path = []
  · subst nothing
    rfl
  by_cases slash : path = ['/']
  · subst slash
    rfl
  have more : ¬(path = [] || path = ['/']) := by simp [nothing, slash]
  rw [normalizePath, if_neg more]
  cases expandTilde home path with
  | none => rfl
  | some expanded =>
      simp only [Option.map_some, Option.some.injEq, normalForm, isAbsolute, render]
      cases expanded with
      | nil => rfl
      | cons first rest =>
          by_cases absolute : first = '/'
          · subst absolute
            rw [pathComponents_cons_slash]
            simp [normalNames, normalizeComponents]
          · rw [pathComponents_of_relative (by simp) (by simpa using absolute)]
            rfl

/-- A tilde of its own is the first name of a path. -/
theorem names_tilde {rest : List Char} (alone : (pathComponents ('~' :: rest)).head? = some ['~'])
    : PathComponents.MeetsBetween '/' ['~'] rest ∧ names ('~' :: rest) = ['~'] :: names rest := by
  have meets : PathComponents.MeetsBetween '/' ['~'] rest := by
    by_contra apart
    simp only [PathComponents.MeetsBetween, not_or] at apart
    obtain ⟨-, -, nonempty, first⟩ := apart
    obtain ⟨word, others, more, same⟩ := PathComponents.exists_components_append_first '/'
      (by decide : '/' ∉ ['~']) nonempty first
    rw [pathComponents_of_relative (by simp) (by simp), names, ← List.singleton_append, same] at alone
    exact more (by simpa using alone)
  refine ⟨meets, ?_⟩
  have split := PathComponents.components_append '/' meets
  have tilde : names ['~'] = [['~']] := PathComponents.components_of_notMem '/' (by simp) (by decide)
  exact split.trans (congrArg (· ++ names rest) tilde)

-----------------------------------------------------------------------------------------
-- Directories
-----------------------------------------------------------------------------------------

section Directories

variable {home : Option (List Char)}

/-- The directory of the user who runs the server starts at the root. -/
def HomeIsAbsolute (home : Option (List Char)) : Prop :=
  ∀ directory ∈ home, isAbsolute directory = true

/-- A path that is nothing but a tilde that stands for a directory. -/
def IsHome (home : Option (List Char)) (path : List Char) : Prop :=
  home ≠ none ∧ pathComponents path = [['~']]

/-- A list of names is joined to a path that begins like the first of them. -/
theorem head_join {first : List Char} (rest : List (List Char)) (nonempty : first ≠ [])
    : (join (first :: rest)).head? = first.head? := by
  obtain ⟨char, others, rfl⟩ := List.exists_cons_of_ne_nil nonempty
  cases rest with
  | nil => rw [join, List.intercalate_singleton]
  | cons second others =>
      rw [join, List.intercalate_cons_cons, List.append_assoc]
      rfl

/-- A relative path begins like its first name. -/
theorem head_names {path first : List Char} {rest : List (List Char)}
    (relative : path.head? ≠ some '/') (isNames : names path = first :: rest)
    : path.head? = first.head? := by
  have whole : join (path.splitOn '/') = path := List.intercalate_splitOn '/'
  cases parts : path.splitOn '/' with
  | nil => exact absurd parts (List.splitOn_ne_nil '/' path)
  | cons part others =>
      rw [parts] at whole
      by_cases nothing : part = []
      · subst nothing
        rw [← whole] at relative isNames
        cases others with
        | nil => cases isNames
        | cons second others => exact absurd rfl relative
      · rw [names, PathComponents.components, parts, List.filter_cons_of_pos (by simpa using nothing)]
          at isNames
        rw [← whole, head_join others nothing, (List.cons.inj isNames).1]

/-- The names before the last one, after the slash of the root. -/
theorem join_cons_slash {front : List (List Char)} (areNames : ∀ name ∈ front, IsName name)
    : ∃ rest, join (['/'] :: front) = '/' :: rest ∧ names rest = front := by
  cases front with
  | nil => exact ⟨[], rfl, rfl⟩
  | cons first others =>
      refine ⟨'/' :: join (first :: others), ?_, ?_⟩
      · rw [join, List.intercalate_cons_cons]
        rfl
      · rw [names, PathComponents.components_cons_self]
        exact names_join areNames

/-- The tilde of the user who runs the server stands for a directory. -/
theorem expandTilde_home {directory rest : List Char} (absolute : isAbsolute directory = true)
    (alone : (pathComponents ('~' :: rest)).head? = some ['~'])
    : ∃ expanded, expandTilde (some directory) ('~' :: rest) = some expanded
      ∧ isAbsolute expanded = true ∧ names expanded = names directory ++ names rest := by
  have meets : PathComponents.MeetsBetween '/' directory rest := by
    rcases (names_tilde alone).1 with nothing | slash | nothing | slash
    · cases nothing
    · exact absurd slash (by decide)
    · exact .inr (.inr (.inl nothing))
    · exact .inr (.inr (.inr slash))
  refine ⟨directory ++ rest, ?_, ?_, PathComponents.components_append '/' meets⟩
  · rw [expandTilde, if_neg (by simp), if_pos alone]
    rfl
  · cases directory with
    | nil => cases absolute
    | cons first others => exact absolute

/-- A path with a tilde that can be expanded has the tilde for its first component. -/
theorem tilde_of_expandTilde {rest expanded : List Char}
    (expands : expandTilde home ('~' :: rest) = some expanded)
    : (pathComponents ('~' :: rest)).head? = some ['~'] := by
  by_contra other
  rw [expandTilde, if_neg (by simp), if_neg other] at expands
  cases expands

/-- A tilde that stands for nothing is kept. -/
theorem expandTilde_none {rest : List Char}
    (alone : (pathComponents ('~' :: rest)).head? = some ['~'])
    : expandTilde none ('~' :: rest) = some ('~' :: rest) := by
  rw [expandTilde, if_neg (by simp), if_pos alone]
  rfl

/-- The directory of a path from the root. -/
theorem deletingLastPathComponent_of_absolute {rest : List Char} {front : List (List Char)}
    {last : List Char} (split : names rest = front ++ [last])
    : deletingLastPathComponent home ('/' :: rest) = some (render true (normalNames true front)) := by
  have areNames : ∀ name ∈ front, IsName name := fun _ mem =>
    isName_of_mem_names (split ▸ List.mem_append_left _ mem : _ ∈ names rest)
  have more : '/' :: rest ≠ ['/'] := by
    intro slash
    rw [(List.cons.inj slash).2] at split
    simp at split
  obtain ⟨joined, same, isFront⟩ := join_cons_slash areNames
  rw [deletingLastPathComponent, if_neg more, pathComponents_cons_slash, split, ← List.cons_append,
    List.dropLast_concat]
  change normalizePath home (join (['/'] :: front)) = _
  rw [same, normalizePath_eq, expandTilde_of_noTilde home (by simp), Option.map_some, normalForm,
    names, PathComponents.components_cons_self]
  exact congrArg (fun list => some (render true (normalNames true list))) isFront

/-- The directory of another path is the normal form of the names before the last one. -/
theorem deletingLastPathComponent_of_relative {path : List Char} {front : List (List Char)}
    {last : List Char} (relative : path.head? ≠ some '/') (split : names path = front ++ [last])
    : deletingLastPathComponent home path = (expandTilde home (join front)).map normalForm := by
  have nonempty : path ≠ [] := by
    rintro rfl
    simp at split
  have more : path ≠ ['/'] := by
    rintro rfl
    exact relative rfl
  rw [deletingLastPathComponent, if_neg more, pathComponents_of_relative nonempty relative, split,
    List.dropLast_concat, ← normalizePath_eq]

/-- The directory of a path with a last name: the expanded path has the same last name, and the names
before it are those of the directory.
-/
theorem deletingLastPathComponent_eq (absolute : HomeIsAbsolute home) {path expanded : List Char}
    {front : List (List Char)} {last : List Char}
    (expands : expandTilde home path = some expanded)
    (split : names path = front ++ [last]) (notHome : ¬IsHome home path)
    : ∃ list, names expanded = list ++ [last]
      ∧ deletingLastPathComponent home path
        = some (render (isAbsolute expanded) (normalNames (isAbsolute expanded) list)) := by
  have areNames : ∀ name ∈ front, IsName name := fun _ mem =>
    isName_of_mem_names (split ▸ List.mem_append_left _ mem : _ ∈ names path)
  cases path with
  | nil => simp at split
  | cons head rest =>
      by_cases slash : head = '/'
      · -- A path from the root.
        subst slash
        rw [expandTilde_of_noTilde home (by simp)] at expands
        cases expands
        refine ⟨front, split, deletingLastPathComponent_of_absolute (?_ : _ = front ++ [last])⟩
        rwa [names, PathComponents.components_cons_self] at split
      · have relative : (head :: rest).head? ≠ some '/' := by simpa using slash
        have isNames := pathComponents_of_relative (by simp) relative
        have directory : deletingLastPathComponent home (head :: rest)
            = (expandTilde home (join front)).map normalForm :=
          deletingLastPathComponent_of_relative relative split
        have noSlash : isAbsolute (head :: rest) = false := by simpa [isAbsolute] using slash
        have joined := names_join areNames
        by_cases tilde : head = '~'
        · subst tilde
          have alone := tilde_of_expandTilde expands
          cases front with
          | nil =>
              -- A tilde alone, which stands for nothing.
              rw [isNames, split] at alone
              have isTilde : last = ['~'] := Option.some.inj alone
              have isNone : home = none := by
                by_contra some
                exact notHome ⟨some, by rw [isNames, split, isTilde]; rfl⟩
              subst isNone
              rw [expandTilde_none (by rw [isNames, split, isTilde]; rfl)] at expands
              cases expands
              refine ⟨[], split, ?_⟩
              rw [directory, noSlash]
              rfl
          | cons first others =>
              have isTilde : first = ['~'] := by
                rw [isNames, split] at alone
                exact Option.some.inj alone
              subst isTilde
              obtain ⟨rest', begins⟩ := List.head?_eq_some_iff.mp
                (head_join others (by decide : ['~'] ≠ []))
              rw [begins] at joined directory
              have alone' : (pathComponents ('~' :: rest')).head? = some ['~'] := by
                rw [pathComponents_of_relative (by simp) (by simp), joined]
                rfl
              have isRest : names rest = others ++ [last] :=
                (List.cons.inj ((names_tilde alone).2.symm.trans split)).2
              have isRest' : names rest' = others :=
                (List.cons.inj ((names_tilde alone').2.symm.trans joined)).2
              cases home with
              | none =>
                  rw [expandTilde_none alone] at expands
                  cases expands
                  refine ⟨['~'] :: others, split, ?_⟩
                  rw [directory, expandTilde_none alone', Option.map_some, normalForm, joined]
                  rfl
              | some home =>
                  have fromRoot := absolute home rfl
                  obtain ⟨path', same, isAbsolute', isNames'⟩ := expandTilde_home fromRoot alone
                  obtain ⟨front', expands', isAbsolute'', isNames''⟩ :=
                    expandTilde_home fromRoot alone'
                  rw [same] at expands
                  cases expands
                  refine ⟨names home ++ others, ?_, ?_⟩
                  · rw [isNames', isRest, List.append_assoc]
                  · rw [directory, expands', Option.map_some, normalForm, isAbsolute'', isNames'',
                      isAbsolute', isRest']
        · rw [expandTilde_of_noTilde home (by simpa using tilde)] at expands
          cases expands
          refine ⟨front, split, ?_⟩
          have noTilde : (join front).head? ≠ some '~' ∧ isAbsolute (join front) = false := by
            cases front with
            | nil => exact ⟨by simp, rfl⟩
            | cons first others =>
                have head := head_join others (areNames first List.mem_cons_self).1
                rw [← head_names relative split, List.head?_cons] at head
                simp [isAbsolute, head, tilde, slash]
          rw [directory, expandTilde_of_noTilde home noTilde.1, Option.map_some, normalForm, joined,
            noTilde.2, noSlash]

/-- A path after the expansion of its tilde: it starts at the root, or with a name that does not begin
with a dot, or with a tilde only if that stands for nothing.
-/
def IsExpanded (home : Option (List Char)) (path : List Char) : Prop :=
  isAbsolute path = true
  ∨ ∃ first rest, names path = first :: rest ∧ path.head? ≠ some '/' ∧ first.head? ≠ some '.'
    ∧ (first.head? = some '~' → first = ['~'] ∧ home = none)

/-- Normalisation of a path that does not start at the root only drops dots. -/
theorem normalizeComponents_relative (kept list : List (List Char))
    : normalizeComponents false kept list
      = kept.reverse ++ list.filter fun name => !(name = ['/'] || name = ['.']) := by
  induction list generalizing kept with
  | nil => simp [normalizeComponents]
  | cons name list ih =>
      by_cases skipped : name = ['/'] || name = ['.']
      · rw [normalizeComponents, if_pos skipped, ih, List.filter_cons_of_neg (by simp [skipped])]
      · rw [normalizeComponents, if_neg skipped, if_neg (by simp), ih,
          List.filter_cons_of_pos (by simp [skipped]), List.reverse_cons, List.append_assoc]
        rfl

/-- The first name of a path that does not start at the root stays, unless it begins with a dot. -/
theorem normalNames_cons {first : List Char} (rest : List (List Char)) (isName : IsName first)
    (noDot : first.head? ≠ some '.')
    : ∃ others, normalNames false (first :: rest) = first :: others := by
  have kept : ¬(first = ['/'] || first = ['.']) := by
    simp only [Bool.or_eq_true, decide_eq_true_eq, not_or]
    refine ⟨fun slash => isName.2 (by simp [slash]), fun dot => noDot (by rw [dot]; rfl)⟩
  rw [normalNames, normalizeComponents_relative, List.filter_cons_of_pos (by simp [kept])]
  exact ⟨_, rfl⟩

/-- The directory of a normal form has the names before the last one. -/
theorem deletingLastPathComponent_normalForm (absolute : HomeIsAbsolute home) {path : List Char}
    (isExpanded : IsExpanded home path)
    : deletingLastPathComponent home (normalForm path)
      = some (render (isAbsolute path)
          (normalNames (isAbsolute path) (names path)).dropLast) := by
  have stable := normalNames_normalNames (isAbsolute path) (names path)
  have areNames {name : List Char} (mem : name ∈ normalNames (isAbsolute path) (names path))
      : IsName name :=
    isName_of_mem_normalNames (fun _ mem => isName_of_mem_names mem) mem
  have joined := names_join fun name mem => areNames mem
  have normalFront := normalNames_dropLast stable
  rw [normalForm]
  rcases isExpanded with fromRoot | ⟨first, rest, isNames, relative, noDot, noTilde⟩
  · rw [fromRoot] at joined normalFront ⊢
    rcases List.eq_nil_or_concat (normalNames true (names path)) with nothing | ⟨front, last, split⟩
    · rw [nothing]
      rfl
    · rw [List.concat_eq_append] at split
      rw [split, List.dropLast_concat] at normalFront ⊢
      rw [split] at joined
      rw [render, if_pos rfl, deletingLastPathComponent_of_absolute joined, normalFront]
  · have noRoot : isAbsolute path = false := by simpa [isAbsolute] using relative
    rw [noRoot] at joined normalFront areNames ⊢
    obtain ⟨others, isNormal⟩ := normalNames_cons rest
      (isName_of_mem_names (isNames ▸ List.mem_cons_self : first ∈ names path)) noDot
    rw [← isNames] at isNormal
    rcases List.eq_nil_or_concat (normalNames false (names path)) with nothing | ⟨front, last, split⟩
    · rw [nothing] at isNormal
      cases isNormal
    · rw [List.concat_eq_append] at split
      have begins : (join (normalNames false (names path))).head? = path.head? := by
        have isName := areNames (isNormal ▸ List.mem_cons_self : first ∈ normalNames false (names path))
        rw [isNormal, head_join others isName.1, head_names relative isNames]
      have headFirst : path.head? = first.head? := head_names relative isNames
      have nonempty : join (normalNames false (names path)) ≠ [] := by
        intro nothing
        rw [nothing, headFirst] at begins
        exact (areNames (isNormal ▸ List.mem_cons_self : first ∈ normalNames false (names path))).1
          (List.head?_eq_none_iff.mp begins.symm)
      have isComponents := pathComponents_of_relative nonempty (begins ▸ relative)
      rw [joined] at isComponents
      have ⟨expands, notHome⟩ : expandTilde home (join (normalNames false (names path)))
          = some (join (normalNames false (names path)))
          ∧ ¬IsHome home (join (normalNames false (names path))) := by
        by_cases tilde : first.head? = some '~'
        · obtain ⟨isTilde, isNone⟩ := noTilde tilde
          subst isTilde isNone
          obtain ⟨rest', isTilde⟩ := List.head?_eq_some_iff.mp (begins.trans headFirst)
          rw [isTilde] at isComponents ⊢
          exact ⟨expandTilde_none (by rw [isComponents, isNormal]; rfl), fun isHome => isHome.1 rfl⟩
        · refine ⟨expandTilde_of_noTilde home (by rw [begins, headFirst]; exact tilde), ?_⟩
          rintro ⟨-, isTilde⟩
          rw [isComponents, isNormal] at isTilde
          exact tilde (by rw [(List.cons.inj isTilde).1]; rfl)
      obtain ⟨list, isList, directory⟩ :=
        deletingLastPathComponent_eq absolute expands (joined.trans split) notHome
      have isFront : list = front := List.append_cancel_right
        (isList.symm.trans (joined.trans split) : list ++ [last] = front ++ [last])
      have noRoot' : isAbsolute (join (normalNames false (names path))) = false := by
        rw [isAbsolute, begins]
        exact noRoot
      rw [split, List.dropLast_concat] at normalFront ⊢
      rw [split, isFront] at directory
      rw [split] at noRoot'
      change deletingLastPathComponent home (join (front ++ [last])) = _
      rw [directory, noRoot', normalFront]

/-- Normal names before a last one. -/
theorem normalNames_dropLast_concat (absolute : Bool) (list : List (List Char)) {name : List Char}
    (slash : name ≠ ['/']) (dot : name ≠ ['.']) (up : name ≠ ['.', '.'])
    : (normalNames absolute (list ++ [name])).dropLast = normalNames absolute list := by
  rw [normalNames_concat, keepName, if_neg (by simp [slash, dot]), if_neg (by simp [up]),
    List.dropLast_concat]

end Directories

end WiredServer.PathStrings
