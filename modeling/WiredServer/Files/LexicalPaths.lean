import WiredServer.Files.FilePlaces

/-! Normalised paths and what their names mean: dots lead nowhere, two dots lead up, and at the root
nowhere. Normalisation keeps two dots at the root, and drops them with the next two dots that lead
there.
-/

namespace WiredServer.Files

open WiredServer.PathStrings

-----------------------------------------------------------------------------------------
-- Resolved names
-----------------------------------------------------------------------------------------

/-- Where one more name leads from a place below the root. -/
def resolveName (place : List (List Char)) (name : List Char) : List (List Char) :=
  if name = ['.'] then place
  else if name = ['.', '.'] then place.dropLast
  else place ++ [name]

/-- Where names lead from the root. -/
def resolveNames (list : List (List Char)) : List (List Char) :=
  list.foldl resolveName []

/-- How often the names lead up from the root, from a place below it on. -/
def ascentsFrom : List (List Char) → List (List Char) → ℕ
  | _, [] => 0
  | place, name :: rest =>
      (if name = ['.', '.'] ∧ place = [] then 1 else 0) + ascentsFrom (resolveName place name) rest

/-- How often the names lead up from the root. -/
def ascents (list : List (List Char)) : ℕ :=
  ascentsFrom [] list

/-- A path from the root with names in it that lead only down, and without a slash at its end. -/
structure IsNormal (path : List Char) : Prop where
  fromRoot : path.head? = some '/'
  components : path = ['/']
    ∨ ∀ component ∈ (path.drop 1).splitOn '/',
      component ≠ [] ∧ component ≠ ['.'] ∧ component ≠ ['.', '.']
  noSlash : path = ['/'] ∨ path.getLast? ≠ some '/'

/-- Normalisation leaves a normal path to where the names lead, and leaves that alone. The last component
of the normal path can be deleted and appended again.
-/
def NormalizesPath (home : Option (List Char)) (path : List Char) : Prop :=
  ∃ normal, normalizePath home path = some normal
    ∧ IsNormal normal
    ∧ normal = render true (resolveNames (names path))
    ∧ normalizePath home normal = some normal
    ∧ (normal ≠ ['/'] →
      ∃ directory, deletingLastPathComponent home normal = some directory
        ∧ appendPathComponent directory (lastPathComponent normal) = normal)

-----------------------------------------------------------------------------------------
-- What normalisation keeps
-----------------------------------------------------------------------------------------

/-- One more name leads on from where the others lead. -/
theorem resolveNames_concat (list : List (List Char)) (name : List Char)
    : resolveNames (list ++ [name]) = resolveName (resolveNames list) name :=
  List.foldl_concat ..

/-- One more name may lead up from the root. -/
theorem ascents_concat (list : List (List Char)) (name : List Char)
    : ascents (list ++ [name])
      = ascents list + if name = ['.', '.'] ∧ resolveNames list = [] then 1 else 0 := by
  have behind (place : List (List Char))
      : ascentsFrom place (list ++ [name])
        = ascentsFrom place list
          + if name = ['.', '.'] ∧ list.foldl resolveName place = [] then 1 else 0 := by
    induction list generalizing place with
    | nil => exact Nat.add_comm _ _
    | cons first list ih =>
        rw [List.cons_append, ascentsFrom, ih, ascentsFrom, Nat.add_assoc, List.foldl_cons]
  exact behind []

/-- Two dots that were kept at the root are dropped with the next ones that lead there: they stand before
the resolved names if an odd number of them led up from the root, by induction on the names from
their end.
-/
theorem normalNames_eq {list : List (List Char)} (areNames : ∀ name ∈ list, IsName name)
    : normalNames true list
      = (if Even (ascents list) then [] else [['.', '.']]) ++ resolveNames list := by
  induction list using List.reverseRecOn with
  | nil => rfl
  | append_singleton list name ih =>
      have before := ih fun other mem => areNames other (List.mem_append_left _ mem)
      have noSlash : name ≠ ['/'] := by
        rintro rfl
        exact (areNames ['/'] (by simp)).2 (by simp)
      rw [normalNames_concat, before, ascents_concat, resolveNames_concat, keepName, resolveName]
      by_cases dot : name = ['.']
      · subst dot
        simp
      by_cases up : name = ['.', '.']
      · subst up
        rcases List.eq_nil_or_concat (resolveNames list) with root | ⟨front, last, place⟩
        · by_cases even : Even (ascents list)
          · simp [root, even, Nat.even_add_one]
          · simp [root, even, Nat.even_add_one]
        · rw [List.concat_eq_append] at place
          simp [place, ← List.append_assoc]
      · simp [noSlash, dot, up]

/-- The names that are left lead only down, by induction on the names from their end. -/
theorem leadsDown_of_mem_resolveNames {list : List (List Char)}
    (areNames : ∀ name ∈ list, IsName name) {name : List Char} (mem : name ∈ resolveNames list)
    : IsName name ∧ name ≠ ['.'] ∧ name ≠ ['.', '.'] := by
  induction list using List.reverseRecOn with
  | nil => cases mem
  | append_singleton list last ih =>
      have before := ih fun other inside => areNames other (List.mem_append_left _ inside)
      rw [resolveNames_concat, resolveName] at mem
      split at mem
      · exact before mem
      · rename_i dot
        split at mem
        · exact before (List.mem_of_mem_dropLast mem)
        · rename_i up
          rcases List.mem_append.mp mem with inside | isLast
          · exact before inside
          · rw [List.mem_singleton.mp isLast]
            exact ⟨areNames last (by simp), dot, up⟩

-----------------------------------------------------------------------------------------
-- Normalised paths
-----------------------------------------------------------------------------------------

/-- A path from the root is normalised to the names that are kept of it. -/
theorem normalizePath_fromRoot (home : Option (List Char)) (rest : List Char)
    : normalizePath home ('/' :: rest) = some (render true (normalNames true (names rest))) := by
  rw [normalizePath_eq, expandTilde_of_noTilde home (by simp), Option.map_some, normalForm, names,
    PathComponents.components_cons_self]
  rfl

/-- What is kept of the names in a path are names. -/
theorem isName_of_mem_kept {rest name : List Char} (mem : name ∈ normalNames true (names rest))
    : IsName name :=
  isName_of_mem_normalNames (fun _ inside => isName_of_mem_names inside) mem

/-- A normalised path is normalised to itself. -/
theorem normalizePath_render (home : Option (List Char)) (rest : List Char)
    : normalizePath home (render true (normalNames true (names rest)))
      = some (render true (normalNames true (names rest))) := by
  have joined := names_join fun name mem => @isName_of_mem_kept rest name mem
  rw [render, if_pos rfl, normalizePath_fromRoot, joined, normalNames_normalNames]
  rfl

/-- The last component of a normalised path is appended again where it was deleted. -/
theorem append_lastPathComponent (home : Option (List Char)) {rest : List Char}
    (below : render true (normalNames true (names rest)) ≠ ['/'])
    : ∃ directory,
      deletingLastPathComponent home (render true (normalNames true (names rest))) = some directory
      ∧ appendPathComponent directory
          (lastPathComponent (render true (normalNames true (names rest))))
        = render true (normalNames true (names rest)) := by
  have joined := names_join fun name mem => @isName_of_mem_kept rest name mem
  have areNames (name : List Char) (mem : name ∈ normalNames true (names rest)) : IsName name :=
    isName_of_mem_kept mem
  have normal := normalNames_normalNames true (names rest)
  rcases List.eq_nil_or_concat (normalNames true (names rest)) with root | ⟨front, last, split⟩
  · rw [root] at below
    exact absurd rfl below
  · rw [List.concat_eq_append] at split
    rw [split] at joined normal areNames ⊢
    have normalFront := normalNames_dropLast normal
    rw [List.dropLast_concat] at normalFront
    refine ⟨render true front, ?_, ?_⟩
    · rw [render, if_pos rfl, deletingLastPathComponent_of_absolute joined, normalFront]
    · rw [lastPathComponent_render true (areNames last (by simp)),
        appendPathComponent_render true (fun name mem => areNames name (List.mem_append_left _ mem))
          (areNames last (by simp))]

/-- The components of a path that is made of names are the names. -/
theorem splitOn_render {list : List (List Char)} (areNames : ∀ name ∈ list, IsName name)
    (some : list ≠ [])
    : ((render true list).drop 1).splitOn '/' = list := by
  rw [render, if_pos rfl, List.drop_succ_cons, List.drop_zero]
  exact List.splitOn_intercalate '/' (fun name mem => (areNames name mem).2) some

/-- A path that is made of names is not the root. -/
theorem render_ne_root {list : List (List Char)} (areNames : ∀ name ∈ list, IsName name)
    (some : list ≠ [])
    : render true list ≠ ['/'] := by
  intro root
  have components := splitOn_render areNames some
  rw [root] at components
  have empty := areNames [] (by rw [← components]; decide)
  exact empty.1 rfl

/-- A path with names that lead only down is normal. -/
theorem isNormal_render {list : List (List Char)}
    (down : ∀ name ∈ list, IsName name ∧ name ≠ ['.'] ∧ name ≠ ['.', '.'])
    : IsNormal (render true list) := by
  have areNames (name : List Char) (mem : name ∈ list) : IsName name := (down name mem).1
  rcases eq_or_ne list [] with rfl | some
  · exact ⟨rfl, .inl rfl, .inl rfl⟩
  refine ⟨rfl, .inr ?_, .inr ?_⟩
  · rw [splitOn_render areNames some]
    exact fun name mem => ⟨(areNames name mem).1, (down name mem).2⟩
  · intro slash
    obtain ⟨front, whole⟩ := List.getLast?_eq_some_iff.mp slash
    refine getLast?_join areNames ?_
    have notRoot := render_ne_root areNames some
    rw [whole] at notRoot
    rw [render, if_pos rfl] at whole
    cases front with
    | nil => exact absurd rfl notRoot
    | cons char front => simp [(List.cons.inj whole).2]

/-- A path that begins with two dots is not normal. -/
theorem not_isNormal_up {list : List (List Char)} (areNames : ∀ name ∈ list, IsName name)
    : ¬IsNormal (render true (['.', '.'] :: list)) := by
  have areNames' : ∀ name ∈ ['.', '.'] :: list, IsName name :=
    List.forall_mem_cons.mpr ⟨⟨by decide, by decide⟩, areNames⟩
  intro isNormal
  rcases isNormal.components with root | components
  · exact render_ne_root areNames' (by simp) root
  · rw [splitOn_render areNames' (by simp)] at components
    exact (components ['.', '.'] List.mem_cons_self).2.2 rfl

end WiredServer.Files
