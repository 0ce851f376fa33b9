import Mathlib
import WiredServer.Lib.Occurrences

/-! Replacing a pattern in a text: once each of its occurrences from left to right, or the first
occurrence again and again. The second way ends with the result of the first one if, at each time,
the first occurrence in the text is as good as the next one of the occurrences from left to right.
-/

namespace Rewriting

open Occurrences

variable {α β : Type} [DecidableEq β] (fold : α → β) (pattern replacement : List α)

-----------------------------------------------------------------------------------------
-- The first occurrence
-----------------------------------------------------------------------------------------

/-- The place of the first occurrence. -/
def firstPlace (text : List α) : Option ℕ :=
  (List.range text.length).find? fun place => OccursAt fold pattern text place

/-- The text with the pattern at a place replaced. -/
def rewriteAt (text : List α) (place : ℕ) : List α :=
  text.take place ++ replacement ++ text.drop (place + pattern.length)

/-- The text with the first occurrence replaced, if there is one. -/
def rewriteFirst (text : List α) : Option (List α) :=
  (firstPlace fold pattern text).map (rewriteAt pattern replacement text)

/-- Replacing the first occurrence again and again comes to a text without occurrences. -/
inductive Ends : List α → List α → Prop where
  | stop {text : List α} (clean : rewriteFirst fold pattern replacement text = none)
      : Ends text text
  | again {text next result : List α}
      (rewritten : rewriteFirst fold pattern replacement text = some next)
      (rest : Ends next result)
      : Ends text result

/-- The text contains the pattern nowhere. -/
def Clean (text : List α) : Prop :=
  ∀ place, ¬OccursAt fold pattern text place

variable {fold pattern replacement}

/-- The first place is the place of the first occurrence. -/
theorem firstPlace_isFirst (nonempty : pattern ≠ []) (text : List α)
    : IsFirst (OccursAt fold pattern text) (firstPlace fold pattern text) := by
  have long := List.length_pos_of_ne_nil nonempty
  have inText {place : ℕ} (occurs : OccursAt fold pattern text place)
      : place ∈ List.range text.length := by
    have bound := occurs.length_le
    rw [List.mem_range]
    omega
  cases found : firstPlace fold pattern text with
  | none =>
      intro place occurs
      rw [firstPlace, List.find?_eq_none] at found
      exact found place (inText occurs) (decide_eq_true occurs)
  | some index =>
      rw [firstPlace, List.find?_range_eq_some] at found
      refine ⟨of_decide_eq_true found.1, fun place occurs => not_lt.mp fun before => ?_⟩
      simpa [show OccursAt fold pattern text place from occurs] using found.2.2 place before

/-- A text with no occurrence is left as it is. -/
theorem rewriteFirst_eq_none_iff (nonempty : pattern ≠ []) {text : List α}
    : rewriteFirst fold pattern replacement text = none ↔ Clean fold pattern text := by
  have first := @firstPlace_isFirst α β _ fold pattern nonempty text
  rw [rewriteFirst, Option.map_eq_none_iff]
  constructor
  · intro none
    rw [none] at first
    exact first
  · intro clean
    cases found : firstPlace fold pattern text with
    | none => rfl
    | some index =>
        rw [found] at first
        exact absurd first.1 (clean index)

/-- What replacing comes to has no occurrence. -/
theorem Ends.clean (nonempty : pattern ≠ []) {text result : List α}
    (ends : Ends fold pattern replacement text result)
    : Clean fold pattern result := by
  induction ends with
  | stop clean => exact (rewriteFirst_eq_none_iff nonempty).mp clean
  | again rewritten rest ih => exact ih

/-- Replacing the first occurrence is replacing the one at the first place. -/
theorem rewriteFirst_eq_some (nonempty : pattern ≠ []) {text next : List α}
    (rewritten : rewriteFirst fold pattern replacement text = some next)
    : ∃ place, OccursAt fold pattern text place
      ∧ (∀ other, OccursAt fold pattern text other → place ≤ other)
      ∧ rewriteAt pattern replacement text place = next := by
  obtain ⟨place, found, rfl⟩ := Option.map_eq_some_iff.mp rewritten
  have first := @firstPlace_isFirst α β _ fold pattern nonempty text
  rw [found] at first
  exact ⟨place, first.1, fun other occurs => first.2 occurs, rfl⟩

/-- When replacing a text with an occurrence ends, it has begun with an occurrence at or before that
one.
-/
theorem Ends.step (nonempty : pattern ≠ []) {text result : List α}
    (ends : Ends fold pattern replacement text result) {place : ℕ}
    (occurs : OccursAt fold pattern text place)
    : ∃ first ≤ place, OccursAt fold pattern text first
      ∧ rewriteFirst fold pattern replacement text
        = some (rewriteAt pattern replacement text first)
      ∧ Ends fold pattern replacement (rewriteAt pattern replacement text first) result := by
  cases ends with
  | stop clean => exact absurd occurs ((rewriteFirst_eq_none_iff nonempty).mp clean place)
  | again rewritten rest =>
      obtain ⟨first, occursFirst, least, rfl⟩ := rewriteFirst_eq_some nonempty rewritten
      exact ⟨first, least place occurs, occursFirst, rewritten, rest⟩

/-- If the replacement contains the pattern, replacing a text with an occurrence never ends. -/
theorem not_ends_of_occurs (nonempty : pattern ≠ []) {inside : ℕ}
    (contains : OccursAt fold pattern replacement inside) {text result : List α} {place : ℕ}
    (occurs : OccursAt fold pattern text place)
    : ¬Ends fold pattern replacement text result := by
  intro ends
  induction ends generalizing place with
  | stop clean => exact (rewriteFirst_eq_none_iff nonempty).mp clean place occurs
  | @again text next result rewritten rest ih =>
      obtain ⟨first, occursFirst, -, rfl⟩ := rewriteFirst_eq_some nonempty rewritten
      have bound := occursFirst.length_le
      have long := List.length_pos_of_ne_nil nonempty
      have front : (text.take first).length = first := by
        rw [List.length_take]
        omega
      have long' := contains.length_le
      have again : OccursAt fold pattern (rewriteAt pattern replacement text first)
          (first + inside) := by
        rw [← occursAt_drop, rewriteAt, List.append_assoc,
          List.drop_append_of_le_length (by omega), List.drop_eq_nil_of_le (by omega),
          List.nil_append, OccursAt, List.drop_append_of_le_length (by omega), List.map_append]
        exact contains.trans (List.prefix_append _ _)
      exact ih again

-----------------------------------------------------------------------------------------
-- From left to right
-----------------------------------------------------------------------------------------

section LeftToRight

variable (fold pattern replacement)

/-- Replaces the occurrences that do not overlap, from left to right, behind the given number of
elements that belong to an occurrence already.
-/
def replaceEach : ℕ → List α → List α
  | _, [] => []
  | skip + 1, _ :: rest => replaceEach skip rest
  | 0, first :: rest =>
      if OccursAt fold pattern (first :: rest) 0 then
        replacement ++ replaceEach (pattern.length - 1) rest
      else first :: replaceEach 0 rest

/-- Whenever some of the occurrences have been replaced from left to right, replacing the first
occurrence in the text is the same as replacing the next one.
-/
def NextIsFirst (finished : List α) : ℕ → List α → Prop
  | _, [] => True
  | skip + 1, _ :: rest => NextIsFirst finished skip rest
  | 0, first :: rest =>
      if OccursAt fold pattern (first :: rest) 0 then
        rewriteFirst fold pattern replacement (finished ++ first :: rest)
            = some (rewriteAt pattern replacement (finished ++ first :: rest) finished.length)
          ∧ NextIsFirst (finished ++ replacement) (pattern.length - 1) rest
      else NextIsFirst (finished ++ [first]) 0 rest

instance decidableNextIsFirst [DecidableEq α]
    : (finished : List α) → (skip : ℕ) → (text : List α)
      → Decidable (NextIsFirst fold pattern replacement finished skip text)
  | _, 0, [] => .isTrue trivial
  | _, _ + 1, [] => .isTrue trivial
  | finished, skip + 1, _ :: rest => decidableNextIsFirst finished skip rest
  | finished, 0, first :: rest =>
      have := decidableNextIsFirst (finished ++ replacement) (pattern.length - 1) rest
      have := decidableNextIsFirst (finished ++ [first]) 0 rest
      inferInstanceAs (Decidable
        (if OccursAt fold pattern (first :: rest) 0 then
          rewriteFirst fold pattern replacement (finished ++ first :: rest)
              = some (rewriteAt pattern replacement (finished ++ first :: rest) finished.length)
            ∧ NextIsFirst fold pattern replacement (finished ++ replacement) (pattern.length - 1) rest
        else NextIsFirst fold pattern replacement (finished ++ [first]) 0 rest))

end LeftToRight

/-- Replacing the pattern behind some text leaves that text. -/
theorem rewriteAt_append (finished text : List α)
    : rewriteAt pattern replacement (finished ++ text) finished.length
      = finished ++ replacement ++ text.drop pattern.length := by
  rw [rewriteAt, List.take_left, List.drop_append]
  simp

omit [DecidableEq β] in
/-- A pattern has a first element, behind which the rest of it is skipped. -/
theorem drop_cons_pattern (nonempty : pattern ≠ []) (first : α) (rest : List α)
    : (first :: rest).drop pattern.length = rest.drop (pattern.length - 1) := by
  obtain ⟨head, tail, rfl⟩ := List.exists_cons_of_ne_nil nonempty
  rfl

omit [DecidableEq β] in
/-- Replacing the pattern behind some text, when the rest of the pattern is skipped. -/
theorem rewriteAt_cons (nonempty : pattern ≠ []) (finished : List α) (first : α) (rest : List α)
    : rewriteAt pattern replacement (finished ++ first :: rest) finished.length
      = finished ++ replacement ++ rest.drop (pattern.length - 1) := by
  rw [rewriteAt_append, drop_cons_pattern nonempty]

/-- If the next occurrence is always as good as the first, replacing the first again and again
comes to the text with each occurrence replaced, provided that it has none, by induction from left
to right.
-/
theorem ends_of_nextIsFirst (nonempty : pattern ≠ []) {finished text : List α} {skip : ℕ}
    (order : NextIsFirst fold pattern replacement finished skip text)
    (clean : Clean fold pattern (finished ++ replaceEach fold pattern replacement skip text))
    : Ends fold pattern replacement (finished ++ text.drop skip)
        (finished ++ replaceEach fold pattern replacement skip text) := by
  induction text generalizing finished skip with
  | nil =>
      rw [List.drop_nil]
      rw [replaceEach] at clean ⊢
      exact .stop ((rewriteFirst_eq_none_iff nonempty).mpr clean)
  | cons first rest ih =>
      cases skip with
      | succ skip => exact ih order clean
      | zero =>
          rw [NextIsFirst] at order
          rw [replaceEach] at clean ⊢
          rw [List.drop_zero]
          split at order
          case isTrue here =>
            rw [if_pos here] at clean ⊢
            rw [← List.append_assoc] at clean ⊢
            rw [rewriteAt_cons nonempty] at order
            exact .again order.1 (ih order.2 clean)
          case isFalse absent =>
            rw [if_neg absent] at clean ⊢
            have next := ih order (by simpa using clean)
            simpa using next

-----------------------------------------------------------------------------------------
-- The other direction
-----------------------------------------------------------------------------------------

/-- Lists of which none is a prefix of the other agree up to a place where they differ. -/
theorem exists_first_difference {left right : List β} (notPrefix : ¬left <+: right)
    (notPrefix' : ¬right <+: left)
    : ∃ common x y left' right', left = common ++ x :: left' ∧ right = common ++ y :: right'
      ∧ x ≠ y := by
  induction left generalizing right with
  | nil => exact absurd List.nil_prefix notPrefix
  | cons first rest ih =>
      cases right with
      | nil => exact absurd List.nil_prefix notPrefix'
      | cons second others =>
          by_cases same : first = second
          · subst same
            rw [List.prefix_cons_inj] at notPrefix notPrefix'
            obtain ⟨common, x, y, left', right', leftEq, rightEq, differ⟩ := ih notPrefix notPrefix'
            exact ⟨first :: common, x, y, left', right', by simp [leftEq], by simp [rightEq], differ⟩
          · exact ⟨[], first, second, rest, others, rfl, rfl, same⟩

/-- Lists of which none is a suffix of the other agree behind a place where they differ. -/
theorem exists_last_difference {left right : List β} (notSuffix : ¬left <:+ right)
    (notSuffix' : ¬right <:+ left)
    : ∃ common x y left' right', left = left' ++ x :: common ∧ right = right' ++ y :: common
      ∧ x ≠ y := by
  rw [← List.reverse_prefix] at notSuffix notSuffix'
  obtain ⟨common, x, y, left', right', leftEq, rightEq, differ⟩ :=
    exists_first_difference notSuffix notSuffix'
  refine ⟨common.reverse, x, y, left'.reverse, right'.reverse, ?_, ?_, differ⟩
  · rw [← List.reverse_reverse left, leftEq]
    simp
  · rw [← List.reverse_reverse right, rightEq]
    simp

omit [DecidableEq β] in
/-- A text with a replaced pattern, element by element. -/
theorem map_rewriteAt (text : List α) (place : ℕ)
    : (rewriteAt pattern replacement text place).map fold
      = (text.take place).map fold ++ replacement.map fold
        ++ (text.drop (place + pattern.length)).map fold := by
  simp [rewriteAt]

/-- If the replacement starts with the pattern, a text without occurrences after the replacement had
none before.
-/
theorem nextIsFirst_of_prefix (starts : pattern.map fold <+: replacement.map fold)
    {finished text : List α} {skip : ℕ}
    (clean : Clean fold pattern (finished ++ replaceEach fold pattern replacement skip text))
    : NextIsFirst fold pattern replacement finished skip text := by
  induction text generalizing finished skip with
  | nil => trivial
  | cons first rest ih =>
      cases skip with
      | succ skip => exact ih clean
      | zero =>
          rw [NextIsFirst]
          rw [replaceEach] at clean
          split
          case isTrue here =>
            rw [if_pos here] at clean
            refine absurd ?_ (clean finished.length)
            rw [OccursAt, List.drop_left, List.map_append]
            exact starts.trans (List.prefix_append _ _)
          case isFalse absent =>
            rw [if_neg absent] at clean
            exact ih (by simpa using clean)

section Lexicographic

variable {r : β → β → Prop} {common left right : List β} {x y : β}

omit [DecidableEq β] in
/-- A difference behind a common part decides the lexicographic order. -/
theorem lex_append (before : r x y)
    : List.Lex r (common ++ x :: left) (common ++ y :: right) := by
  induction common with
  | nil => exact .rel before
  | cons first rest ih => exact .cons ih

omit [DecidableEq β] in
/-- If the replacement comes before the pattern, replacing makes a text smaller. -/
theorem lex_rewriteAt (before : r x y) (replacementEq : replacement.map fold = common ++ x :: left)
    (patternEq : pattern.map fold = common ++ y :: right) {text : List α} {place : ℕ}
    (occurs : OccursAt fold pattern text place)
    : List.Lex r ((rewriteAt pattern replacement text place).map fold) (text.map fold) := by
  rw [map_rewriteAt, occurs.split, replacementEq, patternEq]
  simp only [List.append_assoc, List.cons_append]
  rw [← List.append_assoc, ← List.append_assoc]
  exact lex_append before

omit [DecidableEq β] in
/-- If the replacement comes before the pattern, replacing an earlier occurrence makes a text
smaller than replacing a later one, whatever becomes of the rest.
-/
theorem lex_of_earlier (before : r x y) (replacementEq : replacement.map fold = common ++ x :: left)
    (patternEq : pattern.map fold = common ++ y :: right) {text : List α} {place later : ℕ}
    (occurs : OccursAt fold pattern text place) (occursLater : OccursAt fold pattern text later)
    (earlier : place < later) (rest : List α)
    : List.Lex r ((rewriteAt pattern replacement text place).map fold)
        ((text.take later ++ replacement ++ rest).map fold) := by
  have short : place ≤ text.length := by
    have bound := occursLater.length_le
    have long : 0 < pattern.length := by
      rw [← List.length_map fold, patternEq]
      simp
    omega
  have inText : later ≤ text.length := by
    have bound := occursLater.length_le
    have long : 0 < pattern.length := by
      rw [← List.length_map fold, patternEq]
      simp
    omega
  have front : (text.take place).map fold ++ common ++ [y] <+: text.map fold := by
    rw [occurs.split, patternEq]
    exact ⟨right ++ (text.drop (place + pattern.length)).map fold, by simp⟩
  have front' : (text.take later).map fold ++ common <+: text.map fold := by
    rw [occursLater.split, patternEq]
    exact ⟨y :: right ++ (text.drop (later + pattern.length)).map fold, by simp⟩
  obtain ⟨between, same⟩ := List.prefix_of_prefix_length_le front front' (by simp; omega)
  have laterEq : (text.take later ++ replacement ++ rest).map fold
      = (text.take place).map fold ++ common
        ++ y :: (between ++ x :: left ++ rest.map fold) := by
    rw [List.map_append, List.map_append, replacementEq, ← List.append_assoc, ← same]
    simp
  rw [laterEq, map_rewriteAt, replacementEq]
  simp only [List.append_assoc, List.cons_append]
  rw [← List.append_assoc, ← List.append_assoc]
  exact lex_append before

/-- What replacing comes to is the text itself or smaller, if the replacement comes before the
pattern.
-/
theorem Ends.lex (nonempty : pattern ≠ []) (trans : ∀ {x y z : β}, r x y → r y z → r x z)
    (before : r x y) (replacementEq : replacement.map fold = common ++ x :: left)
    (patternEq : pattern.map fold = common ++ y :: right) {text result : List α}
    (ends : Ends fold pattern replacement text result)
    : result = text ∨ List.Lex r (result.map fold) (text.map fold) := by
  induction ends with
  | stop clean => exact .inl rfl
  | @again text next result rewritten rest ih =>
      obtain ⟨place, occurs, -, rfl⟩ := rewriteFirst_eq_some nonempty rewritten
      have smaller := lex_rewriteAt before replacementEq patternEq occurs
      rcases ih with rfl | smaller'
      · exact .inr smaller
      · exact .inr (List.lex_trans (r := r) trans smaller' smaller)

/-- If the replacement comes before the pattern, the next occurrence was always the first one when
replacing the first again and again comes to the text with each occurrence replaced.
-/
theorem nextIsFirst_of_lex (nonempty : pattern ≠ [])
    (trans : ∀ {x y z : β}, r x y → r y z → r x z) (irrefl : ∀ x : β, ¬r x x)
    (before : r x y) (replacementEq : replacement.map fold = common ++ x :: left)
    (patternEq : pattern.map fold = common ++ y :: right) {finished text : List α} {skip : ℕ}
    (ends : Ends fold pattern replacement (finished ++ text.drop skip)
      (finished ++ replaceEach fold pattern replacement skip text))
    : NextIsFirst fold pattern replacement finished skip text := by
  induction text generalizing finished skip with
  | nil => trivial
  | cons first rest ih =>
      cases skip with
      | succ skip => exact ih ends
      | zero =>
          rw [NextIsFirst]
          rw [List.drop_zero, replaceEach] at ends
          split
          case isTrue here =>
            rw [if_pos here, ← List.append_assoc] at ends
            have occurs : OccursAt fold pattern (finished ++ first :: rest) finished.length := by
              rwa [OccursAt, List.drop_left]
            obtain ⟨place, before', occursFirst, rewritten, later⟩ := ends.step nonempty occurs
            rcases Nat.eq_or_lt_of_le before' with rfl | earlier
            · refine ⟨rewritten, ih ?_⟩
              rwa [rewriteAt_cons nonempty] at later
            · have smaller := lex_of_earlier before replacementEq patternEq occursFirst occurs earlier
                (replaceEach fold pattern replacement (pattern.length - 1) rest)
              rw [List.take_left] at smaller
              have reached := Ends.lex (r := r) nonempty trans before replacementEq patternEq later
              rcases reached with same | smaller'
              · rw [same] at smaller
                exact absurd smaller (List.lex_irrefl irrefl _)
              · exact absurd (List.lex_trans (r := r) trans smaller' smaller) (List.lex_irrefl irrefl _)
          case isFalse absent =>
            rw [if_neg absent] at ends
            exact ih (by simpa using ends)

end Lexicographic

section Endings

variable {common left right : List β} {x y : β}

/-- If the replacement is shorter than the pattern, a text with an occurrence becomes shorter. -/
theorem Ends.length_lt (nonempty : pattern ≠ []) (shorter : replacement.length < pattern.length)
    {text result : List α} (ends : Ends fold pattern replacement text result)
    : result = text ∨ result.length < text.length := by
  induction ends with
  | stop clean => exact .inl rfl
  | @again text next result rewritten rest ih =>
      obtain ⟨place, occurs, -, rfl⟩ := rewriteFirst_eq_some nonempty rewritten
      have bound := occurs.length_le
      have less : (rewriteAt pattern replacement text place).length < text.length := by
        simp only [rewriteAt, List.length_append, List.length_take, List.length_drop]
        omega
      rcases ih with rfl | smaller
      · exact .inr less
      · exact .inr (smaller.trans less)

omit [DecidableEq β] in
/-- When a pattern stands at the end of a text and also before it, what follows its difference at the
earlier place has the end of the text.
-/
theorem suffix_of_earlier {finished head tail : List β}
    (same : finished ++ right ++ y :: common = head ++ (right ++ y :: common) ++ tail)
    (nonempty : tail ≠ [])
    : y :: common <:+ common ++ tail := by
  have long := List.length_pos_of_ne_nil nonempty
  have suffix : common ++ tail <:+ finished ++ right ++ y :: common := by
    rw [same]
    exact ⟨head ++ right ++ [y], by simp⟩
  refine List.suffix_of_suffix_length_le (List.suffix_append (finished ++ right) _) suffix ?_
  rw [List.length_cons, List.length_append]
  omega

omit [DecidableEq β] in
/-- Replacing an occurrence that begins before some place but does not end there leaves the end of an
occurrence at that place, behind the difference of the pattern and the replacement.
-/
theorem exists_end_of_earlier (replacementEq : replacement.map fold = left ++ x :: common)
    (patternEq : pattern.map fold = right ++ y :: common) {finished rest : List α} {place : ℕ}
    (occurs : OccursAt fold pattern (finished ++ rest) place)
    (occursLater : OccursAt fold pattern rest 0) (earlier : place < finished.length)
    : ∃ next front, rewriteAt pattern replacement (finished ++ rest) place
        = next ++ rest.drop pattern.length
      ∧ next.length = finished.length + replacement.length
      ∧ next.map fold = front ++ y :: common := by
  have bound := occursLater.length_le
  have patternFront : (rest.take pattern.length).map fold = pattern.map fold := by
    have same := occursLater.split
    rw [Nat.zero_add, List.take_zero, List.map_nil, List.nil_append] at same
    rw [List.map_take, same, ← List.length_map fold, List.take_left]
  have length : (finished ++ rest.take pattern.length).length
      = finished.length + pattern.length := by
    rw [List.length_append, List.length_take]
    omega
  have split : finished ++ rest = finished ++ rest.take pattern.length ++ rest.drop pattern.length := by
    rw [List.append_assoc, List.take_append_drop]
  have occursHere : OccursAt fold pattern (finished ++ rest.take pattern.length) place := by
    rw [split, OccursAt, List.drop_append_of_le_length (by omega), List.map_append] at occurs
    exact List.prefix_of_prefix_length_le occurs (List.prefix_append _ _) (by simp; omega)
  have ended : (finished ++ rest.take pattern.length).map fold
      = finished.map fold ++ right ++ y :: common := by
    rw [List.map_append, patternFront, patternEq, List.append_assoc]
  have behind : place + pattern.length < (finished ++ rest.take pattern.length).length := by
    omega
  have next := @map_rewriteAt α β fold pattern replacement (finished ++ rest.take pattern.length) place
  have whole := occursHere.split
  rw [ended, patternEq] at whole
  have behindEnd : ((finished ++ rest.take pattern.length).drop (place + pattern.length)).map fold
      ≠ [] := by
    rw [ne_eq, List.map_eq_nil_iff, List.drop_eq_nil_iff]
    omega
  obtain ⟨front, same⟩ := suffix_of_earlier whole behindEnd
  refine ⟨rewriteAt pattern replacement (finished ++ rest.take pattern.length) place,
    ((finished ++ rest.take pattern.length).take place).map fold ++ left ++ x :: front, ?_, ?_, ?_⟩
  · rw [split, rewriteAt, rewriteAt, List.take_append_of_le_length (by omega),
      List.drop_append_of_le_length (by omega), List.append_assoc _ _ (rest.drop pattern.length)]
  · simp only [rewriteAt, List.length_append, List.length_take, List.length_drop]
    omega
  · rw [next, replacementEq, List.append_assoc, List.append_assoc, List.cons_append, ← same]
    simp only [List.append_assoc, List.cons_append]

/-- Texts of one length that differ stay different when the first occurrence is replaced in one of
them and the next one in the other, by induction from left to right.
-/
theorem ne_of_ends (nonempty : pattern ≠ []) (shorter : replacement.length < pattern.length)
    (replacementEq : replacement.map fold = left ++ x :: common)
    (patternEq : pattern.map fold = right ++ y :: common) (differ : x ≠ y)
    {finished other text result : List α} {skip : ℕ} (sameLength : finished.length = other.length)
    (different : finished.map fold ≠ other.map fold)
    (ends : Ends fold pattern replacement (finished ++ text.drop skip) result)
    : result ≠ other ++ replaceEach fold pattern replacement skip text := by
  induction text generalizing finished other skip with
  | nil =>
      rw [List.drop_nil, List.append_nil] at ends
      rw [replaceEach, List.append_nil]
      rintro rfl
      rcases ends.length_lt nonempty shorter with rfl | smaller
      · exact different rfl
      · omega
  | cons first rest ih =>
      cases skip with
      | succ skip => exact ih sameLength different ends
      | zero =>
          rw [replaceEach]
          rw [List.drop_zero] at ends
          split
          case isTrue here =>
            rw [← List.append_assoc]
            have occurs : OccursAt fold pattern (finished ++ first :: rest) finished.length := by
              rwa [OccursAt, List.drop_left]
            obtain ⟨place, before, occursFirst, -, later⟩ := ends.step nonempty occurs
            rcases Nat.eq_or_lt_of_le before with rfl | earlier
            · rw [rewriteAt_cons nonempty] at later
              refine ih ?_ ?_ later
              · rw [List.length_append, List.length_append, sameLength]
              · rw [List.map_append, List.map_append]
                exact fun same => different (List.append_cancel_right same)
            · obtain ⟨next, front, nextEq, nextLength, nextEnd⟩ :=
                exists_end_of_earlier replacementEq patternEq occursFirst here earlier
              rw [nextEq, drop_cons_pattern nonempty] at later
              refine ih ?_ ?_ later
              · rw [nextLength, List.length_append, sameLength]
              · rw [nextEnd, List.map_append, replacementEq, ← List.append_assoc]
                intro same
                have ended := List.append_inj' same rfl
                exact differ (List.cons.inj ended.2).1.symm
          case isFalse absent =>
            have same : finished ++ first :: rest = finished ++ [first] ++ rest.drop 0 := by simp
            rw [same] at ends
            have longer : (finished ++ [first]).length = (other ++ [first]).length := by
              simp [sameLength]
            have apart : (finished ++ [first]).map fold ≠ (other ++ [first]).map fold := by
              simpa using different
            simpa using ih longer apart ends

/-- If the replacement is shorter and ends differently than the pattern, the next occurrence was
always the first one when replacing the first again and again comes to the text with each
occurrence replaced.
-/
theorem nextIsFirst_of_ending (nonempty : pattern ≠ []) (shorter : replacement.length < pattern.length)
    (replacementEq : replacement.map fold = left ++ x :: common)
    (patternEq : pattern.map fold = right ++ y :: common) (differ : x ≠ y)
    {finished text : List α} {skip : ℕ}
    (ends : Ends fold pattern replacement (finished ++ text.drop skip)
      (finished ++ replaceEach fold pattern replacement skip text))
    : NextIsFirst fold pattern replacement finished skip text := by
  induction text generalizing finished skip with
  | nil => trivial
  | cons first rest ih =>
      cases skip with
      | succ skip => exact ih ends
      | zero =>
          rw [NextIsFirst]
          rw [List.drop_zero, replaceEach] at ends
          split
          case isTrue here =>
            rw [if_pos here, ← List.append_assoc] at ends
            have occurs : OccursAt fold pattern (finished ++ first :: rest) finished.length := by
              rwa [OccursAt, List.drop_left]
            obtain ⟨place, before, occursFirst, rewritten, later⟩ := ends.step nonempty occurs
            rcases Nat.eq_or_lt_of_le before with rfl | earlier
            · refine ⟨rewritten, ih ?_⟩
              rwa [rewriteAt_cons nonempty] at later
            · obtain ⟨next, front, nextEq, nextLength, nextEnd⟩ :=
                exists_end_of_earlier replacementEq patternEq occursFirst here earlier
              rw [nextEq, drop_cons_pattern nonempty] at later
              refine absurd rfl (ne_of_ends nonempty shorter replacementEq patternEq differ ?_ ?_ later)
              · rw [nextLength, List.length_append]
              · rw [nextEnd, List.map_append, replacementEq, ← List.append_assoc]
                intro same
                have ended := List.append_inj' same rfl
                exact differ (List.cons.inj ended.2).1.symm
          case isFalse absent =>
            rw [if_neg absent] at ends
            exact ih (by simpa using ends)

end Endings

/-- The replacement is shorter than the pattern, which starts and ends with it. -/
def IsBorder (fold : α → β) (pattern replacement : List α) : Prop :=
  replacement.map fold <+: pattern.map fold ∧ replacement.map fold <:+ pattern.map fold
    ∧ replacement.length < pattern.length

/-- Unless the pattern starts and ends with a shorter replacement, replacing the first occurrence
again and again comes to the text with each occurrence replaced just when that text has none and
the next occurrence was always as good as the first.
-/
theorem ends_iff (nonempty : pattern ≠ [])
    (notBorder : ¬IsBorder fold pattern replacement) {text : List α}
    : Ends fold pattern replacement text (replaceEach fold pattern replacement 0 text)
      ↔ NextIsFirst fold pattern replacement [] 0 text
        ∧ Clean fold pattern (replaceEach fold pattern replacement 0 text) := by
  constructor
  · intro ends
    have clean := ends.clean nonempty
    refine ⟨?_, clean⟩
    by_cases starts : pattern.map fold <+: replacement.map fold
    · exact nextIsFirst_of_prefix starts clean
    · by_cases starts' : replacement.map fold <+: pattern.map fold
      · have shorter : replacement.length < pattern.length := by
          have bound := starts'.length_le
          rw [List.length_map, List.length_map] at bound
          refine lt_of_le_of_ne bound fun same => starts ?_
          rw [starts'.eq_of_length (by simpa using same)]
        have ending : ¬replacement.map fold <:+ pattern.map fold :=
          fun suffix => notBorder ⟨starts', suffix, shorter⟩
        have ending' : ¬pattern.map fold <:+ replacement.map fold := by
          intro suffix
          have bound := suffix.length_le
          rw [List.length_map, List.length_map] at bound
          omega
        obtain ⟨common, x, y, left, right, replacementEq, patternEq, differ⟩ :=
          exists_last_difference ending ending'
        exact nextIsFirst_of_ending nonempty shorter replacementEq patternEq differ ends
      · obtain ⟨common, x, y, left, right, replacementEq, patternEq, differ⟩ :=
          exists_first_difference starts' starts
        -- any total order of the elements will do
        let r : β → β → Prop := WellOrderingRel
        have trans : ∀ {x y z : β}, r x y → r y z → r x z := trans_of r
        rcases trichotomous_of r x y with before | same | before
        · exact nextIsFirst_of_lex (r := r) nonempty trans (irrefl_of r) before
            replacementEq patternEq ends
        · exact absurd same differ
        · exact nextIsFirst_of_lex (r := fun x y => r y x) nonempty (fun first second =>
            trans second first) (irrefl_of r) before replacementEq patternEq ends
  · rintro ⟨order, clean⟩
    exact ends_of_nextIsFirst nonempty order clean

end Rewriting
