import Mathlib
import WiredServer.Data.TextEdits
import WiredServer.Data.TextSearch
import WiredServer.Lib.Rewriting

/-! Replacing a text in another one. The loop searches from the start of the text after each
replacement, so it also finds what it has inserted.
-/

namespace WiredServer.Data

open Bytes Loop Occurrences Rewriting

-----------------------------------------------------------------------------------------
-- The loop
-----------------------------------------------------------------------------------------

variable (target replacement : Block) (options : SearchOptions)

/-- A round of `wi_mutable_string_replace_string_with_string`. The loop has no string if an assertion
ends the process.
-/
def replaceRound (string : Block) : Access (Turn Block (Option Block)) :=
  match indexOfStringInRange string target options 0 string.length with
  | none => .ok (.stop none)
  | some none => .ok (.stop (some string))
  | some (some location) =>
      match replaceCharacters string location target.length replacement with
      | none => .ok (.stop none)
      | some next => .ok (.again next)

/-- `wi_mutable_string_replace_string_with_string`, for at most so many rounds. -/
def replaceStringWithString (rounds : ℕ) (string : Block) : Access (Option Block) :=
  run (replaceRound target replacement options) rounds string

/-- The loop ends, with the string in which each of the leftmost occurrences that do not overlap is
replaced once.
-/
def ReplacesEach (string : Block) : Prop :=
  ∃ rounds, replaceStringWithString target replacement options rounds string
    = .ok (some (replaceEach (options.comparison target) target replacement 0 string))

-----------------------------------------------------------------------------------------
-- Rounds
-----------------------------------------------------------------------------------------

variable {target replacement options} {string : Block}

/-- A string without zero bytes stays one when some of it is replaced. -/
theorem zero_notMem_rewriteAt (zeroFree : 0 ∉ string) (replacementFree : 0 ∉ replacement)
    {place : ℕ}
    : 0 ∉ rewriteAt target replacement string place := by
  rw [rewriteAt, List.mem_append, List.mem_append]
  rintro ((front | middle) | behind)
  · exact zeroFree (List.mem_of_mem_take front)
  · exact replacementFree middle
  · exact zeroFree (List.mem_of_mem_drop behind)

/-- The whole string is searched for the first occurrence. -/
theorem indexOf_whole (zeroFree : 0 ∉ string) (targetFree : 0 ∉ target) (nonempty : target ≠ [])
    (forwards : options.backwards = false)
    : indexOfStringInRange string target options 0 string.length
      = some (firstPlace (options.comparison target) target string) := by
  have first := @firstPlace_isFirst _ _ _ (options.comparison target) target nonempty string
  have long := List.length_pos_of_ne_nil nonempty
  rcases Nat.eq_zero_or_pos string.length with empty | some
  · have none : firstPlace (options.comparison target) target string = none := by
      rw [firstPlace, empty]
      rfl
    rw [none, indexOfStringInRange, if_pos (by omega), if_pos empty]
  · obtain ⟨result, found, first'⟩ :=
      indexOf_forwards zeroFree targetFree nonempty (by omega : 0 + string.length ≤ _) some forwards
    rw [found]
    refine congrArg _ (first'.unique (first.congr fun place => ?_))
    rw [OccursWithin]
    constructor
    · intro occurs
      have bound := occurs.length_le
      exact ⟨Nat.zero_le _, by omega, occurs⟩
    · exact fun within => within.2.2

/-- A round replaces the first occurrence. -/
theorem replaceRound_eq (zeroFree : 0 ∉ string) (targetFree : 0 ∉ target) (nonempty : target ≠ [])
    (replacementFree : 0 ∉ replacement) (forwards : options.backwards = false)
    : replaceRound target replacement options string
      = .ok (match rewriteFirst (options.comparison target) target replacement string with
        | none => .stop (some string)
        | some next => .again next) := by
  rw [replaceRound, indexOf_whole zeroFree targetFree nonempty forwards, rewriteFirst]
  have first := @firstPlace_isFirst _ _ _ (options.comparison target) target nonempty string
  cases found : firstPlace (options.comparison target) target string with
  | none => rfl
  | some place =>
      rw [found] at first
      have long := List.length_pos_of_ne_nil nonempty
      have bound := OccursAt.length_le first.1
      simp only [replaceCharacters_eq (by omega : place + target.length ≤ string.length)
        replacementFree, Option.map_some, rewriteAt]

/-- The loop ends with a string just when replacing the first occurrence again and again comes to
it.
-/
theorem replaceStringWithString_iff (zeroFree : 0 ∉ string) (targetFree : 0 ∉ target)
    (nonempty : target ≠ []) (replacementFree : 0 ∉ replacement)
    (forwards : options.backwards = false) {result : Block}
    : (∃ rounds, replaceStringWithString target replacement options rounds string
        = .ok (some result))
      ↔ Ends (options.comparison target) target replacement string result := by
  constructor
  · rintro ⟨rounds, ended⟩
    induction rounds generalizing string with
    | zero => cases ended
    | succ rounds ih =>
        obtain ⟨rest, same, ended⟩ := run_eq_ok ended
        obtain rfl : rounds = rest := Nat.succ.inj same
        rw [replaceRound_eq zeroFree targetFree nonempty replacementFree forwards] at ended
        cases rewritten : rewriteFirst (options.comparison target) target replacement string with
        | none =>
            rw [rewritten] at ended
            rcases ended with stopped | ⟨next, again, -⟩
            · cases stopped
              exact .stop rewritten
            · cases again
        | some next =>
            rw [rewritten] at ended
            rcases ended with stopped | ⟨other, again, ended⟩
            · cases stopped
            · cases again
              obtain ⟨place, -, -, rfl⟩ := rewriteFirst_eq_some nonempty rewritten
              exact .again rewritten (ih (zero_notMem_rewriteAt zeroFree replacementFree) ended)
  · intro ends
    induction ends with
    | @stop string clean =>
        refine ⟨1, run_stop ?_⟩
        rw [replaceRound_eq zeroFree targetFree nonempty replacementFree forwards, clean]
    | @again string next result rewritten rest ih =>
        obtain ⟨place, -, -, rfl⟩ := rewriteFirst_eq_some nonempty rewritten
        obtain ⟨rounds, ended⟩ := ih (zero_notMem_rewriteAt zeroFree replacementFree)
        refine ⟨rounds + 1, (run_again ?_).trans ended⟩
        rw [replaceRound_eq zeroFree targetFree nonempty replacementFree forwards, rewritten]

/-- If the replacement contains the target, the loop never ends for a string that contains it. -/
theorem replaceStringWithString_endless (zeroFree : 0 ∉ string) (targetFree : 0 ∉ target)
    (nonempty : target ≠ []) (replacementFree : 0 ∉ replacement)
    (forwards : options.backwards = false) {inside place : ℕ}
    (contains : OccursAt (options.comparison target) target replacement inside)
    (occurs : OccursAt (options.comparison target) target string place)
    : ∀ rounds result, replaceStringWithString target replacement options rounds string
      ≠ .ok (some result) := by
  intro rounds result ended
  exact not_ends_of_occurs nonempty contains occurs
    ((replaceStringWithString_iff zeroFree targetFree nonempty replacementFree forwards).mp
      ⟨rounds, ended⟩)

-----------------------------------------------------------------------------------------
-- Each occurrence once
-----------------------------------------------------------------------------------------

/-- Whenever some of the occurrences have been replaced from left to right, the first occurrence in
the string is as good as the next one, and the string in which all are replaced has none.
-/
def InOrder (target replacement : Block) (options : SearchOptions) (string : Block) : Prop :=
  NextIsFirst (options.comparison target) target replacement [] 0 string
    ∧ Clean (options.comparison target) target
      (replaceEach (options.comparison target) target replacement 0 string)

end WiredServer.Data
