import Mathlib
import WiredServer.Data.TextLists
import WiredServer.Lib.Occurrences

/-! Searching a range of a text for another text. The routines of the C library work on memory that
ends with a zero byte, not at the end of the range.
-/

namespace WiredServer.Data

open Bytes Occurrences

-----------------------------------------------------------------------------------------
-- Letters
-----------------------------------------------------------------------------------------

/-- `isupper` in the C locale. -/
def isUpper (byte : UInt8) : Bool :=
  65 ≤ byte && byte ≤ 90

/-- `tolower` in the C locale. -/
def toLower (byte : UInt8) : UInt8 :=
  if isUpper byte then byte + 32 else byte

/-- A comparison of bytes that tells the zero byte from all others. -/
def TellsZero (fold : UInt8 → UInt8) : Prop :=
  ∀ byte, fold byte = fold 0 → byte = 0

theorem tellsZero_id : TellsZero id :=
  fun _ same => same

theorem tellsZero_toLower : TellsZero toLower := by
  unfold TellsZero
  decide +kernel

-----------------------------------------------------------------------------------------
-- Routines on memory
-----------------------------------------------------------------------------------------

/-- `strncmp` and `strncasecmp` find no difference between the bytes at `s` and all of `find`. -/
def startsLike (fold : UInt8 → UInt8) : Block → Block → Bool
  | _, [] => true
  | [], _ :: _ => false
  | sc :: s, c :: find => fold sc = fold c && startsLike fold s find

/-- The loops of `wi_strnstr` and `wi_strncasestr`, for the first byte of the text that is searched
for and the rest of it: how far from `s` the text is found.
-/
def strnstrFrom (fold : UInt8 → UInt8) (c : UInt8) (find : Block) : Block → ℕ → Option ℕ
  | sc :: s, slen + 1 =>
      if sc = 0 then none
      else if fold sc ≠ fold c then (strnstrFrom fold c find s slen).map (· + 1)
      else if find.length > slen then none
      else if startsLike fold s find then some 0
      else (strnstrFrom fold c find s slen).map (· + 1)
  | _, _ => none

/-- `wi_strnstr`. -/
def strnstr (s : Block) : Block → ℕ → Option ℕ
  | [], _ => some 0
  | c :: find, slen => strnstrFrom id c find s slen

/-- `wi_strncasestr`. -/
def strncasestr (s : Block) : Block → ℕ → Option ℕ
  | [], _ => some 0
  | c :: find, slen => strnstrFrom toLower c find s slen

/-- `wi_strrnstr`: from the last byte of the range down, whatever follows the range. -/
def strrnstr (s find : Block) : ℕ → Option ℕ
  | 0 => none
  | slen + 1 => if startsLike id (s.drop slen) find then some slen else strrnstr s find slen

/-- `wi_strrncasestr`, whose body is the one of `wi_strrnstr` and compares with `strncmp`. -/
def strrncasestr (s find : Block) (slen : ℕ) : Option ℕ :=
  strrnstr s find slen

-----------------------------------------------------------------------------------------
-- The search
-----------------------------------------------------------------------------------------

/-- The options of a search. -/
structure SearchOptions where
  backwards : Bool
  caseInsensitive : Bool
  smartCaseInsensitive : Bool
deriving DecidableEq

/-- Whether a search for a text ignores the case of letters. -/
def SearchOptions.insensitive (options : SearchOptions) (otherstring : Block) : Bool :=
  if options.caseInsensitive then true
  else if options.smartCaseInsensitive then !otherstring.any isUpper
  else false

/-- `wi_string_index_of_string_in_range`. An assertion that does not hold ends the process, and
there is no result.
-/
def indexOfStringInRange (string otherstring : Block) (options : SearchOptions)
    (location length : ℕ)
    : Option (Option ℕ) :=
  if location ≤ string.length ∧ location + length ≤ string.length then
    if length = 0 then some none
    else
      let s := (string ++ [0]).drop location
      let find := cstring otherstring
      let p :=
        if options.backwards then
          if options.insensitive otherstring then strrncasestr s find length
          else strrnstr s find length
        else if options.insensitive otherstring then strncasestr s find length
        else strnstr s find length
      some <| p.bind fun offset =>
        let index := location + offset
        if index > location + length then none else some index
  else none

-----------------------------------------------------------------------------------------
-- What the routines find
-----------------------------------------------------------------------------------------

variable {fold : UInt8 → UInt8} {text find string needle : Block}

/-- The zero byte behind a text is never compared with a byte of the other text as equal, by
induction on the other text.
-/
theorem startsLike_iff (tells : TellsZero fold) (findFree : 0 ∉ find)
    : startsLike fold (text ++ [0]) find = true ↔ OccursAt fold find text 0 := by
  induction find generalizing text with
  | nil => simp [startsLike, OccursAt]
  | cons c find ih =>
      rw [List.mem_cons, not_or] at findFree
      cases text with
      | nil =>
          have differ : fold 0 ≠ fold c := fun same => findFree.1 (tells c same.symm).symm
          simp [startsLike, differ, not_occursAt_nil]
      | cons sc text =>
          rw [List.cons_append, startsLike, occursAt_cons_zero, Bool.and_eq_true, decide_eq_true_eq,
            ih findFree.2, eq_comm]

/-- The loops forwards find the first occurrence that ends within the range, by induction on the
text.
-/
theorem strnstrFrom_isFirst (tells : TellsZero fold) (zeroFree : 0 ∉ text) {c : UInt8}
    (findFree : 0 ∉ find) (slen : ℕ)
    : IsFirst (fun place => place + (find.length + 1) ≤ slen ∧ OccursAt fold (c :: find) text place)
        (strnstrFrom fold c find (text ++ [0]) slen) := by
  induction text generalizing slen with
  | nil =>
      have nowhere (place : ℕ)
          : ¬(place + (find.length + 1) ≤ slen ∧ OccursAt fold (c :: find) [] place) :=
        fun found => not_occursAt_nil found.2
      cases slen with
      | zero => exact nowhere
      | succ slen => exact nowhere
  | cons sc text ih =>
      rw [List.mem_cons, not_or] at zeroFree
      cases slen with
      | zero =>
          intro place found
          have := found.1
          omega
      | succ slen =>
          have later
              : IsFirst
                  (fun place => place + 1 + (find.length + 1) ≤ slen + 1
                    ∧ OccursAt fold (c :: find) (sc :: text) (place + 1))
                  (strnstrFrom fold c find (text ++ [0]) slen) :=
            (ih zeroFree.2 slen).congr fun place => by
              rw [occursAt_cons_succ]
              constructor <;> rintro ⟨fits, occurs⟩ <;> exact ⟨by omega, occurs⟩
          rw [List.cons_append, strnstrFrom, if_neg (Ne.symm zeroFree.1)]
          by_cases same : fold sc = fold c
          · rw [if_neg (not_not.mpr same)]
            by_cases long : find.length > slen
            · rw [if_pos long]
              intro place found
              have := found.1
              omega
            · rw [if_neg long]
              by_cases here : startsLike fold (text ++ [0]) find = true
              · rw [if_pos here]
                refine isFirst_zero ⟨by omega, ?_⟩
                exact occursAt_cons_zero.mpr ⟨same.symm, (startsLike_iff tells findFree).mp here⟩
              · rw [if_neg here]
                refine isFirst_succ (fun found => here ?_) later
                exact (startsLike_iff tells findFree).mpr (occursAt_cons_zero.mp found.2).2
          · rw [if_pos same]
            exact isFirst_succ (fun found => same (occursAt_cons_zero.mp found.2).1.symm) later

/-- The loop backwards finds the last exact occurrence that begins in the range, by induction on
its length.
-/
theorem strrnstr_isLast (findFree : 0 ∉ find) {slen : ℕ} (inside : slen ≤ text.length)
    : IsLast (fun place => place < slen ∧ OccursAt id find text place)
        (strrnstr (text ++ [0]) find slen) := by
  induction slen with
  | zero => exact fun place found => Nat.not_lt_zero place found.1
  | succ slen ih =>
      have start : (text ++ [0]).drop slen = text.drop slen ++ [0] :=
        List.drop_append_of_le_length (by omega)
      have here : startsLike id ((text ++ [0]).drop slen) find = true ↔ OccursAt id find text slen := by
        rw [start, startsLike_iff tellsZero_id findFree, occursAt_drop, Nat.add_zero]
      rw [strrnstr]
      by_cases found : OccursAt id find text slen
      · rw [if_pos (here.mpr found)]
        exact ⟨⟨Nat.lt_succ_self slen, found⟩, fun place other => Nat.le_of_lt_succ other.1⟩
      · rw [if_neg (mt here.mp found)]
        have smaller (place : ℕ)
            : (place < slen + 1 ∧ OccursAt id find text place)
              ↔ (place < slen ∧ OccursAt id find text place) := by
          constructor
          · rintro ⟨below, occurs⟩
            refine ⟨(Nat.lt_succ_iff_lt_or_eq.mp below).resolve_right ?_, occurs⟩
            rintro rfl
            exact found occurs
          · exact fun other => ⟨Nat.lt_succ_of_lt other.1, other.2⟩
        simpa only [smaller] using ih (by omega)

-----------------------------------------------------------------------------------------
-- Occurrences in a range
-----------------------------------------------------------------------------------------

/-- The comparison of bytes that the options ask for. -/
def SearchOptions.comparison (options : SearchOptions) (otherstring : Block) : UInt8 → UInt8 :=
  if options.insensitive otherstring then toLower else id

/-- A text stands at a place of another and wholly inside a range of it. -/
def OccursWithin (fold : UInt8 → UInt8) (needle string : Block) (location length place : ℕ) : Prop :=
  location ≤ place ∧ place + needle.length ≤ location + length ∧ OccursAt fold needle string place

instance (fold : UInt8 → UInt8) (needle string : Block) (location length place : ℕ)
    : Decidable (OccursWithin fold needle string location length place) :=
  inferInstanceAs (Decidable (_ ∧ _ ∧ _))

/-- The search gives the first occurrence in the range, or the last one backwards. -/
def SearchesRight (string needle : Block) (options : SearchOptions) (location length : ℕ) : Prop :=
  ∃ result, indexOfStringInRange string needle options location length = some result
    ∧ if options.backwards then
        IsLast (OccursWithin (options.comparison needle) needle string location length) result
      else IsFirst (OccursWithin (options.comparison needle) needle string location length) result

/-- No exact occurrence begins in the range and ends behind it. -/
def NoneStraddles (needle string : Block) (location length : ℕ) : Prop :=
  ∀ place, location ≤ place → place < location + length → OccursAt id needle string place
    → place + needle.length ≤ location + length

/-- The last occurrence in the range, whatever the case of its letters, is an exact one. -/
def LastIsExact (fold : UInt8 → UInt8) (needle string : Block) (location length : ℕ) : Prop :=
  ∀ place, OccursWithin fold needle string location length place
    → ∃ later, place ≤ later ∧ OccursWithin id needle string location length later

/-- Backwards, the search has the last exact occurrence that begins in the range. -/
theorem indexOf_backwards (needleFree : 0 ∉ needle) {options : SearchOptions} {location length : ℕ}
    (inside : location + length ≤ string.length) (some : 0 < length)
    (backwards : options.backwards = true)
    : ∃ result, indexOfStringInRange string needle options location length = .some result
      ∧ IsLast (fun place => location ≤ place ∧ place < location + length
          ∧ OccursAt id needle string place) result := by
  have start : (string ++ [0]).drop location = string.drop location ++ [0] :=
    List.drop_append_of_le_length (by omega)
  have last := @strrnstr_isLast (string.drop location) needle needleFree length
    (by rw [List.length_drop]; omega)
  refine ⟨(strrnstr (string.drop location ++ [0]) needle length).map (location + ·), ?_, ?_⟩
  · rw [indexOfStringInRange, if_pos ⟨by omega, inside⟩, if_neg (by omega)]
    simp only [backwards, strrncasestr, ite_self, start, cstring_of_zero_notMem needleFree, if_true]
    cases found : strrnstr (string.drop location ++ [0]) needle length with
    | none => rfl
    | some offset =>
        rw [found] at last
        have below : offset < length := last.1.1
        simp [show ¬length < offset by omega]
  · refine isLast_add (fun place found => found.1) ?_
    have same (place : ℕ)
        : (location ≤ location + place ∧ location + place < location + length
            ∧ OccursAt id needle string (location + place))
          ↔ (place < length ∧ OccursAt id needle (string.drop location) place) := by
      rw [occursAt_drop]
      constructor
      · rintro ⟨-, below, occurs⟩
        exact ⟨by omega, occurs⟩
      · rintro ⟨below, occurs⟩
        exact ⟨by omega, by omega, occurs⟩
    simpa only [same] using last

/-- Forwards, the search has the first occurrence in the range. -/
theorem indexOf_forwards (zeroFree : 0 ∉ string) (needleFree : 0 ∉ needle) (nonempty : needle ≠ [])
    {options : SearchOptions} {location length : ℕ} (inside : location + length ≤ string.length)
    (some : 0 < length) (forwards : options.backwards = false)
    : ∃ result, indexOfStringInRange string needle options location length = .some result
      ∧ IsFirst (OccursWithin (options.comparison needle) needle string location length) result := by
  obtain ⟨c, find, rfl⟩ := List.exists_cons_of_ne_nil nonempty
  have start : (string ++ [0]).drop location = string.drop location ++ [0] :=
    List.drop_append_of_le_length (by omega)
  have tells : TellsZero (options.comparison (c :: find)) := by
    rw [SearchOptions.comparison]
    split
    · exact tellsZero_toLower
    · exact tellsZero_id
  have restFree : 0 ∉ string.drop location := fun mem => zeroFree (List.mem_of_mem_drop mem)
  have findFree : 0 ∉ find := fun mem => needleFree (List.mem_cons_of_mem c mem)
  have first := strnstrFrom_isFirst tells restFree (c := c) findFree length
  refine ⟨(strnstrFrom (options.comparison (c :: find)) c find
    (string.drop location ++ [0]) length).map (location + ·), ?_, ?_⟩
  · rw [indexOfStringInRange, if_pos ⟨by omega, inside⟩, if_neg (by omega)]
    have routine
        : (if options.insensitive (c :: find) = true
            then strncasestr (string.drop location ++ [0]) (c :: find) length
            else strnstr (string.drop location ++ [0]) (c :: find) length)
          = strnstrFrom (options.comparison (c :: find)) c find (string.drop location ++ [0]) length := by
      rw [SearchOptions.comparison]
      split <;> rfl
    simp only [forwards, start, cstring_of_zero_notMem needleFree, Bool.false_eq_true, if_false,
      routine]
    cases found : strnstrFrom (options.comparison (c :: find)) c find
        (string.drop location ++ [0]) length with
    | none => rfl
    | some offset =>
        rw [found] at first
        have below := first.1.1
        simp [show ¬length < offset by omega]
  · refine isFirst_add (fun place found => found.1) (first.congr fun place => ?_)
    rw [occursAt_drop, OccursWithin, List.length_cons]
    constructor
    · rintro ⟨fits, occurs⟩
      exact ⟨by omega, by omega, occurs⟩
    · rintro ⟨-, fits, occurs⟩
      exact ⟨by omega, occurs⟩

/-- Forwards the search is always right. Backwards it is right just when no exact occurrence begins
in the range and ends behind it and, if the case of letters is ignored, the last occurrence in the
range is an exact one.
-/
theorem searchesRight_iff (zeroFree : 0 ∉ string) (needleFree : 0 ∉ needle)
    (nonempty : needle ≠ []) (options : SearchOptions) {location length : ℕ}
    (inside : location + length ≤ string.length) (some : 0 < length)
    : SearchesRight string needle options location length
      ↔ (options.backwards = true → NoneStraddles needle string location length
        ∧ (options.insensitive needle = true
          → LastIsExact toLower needle string location length)) := by
  cases backwards : options.backwards with
  | false =>
      obtain ⟨result, found, first⟩ :=
        indexOf_forwards zeroFree needleFree nonempty inside some backwards
      simp only [Bool.false_eq_true, false_implies, iff_true]
      exact ⟨result, found, by simpa [backwards] using first⟩
  | true =>
      obtain ⟨result, found, last⟩ := indexOf_backwards needleFree inside some backwards
      have right : SearchesRight string needle options location length
          ↔ IsLast (OccursWithin (options.comparison needle) needle string location length) result := by
        simp [SearchesRight, found, backwards]
      rw [right, forall_prop_of_true rfl]
      by_cases straddle : NoneStraddles needle string location length
      · have exactly (place : ℕ)
            : (location ≤ place ∧ place < location + length ∧ OccursAt id needle string place)
              ↔ OccursWithin id needle string location length place := by
          have long := List.length_pos_of_ne_nil nonempty
          constructor
          · rintro ⟨behind, below, occurs⟩
            exact ⟨behind, straddle place behind below occurs, occurs⟩
          · rintro ⟨behind, fits, occurs⟩
            exact ⟨behind, by omega, occurs⟩
        simp only [exactly] at last
        rw [isLast_of_weaker_iff last fun place found => ⟨found.1, found.2.1, found.2.2.coarsen⟩]
        rw [SearchOptions.comparison]
        cases insensitive : options.insensitive needle with
        | true => simp [straddle, LastIsExact]
        | false => simpa [straddle] using fun place found => ⟨place, le_rfl, found⟩
      · simp only [straddle, false_and, iff_false]
        intro greatest
        apply straddle
        intro place behind below occurs
        cases result with
        | none => exact absurd ⟨behind, below, occurs⟩ (last place)
        | some index =>
            have later : place ≤ index := last.2 ⟨behind, below, occurs⟩
            have fits := greatest.1.2.1
            omega

/-- Backwards and with the case of letters ignored, the last `b` of `aBcb` is found. -/
theorem searchesRight_iff_lowerCase
    : SearchesRight [97, 66, 99, 98] [98] ⟨true, true, false⟩ 1 3 := by
  refine (searchesRight_iff (by decide) (by decide) (by decide) _ (by decide) (by decide)).mpr ?_
  refine fun _ => ⟨fun place behind below _ => by simp; omega, fun _ => ?_⟩
  intro place found
  have fits : place + 1 ≤ 1 + 3 := found.2.1
  exact ⟨3, by omega, by decide⟩

/-- In `xab`, the text `ab` is found backwards in the range of the first two bytes, which it leaves.
In `aB`, the text `b` is not found backwards when the case of letters is ignored.
-/
theorem not_searchesRight_straddling
    : ¬SearchesRight [120, 97, 98] [97, 98] ⟨true, false, false⟩ 0 2
      ∧ ¬SearchesRight [97, 66] [98] ⟨true, true, false⟩ 0 2 := by
  constructor
  · rintro ⟨result, found, right⟩
    obtain rfl : some 1 = result := Option.some.inj (Eq.trans (by decide) found)
    exact absurd right.1.2.1 (by decide)
  · rintro ⟨result, found, right⟩
    obtain rfl : none = result := Option.some.inj (Eq.trans (by decide) found)
    exact right 1 (by decide)

end WiredServer.Data
