import Mathlib
import WiredServer.Collections.DictionaryRefinement

/-! The equality of dictionaries, whatever histories they have. A key that the second one lacks is taken
for one with null data, so that dictionaries with different keys may be equal.
-/

namespace WiredServer.Collections

open Loop Link PartialMap

variable {κ α : Type} {keys : Setoid (Option κ)}

namespace WiDictionary

/-- `_wi_dictionary_is_equal`, for two dictionaries with the same value callbacks, which compare data in
this way. After a difference there is nothing left to compare.
-/
def isEqual (callbacks : DictionaryCallbacks κ) (valueIsEqual : Option α → Option α → Bool)
    (dictionary1 dictionary2 : WiDictionary κ α)
    : Access Bool := do
  if dictionary1.keyCount ≠ dictionary2.keyCount then .ok false
  else
    each (fun _ => dictionary1) (fun equal entry =>
      if equal then do
        let data ← dictionary2.dataForKey callbacks entry.key
        .ok (valueIsEqual entry.data data)
      else .ok false) true

-----------------------------------------------------------------------------------------
-- Equal maps
-----------------------------------------------------------------------------------------

/-- Two maps have the same keys, with equal data. -/
def SameData (valueIsEqual : Option α → Option α → Bool) (map1 map2 : KeyMap keys α) : Prop :=
  ∀ key, Option.Rel (fun data other => valueIsEqual data other = true) (map1 key) (map2 key)

/-- Two maps have as many keys, and the data of the first are equal to those of the second or, for a key
that the second lacks, to null. There is such a key.
-/
structure NullStandsIn (valueIsEqual : Option α → Option α → Bool) (map1 map2 : KeyMap keys α) : Prop
    where
  count : {key | (map1 key).isSome = true}.ncard = {key | (map2 key).isSome = true}.ncard
  equal : ∀ key data, map1 key = some data → valueIsEqual data (map2 key).join = true
  missing : ∃ key, (map1 key).isSome = true ∧ map2 key = none

section Equality

variable {callbacks callbacks' : DictionaryCallbacks κ}
variable {valueIsEqual : Option α → Option α → Bool}
variable {dictionary1 dictionary2 : WiDictionary κ α} {entries1 entries2 : List (Entry κ α)}
variable {map1 map2 : KeyMap keys α}

/-- The keys of a map are finitely many if a dictionary has them. -/
theorem Describes.finite (describes : Describes callbacks dictionary1 entries1 map1)
    : {key | (map1 key).isSome = true}.Finite := by
  refine ((pairs keys entries1).map Prod.fst).finite_toSet.subset fun key present => ?_
  exact (describes.lists.isSome_iff key).mp present

/-- Dictionaries are equal if they have as many keys and the data of the first are equal to what the second
knows of their keys.
-/
theorem Describes.isEqual (describes1 : Describes callbacks' dictionary1 entries1 map1)
    (describes2 : Describes callbacks dictionary2 entries2 map2) (lawful : callbacks.Lawful keys)
    : ∃ equal, dictionary1.isEqual callbacks valueIsEqual dictionary2 = .ok equal
      ∧ (equal = true
        ↔ {key | (map1 key).isSome = true}.ncard = {key | (map2 key).isSome = true}.ncard
          ∧ ∀ key data, map1 key = some data → valueIsEqual data (map2 key).join = true) := by
  rw [WiDictionary.isEqual, ← describes1.keyCount_eq, ← describes2.keyCount_eq]
  by_cases count : dictionary1.keyCount = dictionary2.keyCount
  · have lookup := describes2.dataForKey lawful
    obtain ⟨⟨chains, holds, -, same⟩, lists⟩ := describes1
    have whole : Lists (pairs keys (chains.flatten.map Prod.snd)) map1 :=
      lists.perm (same.map _).symm
    have tests (entry : Entry κ α)
        : (do
            let data ← dictionary2.dataForKey callbacks entry.key
            .ok (valueIsEqual entry.data data))
          = .ok (valueIsEqual entry.data (map2 ⟦entry.key⟧).join) := by
      simp only [lookup, bind, Except.bind]
    refine ⟨_, by rw [if_neg (not_not.mpr count)]; exact holds.each_all tests, ?_⟩
    rw [and_iff_right count, List.all_eq_true]
    constructor
    · intro each key data here
      obtain ⟨entry, member, found⟩ := List.mem_map.mp ((whole.mem _ _).mp here)
      obtain ⟨link, inChains, rfl⟩ := List.mem_map.mp member
      obtain ⟨rfl, rfl⟩ := Prod.mk.inj found
      exact each link inChains
    · intro each link inChains
      refine each _ _ (some_of_equal whole (List.mem_map.mpr ⟨link, inChains, rfl⟩) (keys.refl _))
  · exact ⟨false, if_pos count, iff_of_false Bool.false_ne_true fun both => count both.1⟩

/-- Maps with the same data have the same keys. -/
theorem SameData.keys_eq (same : SameData valueIsEqual map1 map2)
    : {key | (map1 key).isSome = true} = {key | (map2 key).isSome = true} := by
  ext key
  rw [Set.mem_ofPred_eq, Set.mem_ofPred_eq]
  have related := same key
  generalize map1 key = data at related ⊢
  generalize map2 key = other at related ⊢
  cases related with
  | some => exact Iff.rfl
  | none => exact Iff.rfl

/-- Maps with the same data pass the comparison of the loop. -/
theorem SameData.equal (same : SameData valueIsEqual map1 map2) (key : Quotient keys) (data : Option α)
    (here : map1 key = some data)
    : valueIsEqual data (map2 key).join = true := by
  have related := same key
  rw [here] at related
  generalize map2 key = other at related ⊢
  cases related with
  | some equal => exact equal

/-- Maps that pass the comparison of the loop have the same data if no key is missing. -/
theorem sameData_of_equal (finite2 : {key | (map2 key).isSome = true}.Finite)
    (count : {key | (map1 key).isSome = true}.ncard = {key | (map2 key).isSome = true}.ncard)
    (equal : ∀ key data, map1 key = some data → valueIsEqual data (map2 key).join = true)
    (complete : ∀ key, (map1 key).isSome = true → map2 key ≠ none)
    : SameData valueIsEqual map1 map2 := by
  have part : {key | (map1 key).isSome = true} ⊆ {key | (map2 key).isSome = true} :=
    fun key present => Option.isSome_iff_ne_none.mpr (complete key present)
  have sameKeys := Set.eq_of_subset_of_ncard_le part count.ge finite2
  intro key
  have present : (map1 key).isSome = true ↔ (map2 key).isSome = true := Set.ext_iff.mp sameKeys key
  cases first : map1 key with
  | none =>
      rw [first] at present
      have absent : map2 key = none := by
        by_contra other
        exact Bool.false_ne_true (present.mpr (Option.isSome_iff_ne_none.mpr other))
      rw [absent]
      exact .none
  | some data =>
      obtain ⟨other, second⟩ := Option.ne_none_iff_exists'.mp (complete key (by rw [first]; rfl))
      have equal' := equal key data first
      rw [second] at equal' ⊢
      exact .some equal'

/-- What the loop compares are the same data unless null stands in for a missing key. -/
theorem sameData_iff (finite2 : {key | (map2 key).isSome = true}.Finite)
    : (({key | (map1 key).isSome = true}.ncard = {key | (map2 key).isSome = true}.ncard
          ∧ ∀ key data, map1 key = some data → valueIsEqual data (map2 key).join = true)
        ↔ SameData valueIsEqual map1 map2)
      ↔ ¬NullStandsIn valueIsEqual map1 map2 := by
  constructor
  · rintro exact' ⟨count, equal, key, present, absent⟩
    have same := exact'.mp ⟨count, equal⟩
    have both : (map2 key).isSome = true := Set.ext_iff.mp same.keys_eq key |>.mp present
    rw [absent] at both
    cases both
  · intro complete
    constructor
    · rintro ⟨count, equal⟩
      exact sameData_of_equal finite2 count equal fun key present absent =>
        complete ⟨count, equal, key, present, absent⟩
    · exact fun same => ⟨congrArg Set.ncard same.keys_eq, same.equal⟩

/-- Null stands in for no key if no data is equal to null. -/
theorem not_nullStandsIn (distinct : ∀ key data, map1 key = some data → valueIsEqual data none = false)
    : ¬NullStandsIn valueIsEqual map1 map2 := by
  rintro ⟨-, equal, key, present, absent⟩
  obtain ⟨data, here⟩ := Option.isSome_iff_exists.mp present
  have taken := equal key data here
  rw [absent, Option.join_none, distinct key data here] at taken
  cases taken

end Equality

-----------------------------------------------------------------------------------------
-- Histories
-----------------------------------------------------------------------------------------

namespace DictionaryOperation

section Histories

variable [DecidableEq (Quotient keys)] {callbacks : ℕ → DictionaryCallbacks κ}
variable {dictionaries : ℕ → WiDictionary κ α} {maps : ℕ → KeyMap keys α} {target : ℕ}

omit [DecidableEq (Quotient keys)] in
/-- The dictionaries contain entries of the maps. -/
def Describe (callbacks : ℕ → DictionaryCallbacks κ) (dictionaries : ℕ → WiDictionary κ α)
    (maps : ℕ → KeyMap keys α) : Prop :=
  ∀ i, ∃ entries, Describes (callbacks i) (dictionaries i) entries (maps i)

/-- An operation that leaves a dictionary is possible on the map. -/
theorem onMap_of_onDictionary {operation : DictionaryOperation κ α} {next : WiDictionary κ α}
    (ran : operation.onDictionary (callbacks target) dictionaries target = .ok (some next))
    : ∃ map', operation.onMap (callbacks target) maps target = some map' := by
  cases operation with
  | init capacity => exact ⟨_, rfl⟩
  | set data key =>
      simp only [onDictionary, mutableSetDataForKey] at ran
      refine ⟨_, if_neg fun refused => ?_⟩
      rcases Bool.or_eq_true_iff.mp refused with noData | noKey
      · rw [if_pos noData] at ran
        cases ran
      · rw [if_pos noKey] at ran
        split at ran <;> cases ran
  | remove key =>
      simp only [onDictionary, mutableRemoveDataForKey] at ran
      refine ⟨_, if_neg fun refused => ?_⟩
      rw [if_pos refused] at ran
      cases ran
  | removeAll => exact ⟨_, rfl⟩
  | addEntries source => exact ⟨_, rfl⟩

/-- A possible operation on a map is possible on the dictionary, which contains the entries of the map
then.
-/
theorem stepDictionaries_of_stepMaps (lawful : ∀ i, (callbacks i).Lawful keys)
    {operation : ℕ × DictionaryOperation κ α} {next' : ℕ → KeyMap keys α}
    (describe : Describe callbacks dictionaries maps)
    (stepped : stepMaps callbacks operation maps = some next')
    : ∃ next, stepDictionaries callbacks operation dictionaries = some next
      ∧ Describe callbacks next next' := by
  choose entries describes using describe
  obtain ⟨map', possible, rfl⟩ := Option.map_eq_some_iff.mp stepped
  obtain ⟨next, entries', ran, described, -, -⟩ := onDictionary_spec lawful describes possible
  refine ⟨Function.update dictionaries operation.1 next, ?_, fun i => ?_⟩
  · simp only [stepDictionaries, ran]
  · by_cases same : i = operation.1
    · subst same
      simpa using ⟨entries', described⟩
    · simpa [Function.update_of_ne same] using ⟨entries i, describes i⟩

/-- A possible operation on a dictionary is possible on the map. -/
theorem stepMaps_of_stepDictionaries (lawful : ∀ i, (callbacks i).Lawful keys)
    {operation : ℕ × DictionaryOperation κ α} {next : ℕ → WiDictionary κ α}
    (describe : Describe callbacks dictionaries maps)
    (stepped : stepDictionaries callbacks operation dictionaries = some next)
    : ∃ next', stepMaps callbacks operation maps = some next' ∧ Describe callbacks next next' := by
  have taken := stepped
  rw [stepDictionaries] at taken
  split at taken
  · rename_i after applied
    obtain ⟨map', possible⟩ := @onMap_of_onDictionary _ _ _ _ _ _ maps _ _ _ applied
    have stepped' : stepMaps callbacks operation maps
        = some (Function.update maps operation.1 map') := by rw [stepMaps, possible, Option.map_some]
    obtain ⟨other, stepped'', describe'⟩ := stepDictionaries_of_stepMaps lawful describe stepped'
    cases stepped.symm.trans stepped''
    exact ⟨_, stepped', describe'⟩
  · cases taken

omit [DecidableEq (Quotient keys)] in
/-- New dictionaries contain the entries of maps without keys. -/
theorem describe_init (capacities : ℕ → ℕ)
    : Describe callbacks (fun i => initWithCapacity (capacities i))
      (fun _ _ => none : ℕ → KeyMap keys α) :=
  fun _ => ⟨[], describes_init _⟩

/-- Every run of the maps is possible on the dictionaries. -/
theorem exists_run_of_maps (lawful : ∀ i, (callbacks i).Lawful keys) (capacities : ℕ → ℕ)
    {operations : List (ℕ × DictionaryOperation κ α)}
    (ran : Machine.run (stepMaps callbacks) operations (fun _ _ => none) = some maps)
    : ∃ dictionaries, Machine.run (stepDictionaries callbacks) operations
        (fun i => initWithCapacity (capacities i)) = some dictionaries
      ∧ Describe callbacks dictionaries maps := by
  refine @Machine.exists_run_of_simulation _ _ _ _ _ (fun maps dictionaries =>
    Describe callbacks dictionaries maps) ?_ _ _ _ _ (describe_init capacities) ran
  exact fun operation maps dictionaries next describe => stepDictionaries_of_stepMaps lawful describe

/-- After every history two dictionaries are equal if and only if they have the same keys and equal data,
exactly when the first does not count as many keys as the second while null stands in for a key that
the second lacks.
-/
theorem isEqual_iff (callbacks : ℕ → DictionaryCallbacks κ)
    (lawful : ∀ i, (callbacks i).Lawful keys) (valueIsEqual : Option α → Option α → Bool)
    (capacities : ℕ → ℕ) (operations : List (ℕ × DictionaryOperation κ α))
    (dictionaries : ℕ → WiDictionary κ α)
    (ran : Machine.run (stepDictionaries callbacks) operations
      (fun i => initWithCapacity (capacities i)) = some dictionaries)
    : ∃ maps : ℕ → KeyMap keys α,
      Machine.run (stepMaps callbacks) operations (fun _ _ => none) = some maps
      ∧ ∀ i j, ∃ equal,
        (dictionaries i).isEqual (callbacks j) valueIsEqual (dictionaries j) = .ok equal
        ∧ ((equal = true ↔ SameData valueIsEqual (maps i) (maps j))
          ↔ ¬NullStandsIn valueIsEqual (maps i) (maps j)) := by
  obtain ⟨maps, ran', describe⟩ := Machine.exists_run_of_simulation
    (fun operation dictionaries maps next describe =>
      stepMaps_of_stepDictionaries lawful describe) (describe_init capacities) ran
  refine ⟨maps, ran', fun i j => ?_⟩
  obtain ⟨entries1, describes1⟩ := describe i
  obtain ⟨entries2, describes2⟩ := describe j
  obtain ⟨equal, compared, same⟩ := describes1.isEqual describes2 (lawful j)
  refine ⟨equal, compared, ?_⟩
  rw [same]
  exact sameData_iff describes2.finite

end Histories

/-- A map of one key has one key. -/
theorem ncard_update [DecidableEq (Quotient keys)] (key : Quotient keys) (data : Option α)
    : {other | (Function.update (fun _ => none : KeyMap keys α) key (some data) other).isSome
        = true}.ncard = 1 := by
  rw [Set.ncard_eq_one]
  refine ⟨key, Set.ext fun other => ?_⟩
  rw [Set.mem_ofPred_eq, Set.mem_singleton_iff, Function.update_apply]
  split <;> simp [*]

/-- Plain numbers, of which null is 0, are compared as they are. -/
def plainValues (data other : Option ℕ) : Bool :=
  decide (data = other)

/-- A map has the same data as itself. -/
theorem sameData_plainValues (map : KeyMap numberKeys ℕ)
    : SameData plainValues map map := by
  intro key
  cases map key with
  | none => exact .none
  | some data => exact .some (decide_eq_true rfl)

/-- Two dictionaries with the same data that were filled in another order and resized. -/
def sameFillings : List (ℕ × DictionaryOperation ℕ ℕ) :=
  [(0, .set (some 1) (some 5)), (0, .set none (some 7)), (1, .init 100), (1, .set none (some 7)),
    (1, .set (some 2) (some 5)), (1, .set (some 1) (some 5))]

theorem isEqual_iff_sameFillings
    : ∃ dictionaries : ℕ → WiDictionary ℕ ℕ,
      Machine.run (stepDictionaries fun _ => colliding) sameFillings (fun _ => initWithCapacity 0)
        = some dictionaries
      ∧ (dictionaries 0).isEqual colliding plainValues (dictionaries 1) = .ok true := by
  obtain ⟨dictionaries, ran, -⟩ := exists_run_of_maps (fun _ => colliding_lawful) (fun _ => 0)
    (show Machine.run (stepMaps fun _ => colliding) sameFillings (fun _ _ => none)
      = some (_ : ℕ → KeyMap numberKeys ℕ) from rfl)
  obtain ⟨maps, ran', each⟩ := @isEqual_iff _ _ numberKeys _ (fun _ => colliding)
    (fun _ => colliding_lawful) plainValues (fun _ => 0) sameFillings dictionaries ran
  have sameMaps : maps 0 = maps 1 := by
    have different : (⟦some 5⟧ : Quotient numberKeys) ≠ ⟦some 7⟧ := fun equal =>
      absurd (Quotient.exact equal) (show ¬(some 5 = some 7) by decide)
    have first : maps 0 = Function.update (Function.update (fun _ => none) ⟦some 5⟧ (some (some 1)))
        ⟦some 7⟧ (some none) := by
      obtain rfl := Option.some.inj ran'
      rfl
    have second : maps 1 = Function.update (Function.update (Function.update (fun _ => none)
        ⟦some 7⟧ (some none)) ⟦some 5⟧ (some (some 2))) ⟦some 5⟧ (some (some 1)) := by
      obtain rfl := Option.some.inj ran'
      rfl
    rw [first, second, Function.update_idem, Function.update_comm different]
  have same : SameData plainValues (maps 0) (maps 1) := sameMaps ▸ sameData_plainValues _
  have complete : ¬NullStandsIn plainValues (maps 0) (maps 1) := by
    rintro ⟨-, -, key, present, absent⟩
    rw [sameMaps, absent] at present
    cases present
  obtain ⟨equal, compared, exact'⟩ := each 0 1
  obtain rfl := (exact'.mpr complete).mpr same
  exact ⟨dictionaries, ran, compared⟩

/-- The keys 1 and 2, each with the plain value 0, in two dictionaries. -/
def zeroFillings : List (ℕ × DictionaryOperation ℕ ℕ) :=
  [(0, .set none (some 1)), (1, .set none (some 2))]

theorem not_isEqual_iff_zeroFillings
    : ∃ (dictionaries : ℕ → WiDictionary ℕ ℕ) (maps : ℕ → KeyMap numberKeys ℕ),
      Machine.run (stepDictionaries fun _ => colliding) zeroFillings (fun _ => initWithCapacity 0)
        = some dictionaries
      ∧ Machine.run (stepMaps fun _ => colliding) zeroFillings (fun _ _ => none) = some maps
      ∧ (dictionaries 0).isEqual colliding plainValues (dictionaries 1) = .ok true
      ∧ ¬SameData plainValues (maps 0) (maps 1) := by
  obtain ⟨maps, ran'⟩ : ∃ maps : ℕ → KeyMap numberKeys ℕ,
      Machine.run (stepMaps fun _ => colliding) zeroFillings (fun _ _ => none) = some maps :=
    ⟨_, rfl⟩
  obtain ⟨dictionaries, ran, describe⟩ :=
    exists_run_of_maps (fun _ => colliding_lawful) (fun _ => 0) ran'
  obtain ⟨entries1, describes1⟩ := describe 0
  obtain ⟨entries2, describes2⟩ := describe 1
  have first : maps 0 = Function.update (fun _ => none) ⟦some 1⟧ (some none) := by
    obtain rfl := Option.some.inj ran'
    rfl
  have second : maps 1 = Function.update (fun _ => none) ⟦some 2⟧ (some none) := by
    obtain rfl := Option.some.inj ran'
    rfl
  obtain ⟨equal, compared, same⟩ :=
    @Describes.isEqual _ _ _ _ _ plainValues _ _ _ _ _ _ describes1 describes2 colliding_lawful
  have different : (⟦some 1⟧ : Quotient numberKeys) ≠ ⟦some 2⟧ := fun equal =>
    absurd (Quotient.exact equal) (show ¬(some 1 = some 2) by decide)
  refine ⟨dictionaries, maps, ran, ran', ?_, fun sameData => ?_⟩
  · rw [compared, same.mpr ⟨?_, fun key data here => ?_⟩]
    · rw [first, second, ncard_update, ncard_update]
    · rw [first, Function.update_apply] at here
      split at here
      · rename_i one
        cases here
        rw [one, second, Function.update_of_ne different]
        rfl
      · cases here
  · have one := sameData ⟦some 1⟧
    rw [first, second, Function.update_self, Function.update_of_ne different] at one
    cases one

end DictionaryOperation

end WiDictionary

end WiredServer.Collections
