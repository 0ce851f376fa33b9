import WiredServer.Lib.KeyedTable

/-! Sequences of changes of the keys of a table: where they take a key, the table that they leave, and
when all of them succeed.
-/

section Follow

variable {Key : Type} [DecidableEq Key]

/-- Where changes of keys, one after another, take a key. -/
def followChanges : List (Key × Key) → Key → Key
  | [], key => key
  | (old, new) :: changes, key => followChanges changes (if key = old then new else key)

/-- Changes of other keys leave a key. -/
theorem followChanges_of_notMem {changes : List (Key × Key)} {key : Key}
    (other : ∀ change ∈ changes, change.1 ≠ key)
    : followChanges changes key = key := by
  induction changes with
  | nil => rfl
  | cons change changes ih =>
      rw [followChanges, if_neg (other change List.mem_cons_self).symm]
      exact ih fun change mem => other change (List.mem_cons_of_mem _ mem)

/-- A key that is changed once ends at its new value. -/
theorem followChanges_of_once {earlier later : List (Key × Key)} {old new : Key}
    (first : ∀ change ∈ earlier, change.1 ≠ old) (last : ∀ change ∈ later, change.1 ≠ new)
    : followChanges (earlier ++ (old, new) :: later) old = new := by
  induction earlier with
  | nil =>
      rw [List.nil_append, followChanges, if_pos rfl]
      exact followChanges_of_notMem last
  | cons change changes ih =>
      rw [List.cons_append, followChanges, if_neg (first change List.mem_cons_self).symm]
      exact ih fun change mem => first change (List.mem_cons_of_mem _ mem)

end Follow

namespace KeyedTable

variable {Key Row : Type}

/-- Whether the rows of a table are those of another, with the keys that a function gives them. -/
structure IsRelabelled (label : Key → Key) (before after : KeyedTable Key Row) : Prop where
  injective : Set.InjOn label {key | (before.row key).isSome = true}
  row_iff : ∀ key row, after.row key = some row
    ↔ ∃ old, before.row old = some row ∧ label old = key

namespace IsRelabelled

variable {label other : Key → Key} {before middle after : KeyedTable Key Row}

/-- A row is found under its new key. -/
theorem row_label (relabelled : IsRelabelled label before after) {key : Key}
    (here : (before.row key).isSome = true)
    : after.row (label key) = before.row key := by
  obtain ⟨row, found⟩ := Option.isSome_iff_exists.mp here
  rw [found]
  exact (relabelled.row_iff _ _).mpr ⟨key, found, rfl⟩

/-- Only the labels of keys matter. -/
theorem congr (relabelled : IsRelabelled label before after)
    (same : ∀ key, (before.row key).isSome = true → label key = other key)
    : IsRelabelled other before after where
  injective := relabelled.injective.congr fun key here => same key here
  row_iff key row := by
    rw [relabelled.row_iff]
    refine exists_congr fun old => and_congr_right fun found => ?_
    rw [same old (Option.isSome_of_eq_some found)]

/-- A table has its own labels. -/
theorem refl (table : KeyedTable Key Row)
    : IsRelabelled id table table where
  injective := Set.injOn_id _
  row_iff key row := by simp

/-- Labels of labels. -/
theorem trans (first : IsRelabelled label before middle)
    (second : IsRelabelled other middle after)
    : IsRelabelled (other ∘ label) before after where
  injective := second.injective.comp first.injective fun key here => by
    rw [Set.mem_ofPred_eq, first.row_label here]
    exact here
  row_iff key row := by
    rw [second.row_iff]
    constructor
    · rintro ⟨source, found, rfl⟩
      obtain ⟨old, there, rfl⟩ := (first.row_iff _ _).mp found
      exact ⟨old, there, rfl⟩
    · rintro ⟨old, found, rfl⟩
      exact ⟨label old, (first.row_iff _ _).mpr ⟨old, found, rfl⟩, rfl⟩

end IsRelabelled

section Changes

variable [DecidableEq Key] {table next : KeyedTable Key Row} {old new key : Key}

/-- An `UPDATE` of a key to itself changes nothing. -/
theorem rekey_self (table : KeyedTable Key Row) (key : Key)
    : table.rekey key key = some table := by
  cases here : table.row key with
  | none => exact table.rekey_of_none here
  | some row =>
      rw [rekey, here]
      simp only [ne_eq, not_true_eq_false, decide_false, Bool.false_and, Bool.false_eq_true,
        if_false, Option.some.injEq]
      ext1 other
      rw [row_put, row_delete]
      split_ifs with same
      · rw [same, here]
      · rfl

/-- What an `UPDATE` of a key that succeeds finds and leaves. -/
theorem rekey_eq_some_cases (changed : table.rekey old new = some next)
    : table.row old = none ∧ next = table
      ∨ old = new ∧ next = table
      ∨ ∃ row, table.row old = some row ∧ old ≠ new ∧ table.row new = none
        ∧ next = (table.delete old).put new row := by
  cases here : table.row old with
  | none =>
      rw [table.rekey_of_none here] at changed
      exact .inl ⟨rfl, (Option.some.inj changed).symm⟩
  | some row =>
      by_cases same : old = new
      · rw [same, table.rekey_self] at changed
        exact .inr (.inl ⟨same, (Option.some.inj changed).symm⟩)
      · cases free : table.row new with
        | none =>
            rw [table.rekey_of_free here free] at changed
            exact .inr (.inr ⟨row, rfl, same, rfl, (Option.some.inj changed).symm⟩)
        | some _ =>
            have fails : table.rekey old new = none :=
              table.rekey_eq_none_iff.mpr ⟨by rw [here]; rfl, Ne.symm same, by rw [free]; rfl⟩
            rw [fails] at changed
            cases changed

/-- An `UPDATE` of a key gives the row a label. -/
theorem isRelabelled_of_rekey (changed : table.rekey old new = some next)
    : IsRelabelled (fun key => if key = old then new else key) table next := by
  obtain ⟨absent, rfl⟩ | ⟨rfl, rfl⟩ | ⟨row, here, differ, free, rfl⟩ := rekey_eq_some_cases changed
  · refine (IsRelabelled.refl next).congr fun key here => (if_neg ?_).symm
    rintro rfl
    simp [absent] at here
  · refine (IsRelabelled.refl next).congr fun key _ => ?_
    split_ifs with same
    · exact same
    · rfl
  · constructor
    · intro key here other there same
      simp only [Set.mem_ofPred_eq] at here there
      grind
    · intro key found
      rw [row_put, row_delete]
      constructor
      · intro same
        split_ifs at same with first second
        · exact ⟨old, same ▸ here, by simp [first]⟩
        · exact ⟨key, same, if_neg second⟩
      · rintro ⟨source, there, rfl⟩
        by_cases first : source = old
        · rw [if_pos first, if_pos rfl, ← there, first, here]
        · rw [if_neg first, if_neg first, if_neg, there]
          rintro rfl
          rw [free] at there
          cases there

/-- Keys are changed one after another, until a change fails. -/
def rekeyAll
    : List (Key × Key) → KeyedTable Key Row → Option (KeyedTable Key Row)
  | [], start => some start
  | (old, new) :: changes, start => (start.rekey old new).bind (rekeyAll changes)

/-- Changes that all succeed take each row where they take its key. -/
theorem isRelabelled_of_rekeyAll {changes : List (Key × Key)}
    (changed : rekeyAll changes table = some next)
    : IsRelabelled (followChanges changes) table next := by
  induction changes generalizing table with
  | nil =>
      cases changed
      exact .refl _
  | cons change changes ih =>
      obtain ⟨middle, first, rest⟩ := Option.bind_eq_some_iff.mp changed
      exact (isRelabelled_of_rekey first).trans (ih rest)

/-- A row that is there stays where it is if its key is not changed. -/
theorem row_rekey_of_ne (changed : table.rekey old new = some next)
    (here : (table.row key).isSome = true) (other : key ≠ old)
    : next.row key = table.row key := by
  have same := (isRelabelled_of_rekey changed).row_label here
  rwa [if_neg other] at same

/-- A key without a row gets none if no key is changed to it. -/
theorem row_rekey_eq_none (changed : table.rekey old new = some next)
    (absent : table.row key = none) (other : key ≠ new)
    : next.row key = none := by
  by_contra present
  obtain ⟨row, found⟩ := Option.ne_none_iff_exists'.mp present
  obtain ⟨source, there, same⟩ := ((isRelabelled_of_rekey changed).row_iff key row).mp found
  split_ifs at same with first
  · exact other same.symm
  · rw [same, absent] at there
    cases there

/-- No row is left under a key that was changed. -/
theorem row_rekey_old (changed : table.rekey old new = some next) (differ : old ≠ new)
    : next.row old = none := by
  by_contra present
  obtain ⟨row, found⟩ := Option.ne_none_iff_exists'.mp present
  obtain ⟨source, there, same⟩ := ((isRelabelled_of_rekey changed).row_iff old row).mp found
  split_ifs at same with first
  · exact differ same.symm
  · exact first same

/-- A row stays where it is if its key is never changed. -/
theorem row_rekeyAll_of_notMem {changes : List (Key × Key)}
    (changed : rekeyAll changes table = some next) (here : (table.row key).isSome = true)
    (other : ∀ change ∈ changes, change.1 ≠ key)
    : next.row key = table.row key := by
  have same := (isRelabelled_of_rekeyAll changed).row_label here
  rwa [followChanges_of_notMem other] at same

/-- A key without a row gets none if no key is ever changed to it. -/
theorem row_rekeyAll_eq_none {changes : List (Key × Key)}
    (changed : rekeyAll changes table = some next) (absent : table.row key = none)
    (other : ∀ change ∈ changes, change.2 ≠ key)
    : next.row key = none := by
  induction changes generalizing table with
  | nil =>
      cases changed
      exact absent
  | cons change changes ih =>
      obtain ⟨middle, first, rest⟩ := Option.bind_eq_some_iff.mp changed
      refine ih rest (row_rekey_eq_none first absent (other change List.mem_cons_self).symm) ?_
      exact fun change mem => other change (List.mem_cons_of_mem _ mem)

/-- Changes in two parts. -/
theorem rekeyAll_append {earlier later : List (Key × Key)}
    : rekeyAll (earlier ++ later) table = (rekeyAll earlier table).bind (rekeyAll later) := by
  induction earlier generalizing table with
  | nil => rfl
  | cons change changes ih =>
      rw [List.cons_append, rekeyAll, rekeyAll, Option.bind_assoc]
      exact Option.bind_congr fun middle _ => ih

/-- No row is left under a key that was changed and to which no key is changed later. -/
theorem row_rekeyAll_changed {earlier later : List (Key × Key)}
    (changed : rekeyAll (earlier ++ (old, new) :: later) table = some next) (differ : old ≠ new)
    (other : ∀ change ∈ later, change.2 ≠ old)
    : next.row old = none := by
  rw [rekeyAll_append] at changed
  obtain ⟨middle, -, rest⟩ := Option.bind_eq_some_iff.mp changed
  obtain ⟨last, moved, rest⟩ := Option.bind_eq_some_iff.mp rest
  exact row_rekeyAll_eq_none rest (row_rekey_old moved differ) other

/-- When a change succeeds, it has found no other row under the new key. -/
theorem row_rekeyAll_free {earlier later : List (Key × Key)}
    (changed : rekeyAll (earlier ++ (old, new) :: later) table = some next) (differ : old ≠ new)
    (here : (table.row old).isSome = true) (taken : (table.row new).isSome = true)
    (other : ∀ change ∈ earlier, change.1 ≠ old)
    : new ∈ earlier.map Prod.fst := by
  rw [rekeyAll_append] at changed
  obtain ⟨middle, first, rest⟩ := Option.bind_eq_some_iff.mp changed
  obtain ⟨last, moved, -⟩ := Option.bind_eq_some_iff.mp rest
  by_contra kept
  have fails : middle.rekey old new = none := by
    refine middle.rekey_eq_none_iff.mpr ⟨?_, differ.symm, ?_⟩
    · rwa [row_rekeyAll_of_notMem first here other]
    · rw [row_rekeyAll_of_notMem first taken]
      · exact taken
      · rintro change mem rfl
        exact kept (List.mem_map.mpr ⟨change, mem, rfl⟩)
  rw [fails] at moved
  cases moved

/-- A change of the key of a row takes the weight of the old key and gives that of the new one. -/
theorem sum_keys_rekey (weight : Key → ℕ) (changed : table.rekey old new = some next)
    (here : (table.row old).isSome = true)
    : ∑ key ∈ next.keys, weight key + weight old = ∑ key ∈ table.keys, weight key + weight new := by
  obtain ⟨absent, -⟩ | ⟨rfl, rfl⟩ | ⟨row, -, differ, free, rfl⟩ := rekey_eq_some_cases changed
  · rw [absent] at here
    cases here
  · rfl
  · have erased := Finset.add_sum_erase _ weight ((table.mem_keys old).mpr here)
    have absent : new ∉ table.keys.erase old := fun mem => by
      have taken := (table.mem_keys new).mp (Finset.mem_of_mem_erase mem)
      rw [free] at taken
      cases taken
    have inserted := Finset.sum_insert (f := weight) absent
    change ∑ key ∈ insert new (table.keys.erase old), weight key + weight old = _
    omega

/-- The keys of the rows do not get lighter if a key is changed to one that is not lighter. -/
theorem sum_keys_rekey_le (weight : Key → ℕ) (changed : table.rekey old new = some next)
    (grows : weight old ≤ weight new)
    : ∑ key ∈ table.keys, weight key ≤ ∑ key ∈ next.keys, weight key := by
  by_cases here : (table.row old).isSome = true
  · have both := sum_keys_rekey weight changed here
    omega
  · rw [table.rekey_of_none (Option.not_isSome_iff_eq_none.mp here)] at changed
    cases changed
    exact le_rfl

/-- All changes succeed if every key is changed once, no two keys are changed to one, and a key that
had a row is itself changed before another key is changed to it.
-/
theorem exists_rekeyAll {changes : List (Key × Key)}
    (once : (changes.map Prod.fst).Nodup) (apart : (changes.map Prod.snd).Nodup)
    (free : ∀ earlier old new later, changes = earlier ++ (old, new) :: later →
      (table.row new).isSome = true → old = new ∨ new ∈ earlier.map Prod.fst)
    : ∃ next, rekeyAll changes table = some next := by
  induction changes generalizing table with
  | nil => exact ⟨table, rfl⟩
  | cons change changes ih =>
      obtain ⟨old, new⟩ := change
      have succeeds : ∃ middle, table.rekey old new = some middle := by
        by_contra fails
        push Not at fails
        obtain ⟨-, differ, taken⟩ :=
          table.rekey_eq_none_iff.mp (Option.eq_none_iff_forall_ne_some.mpr fails)
        rcases free [] old new changes rfl taken with same | mem
        · exact differ same.symm
        · cases mem
      obtain ⟨middle, first⟩ := succeeds
      rw [List.map_cons, List.nodup_cons] at once apart
      have rest : ∃ next, rekeyAll changes middle = some next := by
        refine ih once.2 apart.2 ?_
        rintro earlier source target later rfl taken
        have differ : target ≠ new := by
          rintro rfl
          exact apart.1 (by simp)
        have before : (table.row target).isSome = true := by
          by_contra absent
          rw [Option.not_isSome_iff_eq_none] at absent
          rw [row_rekey_eq_none first absent differ] at taken
          cases taken
        rcases free ((old, new) :: earlier) source target later rfl before with same | mem
        · exact .inl same
        · rcases List.mem_cons.mp mem with same | mem
          · -- the key that was changed first has no row any more
            obtain rfl : target = old := same
            rw [row_rekey_old first differ] at taken
            cases taken
          · exact .inr mem
      obtain ⟨next, rest⟩ := rest
      exact ⟨next, by rw [rekeyAll, first, Option.bind_some, rest]⟩

end Changes

end KeyedTable
