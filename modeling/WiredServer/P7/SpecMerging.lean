import WiredServer.P7.SpecObjects

/-! What merging a specification does, field by field. It is determined by the two tables of fields under
their ids: a field that both have gets the enumeration of the other one, and every other field is
entered as it is. No other object is written.
-/

namespace WiredServer.P7

open AssociationLists

-----------------------------------------------------------------------------------------
-- Enumerations
-----------------------------------------------------------------------------------------

section Enumerations

variable {field otherField merged : SpecField}

/-- A merge keeps a field, or replaces an enumeration that is not equal to the other one. -/
theorem mergeEnums_cases (ran : field.mergeEnums otherField = some merged)
    : (field.type.id = P7Type.enum.id → otherField.type.id = P7Type.enum.id)
      ∧ (merged = field
          ∧ (field.type.id = P7Type.enum.id →
            enumsAreEqual field.enumsName otherField.enumsName = true)
        ∨ field.type.id = P7Type.enum.id
          ∧ enumsAreEqual field.enumsName otherField.enumsName = false
          ∧ merged = { field with
              enumsName := otherField.enumsName
              enumsValue := otherField.enumsValue }) := by
  unfold SpecField.mergeEnums at ran
  split at ran
  · rename_i isEnum
    split at ran
    · cases ran
    · rename_i otherEnum
      refine ⟨fun _ => not_not.mp otherEnum, ?_⟩
      split at ran
      · rename_i equal
        cases ran
        exact .inl ⟨rfl, fun _ => equal⟩
      · rename_i differ
        cases ran
        exact .inr ⟨isEnum, Bool.eq_false_iff.mpr differ, rfl⟩
  · rename_i noEnum
    cases ran
    exact ⟨fun isEnum => absurd isEnum noEnum, .inl ⟨rfl, fun isEnum => absurd isEnum noEnum⟩⟩

/-- A merge fails only if the first field is an enumeration and the other one is not. -/
theorem exists_mergeEnums_iff
    : (∃ merged, field.mergeEnums otherField = some merged)
      ↔ (field.type.id = P7Type.enum.id → otherField.type.id = P7Type.enum.id) := by
  constructor
  · rintro ⟨merged, ran⟩
    exact (mergeEnums_cases ran).1
  · intro bothEnums
    unfold SpecField.mergeEnums
    split
    · rename_i isEnum
      rw [if_neg (not_not.mpr (bothEnums isEnum))]
      split
      · exact ⟨_, rfl⟩
      · exact ⟨_, rfl⟩
    · exact ⟨_, rfl⟩

/-- A merge keeps the name, the id and the types of a field. -/
theorem mergeEnums_frame (ran : field.mergeEnums otherField = some merged)
    : merged.name = field.name ∧ merged.id = field.id ∧ merged.type = field.type
      ∧ merged.listtype = field.listtype := by
  obtain ⟨-, ⟨rfl, -⟩ | ⟨-, -, rfl⟩⟩ := mergeEnums_cases ran
  · exact ⟨rfl, rfl, rfl, rfl⟩
  · exact ⟨rfl, rfl, rfl, rfl⟩

/-- Tables in which every name has the same value are equal. -/
theorem enumsAreEqual_of_lookup {names others : Dictionary String UInt64}
    (same : ∀ name, names.lookup name = others.lookup name)
    : enumsAreEqual names others = true := by
  rw [enumsAreEqual, Bool.and_eq_true_iff, decide_eq_true_iff, List.all_eq_true]
  refine ⟨length_eq_of_lookup same, fun entry mem => ?_⟩
  have found : names.lookup entry.1 = some entry.2 := AList.mem_lookup_iff.mpr mem
  rw [decide_eq_true_iff, ← same, found, Option.getD_some]

end Enumerations

-----------------------------------------------------------------------------------------
-- Rounds
-----------------------------------------------------------------------------------------

section Rounds

variable {other spec spec' : SpecObject} {store store' : Store} {id : UInt64}

/-- A round merges a field that both have, enters a field of the other one, or does nothing. -/
theorem mergeField_cases (stepped : mergeField other (store, spec) id = some (store', spec'))
    : (∃ ref otherRef merged, spec.fieldsId.lookup id = some ref
        ∧ other.fieldsId.lookup id = some otherRef
        ∧ (store ref).mergeEnums (store otherRef) = some merged
        ∧ store' = Function.update store ref merged ∧ spec' = spec)
      ∨ (∃ otherRef, spec.fieldsId.lookup id = none ∧ other.fieldsId.lookup id = some otherRef
        ∧ store' = store
        ∧ spec' = { spec with
            fieldsId := spec.fieldsId.insert (store otherRef).id otherRef
            fieldsName := spec.fieldsName.insert (store otherRef).name otherRef })
      ∨ (other.fieldsId.lookup id = none ∧ store' = store ∧ spec' = spec) := by
  unfold mergeField at stepped
  dsimp only at stepped
  cases own : spec.fieldsId.lookup id with
  | some ref =>
      cases theirs : other.fieldsId.lookup id with
      | some otherRef =>
          rw [own, theirs] at stepped
          obtain ⟨merged, ran, same⟩ := Option.map_eq_some_iff.mp stepped
          cases same
          exact .inl ⟨ref, otherRef, merged, rfl, rfl, ran, rfl, rfl⟩
      | none =>
          rw [own, theirs] at stepped
          cases stepped
          exact .inr (.inr ⟨rfl, rfl, rfl⟩)
  | none =>
      cases theirs : other.fieldsId.lookup id with
      | some otherRef =>
          rw [own, theirs] at stepped
          cases stepped
          exact .inr (.inl ⟨otherRef, rfl, rfl, rfl, rfl⟩)
      | none =>
          rw [own, theirs] at stepped
          cases stepped
          exact .inr (.inr ⟨rfl, rfl, rfl⟩)

/-- The fields of a specification are objects of one owner, which stand under their ids. -/
structure SpecObject.Owns (spec : SpecObject) (owner : Owner) (store : Store) : Prop where
  ref : ∀ id ref, spec.fieldsId.lookup id = some ref → ref = ⟨owner, id⟩
  numbered : ∀ id ref, spec.fieldsId.lookup id = some ref → (store ref).id = id

/-- What the loop over the fields has done for a list of ids. -/
structure FieldsMerged (other spec : SpecObject) (store : Store) (ids : List UInt64)
    (merged : Store × SpecObject)
    : Prop where
  fieldsId : ∀ id, merged.2.fieldsId.lookup id
    = (spec.fieldsId.lookup id).or (if id ∈ ids then other.fieldsId.lookup id else none)
  shared : ∀ id ∈ ids, ∀ ref otherRef, spec.fieldsId.lookup id = some ref →
    other.fieldsId.lookup id = some otherRef →
    (store ref).mergeEnums (store otherRef) = some (merged.1 ref)
  frame : ∀ ref, (∀ id ∈ ids, spec.fieldsId.lookup id = some ref → other.fieldsId.lookup id = none) →
    merged.1 ref = store ref
  loaded : merged.2.loaded = spec.loaded
  messagesId : merged.2.messagesId = spec.messagesId
  messagesName : merged.2.messagesName = spec.messagesName

/-- What a round does. -/
theorem fieldsMerged_of_mergeField {otherOwner : Owner} (owns : other.Owns otherOwner store)
    {merged : Store × SpecObject} (stepped : mergeField other (store, spec) id = some merged)
    : FieldsMerged other spec store [id] merged := by
  obtain ⟨store', spec'⟩ := merged
  obtain ⟨ref, otherRef, field, here, there, made, rfl, rfl⟩ | ⟨otherRef, absent, there, rfl, rfl⟩
    | ⟨absent, rfl, rfl⟩ := mergeField_cases stepped
  · refine ⟨?_, ?_, ?_, rfl, rfl, rfl⟩
    · intro otherId
      by_cases same : otherId = id
      · subst same
        simp [here]
      · simp [same]
    · intro otherId mem foundRef foundOther found theirs
      obtain rfl := List.mem_singleton.mp mem
      cases here.symm.trans found
      cases there.symm.trans theirs
      exact made.trans (congrArg some (Function.update_self ref field store).symm)
    · intro frameRef outside
      refine Function.update_of_ne ?_ _ _
      rintro rfl
      cases there.symm.trans (outside id (List.mem_singleton_self id) here)
  · refine ⟨?_, ?_, fun _ _ => rfl, rfl, rfl, rfl⟩
    · intro otherId
      rw [owns.numbered id otherRef there]
      by_cases same : otherId = id
      · subst same
        simp [absent, there]
      · simp [same]
    · intro otherId mem foundRef foundOther found
      obtain rfl := List.mem_singleton.mp mem
      cases absent.symm.trans found
  · refine ⟨?_, ?_, fun _ _ => rfl, rfl, rfl, rfl⟩
    · intro otherId
      by_cases same : otherId = id
      · subst same
        simp [absent]
      · simp [same]
    · intro otherId mem foundRef foundOther found theirs
      obtain rfl := List.mem_singleton.mp mem
      cases absent.symm.trans theirs

section Round

variable {owner otherOwner : Owner} {ids : List UInt64} {merged final : Store × SpecObject}
  (apart : owner ≠ otherOwner) (fresh : id ∉ ids)
  (own : ∀ other ∈ id :: ids, ∀ ref, spec.fieldsId.lookup other = some ref → ref = ⟨owner, other⟩)
  (owns : other.Owns otherOwner store) (round : FieldsMerged other spec store [id] merged)

include fresh round in
/-- A round keeps what the table says of the ids to come. -/
theorem FieldsMerged.later_lookup {later : UInt64} (mem : later ∈ ids)
    : merged.2.fieldsId.lookup later = spec.fieldsId.lookup later := by
  have differs : later ∉ [id] := by
    rintro same
    obtain rfl := List.mem_singleton.mp same
    exact fresh mem
  rw [round.fieldsId, if_neg differs, Option.or_none]

include fresh own round in
/-- A round keeps the objects of the ids to come. -/
theorem FieldsMerged.later_own {later : UInt64} (mem : later ∈ ids) {ref : FieldRef}
    (found : spec.fieldsId.lookup later = some ref)
    : merged.1 ref = store ref := by
  refine round.frame ref fun other one here => ?_
  obtain rfl := List.mem_singleton.mp one
  have placed := own later (List.mem_cons_of_mem _ mem) ref found
  rw [own other List.mem_cons_self ref here] at placed
  cases placed
  exact absurd mem fresh

include apart own owns round in
/-- A round keeps the objects of the other specification. -/
theorem FieldsMerged.other_own {later : UInt64} {ref : FieldRef}
    (found : other.fieldsId.lookup later = some ref)
    : merged.1 ref = store ref := by
  refine round.frame ref fun shared one here => ?_
  obtain rfl := List.mem_singleton.mp one
  have placed := owns.ref later ref found
  rw [own shared List.mem_cons_self ref here] at placed
  exact absurd (congrArg FieldRef.owner placed) apart

include apart own owns round in
/-- The other specification owns its objects after a round. -/
theorem FieldsMerged.keeps_owns : other.Owns otherOwner merged.1 where
  ref := owns.ref
  numbered later ref found := by
    rw [round.other_own apart own owns found]
    exact owns.numbered later ref found

include apart fresh own owns round in
/-- What a round and the rounds after it do. -/
theorem FieldsMerged.cons (rest : FieldsMerged other merged.2 merged.1 ids final)
    : FieldsMerged other spec store (id :: ids) final := by
  refine ⟨?_, ?_, ?_, rest.loaded.trans round.loaded, rest.messagesId.trans round.messagesId,
    rest.messagesName.trans round.messagesName⟩
  · intro other'
    rw [rest.fieldsId, round.fieldsId, Option.or_assoc]
    by_cases same : other' = id
    · subst same
      simp [fresh]
    · simp [same]
  · intro other' mem ref otherRef found theirs
    rcases List.mem_cons.mp mem with rfl | mem
    · have made := round.shared other' (List.mem_singleton_self other') ref otherRef found theirs
      rw [rest.frame ref]
      · exact made
      · intro later memLater foundLater
        rw [round.later_lookup fresh memLater] at foundLater
        have placed := own later (List.mem_cons_of_mem _ memLater) ref foundLater
        rw [own other' List.mem_cons_self ref found] at placed
        cases placed
        exact absurd memLater fresh
    · have kept := rest.shared other' mem ref otherRef
        ((round.later_lookup fresh mem).trans found) theirs
      rwa [round.later_own fresh own mem found, round.other_own apart own owns theirs] at kept
  · intro ref outside
    rw [rest.frame ref, round.frame ref]
    · intro other' one
      obtain rfl := List.mem_singleton.mp one
      exact outside other' List.mem_cons_self
    · intro later mem found
      rw [round.later_lookup fresh mem] at found
      exact outside later (List.mem_cons_of_mem _ mem) found

end Round

section Fields

variable {owner otherOwner : Owner} {ids : List UInt64}

/-- What the loop over the fields does, by induction on the ids. -/
theorem fieldsMerged_of_foldlM (apart : owner ≠ otherOwner) (once : ids.Nodup)
    (own : ∀ id ∈ ids, ∀ ref, spec.fieldsId.lookup id = some ref → ref = ⟨owner, id⟩)
    (owns : other.Owns otherOwner store) {merged : Store × SpecObject}
    (ran : ids.foldlM (mergeField other) (store, spec) = some merged)
    : FieldsMerged other spec store ids merged := by
  induction ids generalizing store spec with
  | nil =>
      cases ran
      exact ⟨fun id => by simp, nofun, fun _ _ => rfl, rfl, rfl, rfl⟩
  | cons id ids ih =>
      obtain ⟨fresh, once⟩ := List.nodup_cons.mp once
      rw [List.foldlM_cons] at ran
      obtain ⟨next, stepped, rest⟩ := Option.bind_eq_some_iff.mp ran
      have round := fieldsMerged_of_mergeField owns stepped
      refine round.cons apart fresh own owns (ih once ?_ (round.keeps_owns apart own owns) rest)
      intro later mem ref found
      rw [round.later_lookup fresh mem] at found
      exact own later (List.mem_cons_of_mem _ mem) ref found

/-- The loop over the fields ends the server exactly when a field of the first specification only is an
enumeration, by induction on the ids.
-/
theorem exists_foldlM_mergeField_iff (apart : owner ≠ otherOwner) (once : ids.Nodup)
    (own : ∀ id ∈ ids, ∀ ref, spec.fieldsId.lookup id = some ref → ref = ⟨owner, id⟩)
    (owns : other.Owns otherOwner store)
    : (∃ merged, ids.foldlM (mergeField other) (store, spec) = some merged)
      ↔ ∀ id ∈ ids, ∀ ref otherRef, spec.fieldsId.lookup id = some ref →
        other.fieldsId.lookup id = some otherRef →
        (store ref).type.id = P7Type.enum.id → (store otherRef).type.id = P7Type.enum.id := by
  constructor
  · rintro ⟨merged, ran⟩ id mem ref otherRef found theirs
    exact exists_mergeEnums_iff.mp
      ⟨_, (fieldsMerged_of_foldlM apart once own owns ran).shared id mem ref otherRef found theirs⟩
  · intro bothEnums
    induction ids generalizing store spec with
    | nil => exact ⟨_, rfl⟩
    | cons id ids ih =>
        obtain ⟨fresh, once⟩ := List.nodup_cons.mp once
        obtain ⟨next, stepped⟩ : ∃ next, mergeField other (store, spec) id = some next := by
          simp only [mergeField]
          cases here : spec.fieldsId.lookup id with
          | none =>
              cases there : other.fieldsId.lookup id with
              | none => exact ⟨_, rfl⟩
              | some otherRef => exact ⟨_, rfl⟩
          | some ref =>
              cases there : other.fieldsId.lookup id with
              | none => exact ⟨_, rfl⟩
              | some otherRef =>
                  obtain ⟨merged, made⟩ := exists_mergeEnums_iff.mpr
                    (bothEnums id List.mem_cons_self ref otherRef here there)
                  exact ⟨_, Option.map_eq_some_iff.mpr ⟨merged, made, rfl⟩⟩
        have round := fieldsMerged_of_mergeField owns stepped
        obtain ⟨merged, ran⟩ := @ih next.2 next.1 once
          (fun later mem ref found => by
            rw [round.later_lookup fresh mem] at found
            exact own later (List.mem_cons_of_mem _ mem) ref found)
          (round.keeps_owns apart own owns)
          (fun later mem ref otherRef found theirs => by
            rw [round.later_lookup fresh mem] at found
            rw [round.later_own fresh own mem found, round.other_own apart own owns theirs]
            exact bothEnums later (List.mem_cons_of_mem _ mem) ref otherRef found theirs)
        exact ⟨merged, Option.bind_eq_some_iff.mpr ⟨next, stepped, ran⟩⟩

end Fields

end Rounds

-----------------------------------------------------------------------------------------
-- Messages
-----------------------------------------------------------------------------------------

section Messages

variable {other spec : SpecObject}

/-- What a round for a message does. -/
theorem mergeMessage_frame
    (numbered : ∀ id message, other.messagesId.lookup id = some message → message.id = id)
    (spec : SpecObject) (id : UInt64)
    : (∀ key, (mergeMessage other spec id).messagesId.lookup key
        = (spec.messagesId.lookup key).or (if key = id then other.messagesId.lookup key else none))
      ∧ (mergeMessage other spec id).loaded = spec.loaded
      ∧ (mergeMessage other spec id).fieldsId = spec.fieldsId
      ∧ (mergeMessage other spec id).fieldsName = spec.fieldsName := by
  unfold mergeMessage
  cases here : spec.messagesId.lookup id with
  | some own =>
      refine ⟨fun key => ?_, rfl, rfl, rfl⟩
      by_cases same : key = id
      · subst same
        simp [here]
      · simp [same]
  | none =>
      cases there : other.messagesId.lookup id with
      | none =>
          refine ⟨fun key => ?_, rfl, rfl, rfl⟩
          by_cases same : key = id
          · subst same
            simp [there]
          · simp [same]
      | some message =>
          refine ⟨fun key => ?_, rfl, rfl, rfl⟩
          simp only [numbered id message there]
          by_cases same : key = id
          · subst same
            simp [here, there]
          · simp [same]

/-- What the loop over the messages does, by induction on the ids. -/
theorem foldl_mergeMessage_frame
    (numbered : ∀ id message, other.messagesId.lookup id = some message → message.id = id)
    (ids : List UInt64) (spec : SpecObject)
    : (∀ key, (ids.foldl (mergeMessage other) spec).messagesId.lookup key
        = (spec.messagesId.lookup key).or (if key ∈ ids then other.messagesId.lookup key else none))
      ∧ (ids.foldl (mergeMessage other) spec).loaded = spec.loaded
      ∧ (ids.foldl (mergeMessage other) spec).fieldsId = spec.fieldsId
      ∧ (ids.foldl (mergeMessage other) spec).fieldsName = spec.fieldsName := by
  induction ids generalizing spec with
  | nil => exact ⟨fun key => by simp, rfl, rfl, rfl⟩
  | cons id ids ih =>
      obtain ⟨messages, loaded, fieldsId, fieldsName⟩ := mergeMessage_frame numbered spec id
      obtain ⟨later, laterLoaded, laterId, laterName⟩ := ih (mergeMessage other spec id)
      refine ⟨fun key => ?_, laterLoaded.trans loaded, laterId.trans fieldsId,
        laterName.trans fieldsName⟩
      rw [List.foldl_cons, later, messages, Option.or_assoc]
      by_cases same : key = id
      · subst same
        cases other.messagesId.lookup key with
        | none => simp
        | some message => simp
      · simp [same]

end Messages

-----------------------------------------------------------------------------------------
-- Loaded specifications
-----------------------------------------------------------------------------------------

/-- The tables of a loaded specification agree. -/
theorem Spec.Loaded.tables {spec : Spec} (loaded : spec.Loaded)
    : FieldTablesAgree spec ∧ MessageTablesAgree spec := by
  have known := builtinSpec_consistent.fields
  cases loaded with
  | builtin => exact ⟨known, builtinSpec_consistent.messages⟩
  | document loaded =>
      have consistent := loadSpec_consistent (by rintro _ ⟨⟩; exact known) loaded
      exact ⟨consistent.fields, consistent.messages⟩

/-- The fields and messages of a loaded specification stand under their ids. -/
theorem Spec.Loaded.numbered {spec : Spec} (loaded : spec.Loaded)
    : (∀ id field, spec.fieldsId.lookup id = some field → field.id = id)
      ∧ ∀ id message, spec.messagesId.lookup id = some message → message.id = id :=
  ⟨fun _ _ found => (loaded.tables.1.numbered found).1,
    fun _ _ found => (loaded.tables.2.numbered found).1⟩

section Loaded

variable {spec : Spec} {owner : Owner} {store : Store}

/-- The field objects of a loaded specification, by id. -/
theorem lookup_fieldsId_object (loaded : spec.Loaded) (owner : Owner) (id : UInt64)
    : (spec.object owner).fieldsId.lookup id
      = (spec.fieldsId.lookup id).map fun _ => ⟨owner, id⟩ := by
  rw [Spec.object, lookup_mapValues]
  cases found : spec.fieldsId.lookup id with
  | none => rfl
  | some field => rw [Option.map_some, Option.map_some, loaded.numbered.1 id field found]

/-- The field objects of a loaded specification after loading it. -/
theorem load_self {id : UInt64} {field : SpecField} (found : spec.fieldsId.lookup id = some field)
    : store.load owner spec ⟨owner, id⟩ = field := by
  simp [Store.load, found]

/-- Loading makes no other objects. -/
theorem load_of_ne {ref : FieldRef} (differs : ref.owner ≠ owner)
    : store.load owner spec ref = store ref :=
  if_neg differs

/-- A loaded specification owns its field objects. -/
theorem owns_object (loaded : spec.Loaded)
    : (spec.object owner).Owns owner (store.load owner spec) where
  ref id ref found := by
    rw [lookup_fieldsId_object loaded] at found
    obtain ⟨field, -, same⟩ := Option.map_eq_some_iff.mp found
    exact same.symm
  numbered id ref found := by
    rw [lookup_fieldsId_object loaded] at found
    obtain ⟨field, here, rfl⟩ := Option.map_eq_some_iff.mp found
    rw [load_self here]
    exact loaded.numbered.1 id field here

end Loaded

section Merge

variable {spec peer : Spec} {owner peerOwner : Owner} {store : Store}
  (loaded : spec.Loaded) (peerLoaded : peer.Loaded) (apart : owner ≠ peerOwner)

include peerLoaded in
/-- The messages of a peer are entered under their ids. -/
theorem numbered_messages_object {id : UInt64} {message : MessageObject}
    (found : (peer.object peerOwner).messagesId.lookup id = some message)
    : message.id = id := by
  rw [Spec.object, lookup_mapValues] at found
  obtain ⟨own, here, rfl⟩ := Option.map_eq_some_iff.mp found
  exact peerLoaded.numbered.2 id own here

include loaded peerLoaded apart in
/-- What merging the specification of a peer into one of another owner does. -/
theorem mergeWithSpec_frame {merged : Store × SpecObject}
    (ran : (peer.object peerOwner).mergeWithSpec (store.load peerOwner peer) (spec.object owner)
      = some merged)
    : (∀ id, merged.2.fieldsId.lookup id
        = ((spec.fieldsId.lookup id).map fun _ => ⟨owner, id⟩).or
          ((peer.fieldsId.lookup id).map fun _ => ⟨peerOwner, id⟩))
      ∧ (∀ id field otherField, spec.fieldsId.lookup id = some field →
        peer.fieldsId.lookup id = some otherField →
        (store ⟨owner, id⟩).mergeEnums otherField = some (merged.1 ⟨owner, id⟩))
      ∧ (∀ ref, (ref.owner = owner → spec.fieldsId.lookup ref.id = none
          ∨ peer.fieldsId.lookup ref.id = none) →
        merged.1 ref = store.load peerOwner peer ref)
      ∧ merged.2.loaded = spec
      ∧ ∀ id, merged.2.messagesId.lookup id
        = ((spec.object owner).messagesId.lookup id).or
          ((peer.object peerOwner).messagesId.lookup id) := by
  obtain ⟨messages, loadedFrame, fieldsId, -⟩ := foldl_mergeMessage_frame
    (fun _ _ found => numbered_messages_object peerLoaded found)
    (peer.object peerOwner).messagesId.keys (spec.object owner)
  have own := (owns_object loaded : (spec.object owner).Owns owner (store.load owner spec)).ref
  have fields := fieldsMerged_of_foldlM apart (peer.object peerOwner).fieldsId.keys_nodup
    (fun id _ ref found => own id ref (by rwa [fieldsId] at found)) (owns_object peerLoaded) ran
  have listed : ∀ id otherField, peer.fieldsId.lookup id = some otherField →
      id ∈ (peer.object peerOwner).fieldsId.keys := by
    intro id otherField found
    refine AList.lookup_isSome.mp ?_
    rw [lookup_fieldsId_object peerLoaded, found]
    rfl
  refine ⟨?_, ?_, ?_, fields.loaded.trans loadedFrame, ?_⟩
  · intro id
    rw [fields.fieldsId, fieldsId, lookup_fieldsId_object loaded, lookup_fieldsId_object peerLoaded]
    cases there : peer.fieldsId.lookup id with
    | none => simp
    | some otherField => rw [if_pos (listed id otherField there)]
  · intro id field otherField here there
    have merges := fields.shared id (listed id otherField there) ⟨owner, id⟩ ⟨peerOwner, id⟩
      (by rw [fieldsId, lookup_fieldsId_object loaded, here, Option.map_some])
      (by rw [lookup_fieldsId_object peerLoaded, there, Option.map_some])
    rwa [load_of_ne apart, load_self there] at merges
  · intro ref outside
    refine fields.frame ref fun id _ found => ?_
    rw [fieldsId, lookup_fieldsId_object loaded] at found
    obtain ⟨field, here, rfl⟩ := Option.map_eq_some_iff.mp found
    rw [lookup_fieldsId_object peerLoaded]
    rcases outside rfl with absent | absent
    · cases here.symm.trans absent
    · simp only [absent, Option.map_none]
  · intro id
    rw [fields.messagesId, messages]
    split
    · rfl
    · rename_i unlisted
      rw [AList.lookup_eq_none.mpr unlisted]

include loaded peerLoaded apart in
/-- Merging ends the server exactly when an enumeration shares its id with a field of the peer that is
none.
-/
theorem exists_mergeWithSpec_iff
    : (∃ merged, (peer.object peerOwner).mergeWithSpec (store.load peerOwner peer) (spec.object owner)
        = some merged)
      ↔ ∀ id field otherField, spec.fieldsId.lookup id = some field →
        peer.fieldsId.lookup id = some otherField →
        (store ⟨owner, id⟩).type.id = P7Type.enum.id → otherField.type.id = P7Type.enum.id := by
  obtain ⟨-, -, fieldsId, -⟩ := foldl_mergeMessage_frame
    (fun _ _ found => numbered_messages_object peerLoaded found)
    (peer.object peerOwner).messagesId.keys (spec.object owner)
  have own := (owns_object loaded : (spec.object owner).Owns owner (store.load owner spec)).ref
  refine (exists_foldlM_mergeField_iff apart (peer.object peerOwner).fieldsId.keys_nodup
    (fun id _ ref found => own id ref (by rwa [fieldsId] at found)) (owns_object peerLoaded)).trans ?_
  rw [fieldsId]
  constructor
  · intro bothEnums id field otherField here there isEnum
    have merges := bothEnums id ?_ ⟨owner, id⟩ ⟨peerOwner, id⟩
      (by rw [lookup_fieldsId_object loaded, here, Option.map_some])
      (by rw [lookup_fieldsId_object peerLoaded, there, Option.map_some])
    · rw [load_of_ne apart, load_self there] at merges
      exact merges isEnum
    · refine AList.lookup_isSome.mp ?_
      rw [lookup_fieldsId_object peerLoaded, there]
      rfl
  · intro bothEnums id _ ref otherRef found theirs isEnum
    rw [lookup_fieldsId_object loaded] at found
    rw [lookup_fieldsId_object peerLoaded] at theirs
    obtain ⟨field, here, rfl⟩ := Option.map_eq_some_iff.mp found
    obtain ⟨otherField, there, rfl⟩ := Option.map_eq_some_iff.mp theirs
    rw [load_of_ne apart] at isEnum
    rw [load_self there]
    exact bothEnums id field otherField here there isEnum

end Merge

end WiredServer.P7
