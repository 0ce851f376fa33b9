import Mathlib
import WiredServer.Lib.Fallible
import WiredServer.P7.BuiltinSpec
import WiredServer.P7.SpecLoading

/-! What the loader guarantees about every specification it accepts.
Name and id tables hold the same entries, own entries never hide builtin ones, and every
message counts exactly the required fields among its parameters.
-/

namespace WiredServer.P7

-----------------------------------------------------------------------------------------
-- Tables kept under a name and under an id
-----------------------------------------------------------------------------------------

/-- The two tables hold the same entries, each under its own name and its own id. -/
structure TablesAgree {α : Type} (nameOf : α → String) (idOf : α → UInt64)
    (byName : Dictionary String α) (byId : Dictionary UInt64 α)
    : Prop where
  named : ∀ {name : String} {entry : α}, byName.lookup name = some entry
    → nameOf entry = name ∧ byId.lookup (idOf entry) = some entry
  numbered : ∀ {id : UInt64} {entry : α}, byId.lookup id = some entry
    → idOf entry = id ∧ byName.lookup (nameOf entry) = some entry

namespace TablesAgree

variable {α : Type} {nameOf : α → String} {idOf : α → UInt64}
  {byName : Dictionary String α} {byId : Dictionary UInt64 α}

/-- Empty tables agree. -/
theorem empty : TablesAgree nameOf idOf ∅ ∅ where
  named found := by simp at found
  numbered found := by simp at found

/-- Tables stay in agreement when an entry with a new name and a new id enters both. -/
theorem insert (agree : TablesAgree nameOf idOf byName byId) (entry : α)
    (newName : byName.lookup (nameOf entry) = none) (newId : byId.lookup (idOf entry) = none)
    : TablesAgree nameOf idOf (byName.insert (nameOf entry) entry)
        (byId.insert (idOf entry) entry) where
  named := by
    intro name other found
    by_cases same : name = nameOf entry
    · subst same
      rw [AList.lookup_insert] at found
      cases found
      exact ⟨rfl, AList.lookup_insert _⟩
    · rw [AList.lookup_insert_ne same] at found
      obtain ⟨named, listed⟩ := agree.named found
      refine ⟨named, ?_⟩
      rw [AList.lookup_insert_ne, listed]
      intro same
      rw [same, newId] at listed
      cases listed
  numbered := by
    intro id other found
    by_cases same : id = idOf entry
    · subst same
      rw [AList.lookup_insert] at found
      cases found
      exact ⟨rfl, AList.lookup_insert _⟩
    · rw [AList.lookup_insert_ne same] at found
      obtain ⟨numbered, listed⟩ := agree.numbered found
      refine ⟨numbered, ?_⟩
      rw [AList.lookup_insert_ne, listed]
      intro same
      rw [same, newName] at listed
      cases listed

/-- Entries with one id are one entry. -/
theorem eq_of_id (agree : TablesAgree nameOf idOf byName byId) {left right : String}
    {first second : α} (leftFound : byName.lookup left = some first)
    (rightFound : byName.lookup right = some second) (same : idOf first = idOf second)
    : first = second := by
  have firstListed := (agree.named leftFound).2
  have secondListed := (agree.named rightFound).2
  rw [same, secondListed] at firstListed
  exact (Option.some.inj firstListed).symm

end TablesAgree

/-- Field tables agree. -/
abbrev FieldTablesAgree (spec : Spec) : Prop :=
  TablesAgree SpecField.name SpecField.id spec.fieldsName spec.fieldsId

/-- Message tables agree. -/
abbrev MessageTablesAgree (spec : Spec) : Prop :=
  TablesAgree SpecMessage.name SpecMessage.id spec.messagesName spec.messagesId

-----------------------------------------------------------------------------------------
-- Messages
-----------------------------------------------------------------------------------------

/-- The ids of the required parameters of a message. -/
def SpecMessage.requiredIds (message : SpecMessage) : List UInt64 :=
  (message.parametersId.entries.filter fun entry => entry.2.required).map Sigma.fst

/-- The ids of the required parameters are distinct. -/
theorem SpecMessage.requiredIds_nodup (message : SpecMessage) : message.requiredIds.Nodup :=
  message.parametersId.keys_nodup.sublist (List.filter_sublist.map Sigma.fst)

/-- An id is required iff the message holds a required parameter under it. -/
theorem SpecMessage.mem_requiredIds {message : SpecMessage} {id : UInt64}
    : id ∈ message.requiredIds
      ↔ ∃ parameter, message.parametersId.lookup id = some parameter
        ∧ parameter.required = true := by
  simp only [requiredIds, List.mem_map, List.mem_filter]
  constructor
  · rintro ⟨⟨key, parameter⟩, ⟨member, required⟩, rfl⟩
    exact ⟨parameter, AList.mem_lookup_iff.mpr member, required⟩
  · rintro ⟨parameter, found, required⟩
    exact ⟨⟨id, parameter⟩, ⟨AList.mem_lookup_iff.mp found, required⟩, rfl⟩

/-- A message whose parameters are fields that `resolve` knows, kept consistently and counted. -/
structure SpecMessage.Consistent (resolve : String → Option SpecField) (message : SpecMessage)
    : Prop where
  tables : TablesAgree (·.field.name) (·.field.id) message.parametersName message.parametersId
  known : ∀ {name parameter}, message.parametersName.lookup name = some parameter
    → resolve parameter.field.name = some parameter.field
  counted : message.requiredParameters = message.requiredIds.length

/-- A message stays consistent when more fields become known. -/
theorem SpecMessage.Consistent.mono {resolve resolve' : String → Option SpecField}
    {message : SpecMessage} (consistent : message.Consistent resolve)
    (more : ∀ {name field}, resolve name = some field → resolve' name = some field)
    : message.Consistent resolve' where
  tables := consistent.tables
  known found := more (consistent.known found)
  counted := consistent.counted

/-- Adding a known field keeps a message consistent: the new id is free because an equal id
would belong to the same field, whose name is new.
-/
theorem addParameter_consistent {resolve : String → Option SpecField}
    (unique : ∀ {left right : String} {first second : SpecField},
      resolve left = some first → resolve right = some second → first.id = second.id
      → first = second)
    {message next : SpecMessage} {parameter : SpecParameter}
    (consistent : message.Consistent resolve)
    (known : resolve parameter.field.name = some parameter.field)
    (added : addParameter message parameter = .ok next)
    : next.Consistent resolve := by
  unfold addParameter at added
  split at added
  · cases added
  · rename_i fresh
    have newName : message.parametersName.lookup parameter.field.name = none := by
      simpa using fresh
    have newId : message.parametersId.lookup parameter.field.id = none := by
      by_contra present
      obtain ⟨other, found⟩ := Option.ne_none_iff_exists'.mp present
      obtain ⟨sameId, listed⟩ := consistent.tables.numbered found
      have same := unique (consistent.known listed) known sameId
      rw [same, newName] at listed
      cases listed
    cases added
    refine ⟨consistent.tables.insert parameter newName newId, ?_, ?_⟩
    · intro name other found
      by_cases same : name = parameter.field.name
      · subst same
        rw [AList.lookup_insert] at found
        cases found
        exact known
      · rw [AList.lookup_insert_ne same] at found
        exact consistent.known found
    · have absent : parameter.field.id ∉ message.parametersId := AList.lookup_eq_none.mp newId
      have counted := consistent.counted
      simp only [SpecMessage.requiredIds, AList.entries_insert_of_notMem absent,
        List.filter_cons] at counted ⊢
      split <;> simp [counted]

-----------------------------------------------------------------------------------------
-- Specifications
-----------------------------------------------------------------------------------------

/-- What holds of every specification during and after loading. -/
structure Spec.ConsistentWith (builtin : Option Spec) (spec : Spec) : Prop where
  fields : FieldTablesAgree spec
  messages : MessageTablesAgree spec
  fieldsApart : ∀ {known}, builtin = some known
    → ∀ {name field}, spec.fieldsName.lookup name = some field
    → known.fieldsName.lookup field.name = none ∧ known.fieldsId.lookup field.id = none
  messagesApart : ∀ {known}, builtin = some known
    → ∀ {name message}, spec.messagesName.lookup name = some message
    → known.messagesName.lookup message.name = none
      ∧ known.messagesId.lookup message.id = none
  collections : ∀ {name collection}, spec.collectionsName.lookup name = some collection
    → ∀ field ∈ collection.fields, resolveField builtin spec field.name = some field
  parameters : ∀ {name message}, spec.messagesName.lookup name = some message
    → message.Consistent (resolveField builtin spec)

section Loading

variable {builtin : Option Spec} (builtinFields : ∀ {known}, builtin = some known
  → FieldTablesAgree known)

/-- A resolved field is an own field or a builtin one, under its own name. -/
theorem resolveField_cases {spec : Spec} {name : String} {field : SpecField}
    (found : resolveField builtin spec name = some field)
    : spec.fieldsName.lookup name = some field
      ∨ ∃ known, builtin = some known ∧ known.fieldsName.lookup name = some field := by
  simp only [resolveField, Option.or_eq_some_iff, Option.bind_eq_some_iff] at found
  rcases found with own | ⟨_, known, present, listed⟩
  · exact .inl own
  · exact .inr ⟨known, present, listed⟩

include builtinFields in
/-- A field is resolved under its own name only. -/
theorem resolveField_name {spec : Spec} (consistent : spec.ConsistentWith builtin)
    {name : String} {field : SpecField} (found : resolveField builtin spec name = some field)
    : field.name = name := by
  rcases resolveField_cases found with own | ⟨known, present, listed⟩
  · exact (consistent.fields.named own).1
  · exact ((builtinFields present).named listed).1

include builtinFields in
/-- Resolved fields with one id are one field: own ids never repeat builtin ones. -/
theorem resolveField_unique {spec : Spec} (consistent : spec.ConsistentWith builtin)
    {left right : String} {first second : SpecField}
    (leftFound : resolveField builtin spec left = some first)
    (rightFound : resolveField builtin spec right = some second) (same : first.id = second.id)
    : first = second := by
  rcases resolveField_cases leftFound with own | ⟨known, present, listed⟩
  · rcases resolveField_cases rightFound with own' | ⟨known, present, listed⟩
    · exact consistent.fields.eq_of_id own own' same
    · have apart := (consistent.fieldsApart present own).2
      have taken := ((builtinFields present).named listed).2
      rw [← same, apart] at taken
      cases taken
  · rcases resolveField_cases rightFound with own | ⟨known', present', listed'⟩
    · have apart := (consistent.fieldsApart present own).2
      have taken := ((builtinFields present).named listed).2
      rw [same, apart] at taken
      cases taken
    · cases present.symm.trans present'
      exact (builtinFields present).eq_of_id listed listed' same

/-- A specification without contents is consistent. -/
theorem Spec.empty_consistentWith (name version : String) (originator : Originator)
    : (Spec.empty name version originator).ConsistentWith builtin where
  fields := .empty
  messages := .empty
  fieldsApart _ _ _ found := by cases found
  messagesApart _ _ _ found := by cases found
  collections found := by simp [Spec.empty] at found
  parameters found := by simp [Spec.empty] at found

/-- Loading a type keeps consistency, which does not speak about types. -/
theorem loadType_consistent {spec next : Spec} {node : XmlNode}
    (consistent : spec.ConsistentWith builtin) (loaded : loadType spec node = .ok next)
    : next.ConsistentWith builtin := by
  obtain ⟨type, -, -, -, rfl⟩ := loadType_cases loaded
  exact ⟨consistent.fields, consistent.messages, consistent.fieldsApart,
    consistent.messagesApart, consistent.collections, consistent.parameters⟩

/-- Loading a field keeps consistency: the loader checks that its name and id are free in
both specifications, so no name that was resolved changes its meaning.
-/
theorem loadField_consistent {spec next : Spec} {node : XmlNode}
    (consistent : spec.ConsistentWith builtin) (loaded : loadField builtin spec node = .ok next)
    : next.ConsistentWith builtin := by
  obtain ⟨field, -, newName, newId, apart, rfl⟩ := loadField_cases loaded
  have keeps : ∀ {name : String} {other : SpecField},
      resolveField builtin spec name = some other
      → resolveField builtin
          { spec with
            fieldsName := spec.fieldsName.insert field.name field
            fieldsId := spec.fieldsId.insert field.id field } name
        = some other := by
    intro name other found
    have differs : name ≠ field.name := by
      rintro rfl
      rcases resolveField_cases found with own | ⟨known, present, listed⟩
      · rw [newName] at own
        cases own
      · rw [(apart known present).1] at listed
        cases listed
    simpa only [resolveField, AList.lookup_insert_ne differs] using found
  refine ⟨consistent.fields.insert field newName newId, consistent.messages, ?_,
    consistent.messagesApart, ?_, ?_⟩
  · intro known present name other found
    by_cases same : name = field.name
    · subst same
      rw [AList.lookup_insert] at found
      cases found
      exact apart known present
    · rw [AList.lookup_insert_ne same] at found
      exact consistent.fieldsApart present found
  · intro name collection found other member
    exact keeps (consistent.collections found other member)
  · intro name message found
    exact (consistent.parameters found).mono keeps

include builtinFields in
/-- Loading a collection keeps consistency: each member was resolved under its name. -/
theorem loadCollection_consistent {spec next : Spec} {node : XmlNode}
    (consistent : spec.ConsistentWith builtin)
    (loaded : loadCollection builtin spec node = .ok next)
    : next.ConsistentWith builtin := by
  obtain ⟨collection, built, -, rfl⟩ := loadCollection_cases loaded
  have members : ∀ field ∈ collection.fields,
      resolveField builtin spec field.name = some field := by
    unfold collectionWithNode at built
    split at built
    · cases built
    · refine Fallible.foldlM_preserves
        (fun collection => ∀ field ∈ collection.fields,
          resolveField builtin spec field.name = some field) ?_ (by simp) built
      intro state item following _ known step
      unfold loadMember at step
      split at step
      · cases step
        exact known
      · split at step
        · cases step
        · split at step
          · cases step
          · split at step
            · cases step
            · rename_i field found
              cases step
              intro other member
              rcases List.mem_append.mp member with old | new
              · exact known other old
              · cases List.mem_singleton.mp new
                rwa [resolveField_name builtinFields consistent found]
  refine ⟨consistent.fields, consistent.messages, consistent.fieldsApart,
    consistent.messagesApart, ?_, consistent.parameters⟩
  intro name other found field member
  by_cases same : name = collection.name
  · subst same
    rw [AList.lookup_insert] at found
    cases found
    exact members field member
  · rw [AList.lookup_insert_ne same] at found
    exact consistent.collections found field member

include builtinFields in
/-- One round over the children of a message keeps it consistent. -/
theorem loadParameter_consistent {spec : Spec} (consistent : spec.ConsistentWith builtin)
    {message next : SpecMessage} {node : XmlNode}
    (sound : message.Consistent (resolveField builtin spec))
    (loaded : loadParameter builtin spec message node = .ok next)
    : next.Consistent (resolveField builtin spec) := by
  have unique := @resolveField_unique builtin builtinFields spec consistent
  unfold loadParameter at loaded
  split at loaded
  · cases loaded
    exact sound
  · split at loaded
    · cases loaded
    · split at loaded
      · obtain ⟨parameter, built, added⟩ := Fallible.bind_eq_ok.mp loaded
        refine addParameter_consistent unique sound ?_ added
        unfold parameterWithNode at built
        split at built
        · cases built
        · split at built
          · cases built
          · rename_i field found
            obtain ⟨required, _, built⟩ := Fallible.bind_eq_ok.mp built
            cases built
            rwa [resolveField_name builtinFields consistent found]
      · split at loaded
        · split at loaded
          · cases loaded
          · rename_i collection listed
            obtain ⟨required, _, added⟩ := Fallible.bind_eq_ok.mp loaded
            refine Fallible.foldlM_preserves
              (fun state => state.Consistent (resolveField builtin spec)) ?_ sound added
            intro state field following member kept step
            exact addParameter_consistent unique kept
              (consistent.collections listed field member) step
        · cases loaded

include builtinFields in
/-- Loading a message keeps consistency: the message itself is built consistently, and its
name and id are checked to be free in both specifications.
-/
theorem loadMessage_consistent {spec next : Spec} {node : XmlNode}
    (consistent : spec.ConsistentWith builtin)
    (loaded : loadMessage builtin spec node = .ok next)
    : next.ConsistentWith builtin := by
  obtain ⟨message, built, newName, newId, apart, rfl⟩ := loadMessage_cases loaded
  have sound : message.Consistent (resolveField builtin spec) := by
    unfold messageWithNode at built
    split at built
    · cases built
    · dsimp only at built
      split at built
      · cases built
      · refine Fallible.foldlM_preserves
          (fun state => state.Consistent (resolveField builtin spec)) ?_ ?_ built
        · intro state item following _ kept step
          exact loadParameter_consistent builtinFields consistent kept step
        · exact ⟨.empty, fun found => by simp at found, rfl⟩
  refine ⟨consistent.fields, consistent.messages.insert message newName newId,
    consistent.fieldsApart, ?_, consistent.collections, ?_⟩
  · intro known present name other found
    by_cases same : name = message.name
    · subst same
      rw [AList.lookup_insert] at found
      cases found
      exact apart known present
    · rw [AList.lookup_insert_ne same] at found
      exact consistent.messagesApart present found
  · intro name other found
    by_cases same : name = message.name
    · subst same
      rw [AList.lookup_insert] at found
      cases found
      exact sound
    · rw [AList.lookup_insert_ne same] at found
      exact consistent.parameters found

/-- Loading a transaction keeps consistency, which does not speak about transactions. -/
theorem loadTransaction_consistent {spec next : Spec} {node : XmlNode}
    (consistent : spec.ConsistentWith builtin)
    (loaded : loadTransaction builtin spec node = .ok next)
    : next.ConsistentWith builtin := by
  obtain ⟨transaction, -, -, rfl⟩ := loadTransaction_cases loaded
  exact ⟨consistent.fields, consistent.messages, consistent.fieldsApart,
    consistent.messagesApart, consistent.collections, consistent.parameters⟩

/-- Loading a broadcast keeps consistency, which does not speak about broadcasts. -/
theorem loadBroadcast_consistent {spec next : Spec} {node : XmlNode}
    (consistent : spec.ConsistentWith builtin)
    (loaded : loadBroadcast builtin spec node = .ok next)
    : next.ConsistentWith builtin := by
  obtain ⟨broadcast, -, -, rfl⟩ := loadBroadcast_cases loaded
  exact ⟨consistent.fields, consistent.messages, consistent.fieldsApart,
    consistent.messagesApart, consistent.collections, consistent.parameters⟩

include builtinFields in
/-- Every step of the loader keeps consistency. -/
theorem Loads.consistent {spec next : Spec} {kind : String} {node : XmlNode}
    (loads : Loads builtin spec kind node next) (consistent : spec.ConsistentWith builtin)
    : next.ConsistentWith builtin := by
  cases loads with
  | type loaded => exact loadType_consistent consistent loaded
  | field loaded => exact loadField_consistent consistent loaded
  | collection loaded => exact loadCollection_consistent builtinFields consistent loaded
  | message loaded => exact loadMessage_consistent builtinFields consistent loaded
  | transaction loaded => exact loadTransaction_consistent consistent loaded
  | broadcast loaded => exact loadBroadcast_consistent consistent loaded

include builtinFields in
/-- Every specification that the loader accepts is consistent. -/
theorem loadSpec_consistent {originator : Originator} {root : XmlNode} {spec : Spec}
    (loaded : loadSpec builtin originator root = .ok spec)
    : spec.ConsistentWith builtin :=
  loadSpec_preserves (Spec.ConsistentWith builtin)
    (fun _ _ kept loads => loads.consistent builtinFields kept)
    (fun name version => Spec.empty_consistentWith name version originator) loaded

end Loading

-----------------------------------------------------------------------------------------
-- Lookups
-----------------------------------------------------------------------------------------

/-- The builtin specification is consistent in itself. -/
theorem builtinSpec_consistent : builtinSpec.ConsistentWith none :=
  loadSpec_consistent (fun absent => by cases absent) builtinSpec_loaded

namespace Spec.Loaded

variable {spec : Spec}

/-- A field found by name has that name, and is found by its id. -/
theorem fieldWithName (loaded : spec.Loaded) {name : String} {field : SpecField}
    (found : spec.fieldWithName name = some field)
    : field.name = name ∧ spec.fieldWithId field.id = some field := by
  have known := builtinSpec_consistent.fields
  simp only [Spec.fieldWithName, Spec.fieldWithId, Option.or_eq_some_iff] at found ⊢
  cases loaded with
  | builtin =>
      rcases found with own | ⟨_, own⟩
      · exact ⟨(known.named own).1, .inl (known.named own).2⟩
      · exact ⟨(known.named own).1, .inl (known.named own).2⟩
  | document loaded =>
      have consistent := loadSpec_consistent (by rintro _ ⟨⟩; exact known) loaded
      rcases found with own | ⟨_, listed⟩
      · exact ⟨(consistent.fields.named own).1, .inl (consistent.fields.named own).2⟩
      · obtain ⟨named, numbered⟩ := known.named listed
        refine ⟨named, .inr ⟨?_, numbered⟩⟩
        by_contra present
        obtain ⟨other, taken⟩ := Option.ne_none_iff_exists'.mp present
        obtain ⟨same, own⟩ := consistent.fields.numbered taken
        have apart := (consistent.fieldsApart rfl own).2
        rw [same, numbered] at apart
        cases apart

/-- A field found by id has that id, and is found by its name. -/
theorem fieldWithId (loaded : spec.Loaded) {id : UInt64} {field : SpecField}
    (found : spec.fieldWithId id = some field)
    : field.id = id ∧ spec.fieldWithName field.name = some field := by
  have known := builtinSpec_consistent.fields
  simp only [Spec.fieldWithName, Spec.fieldWithId, Option.or_eq_some_iff] at found ⊢
  cases loaded with
  | builtin =>
      rcases found with own | ⟨_, own⟩
      · exact ⟨(known.numbered own).1, .inl (known.numbered own).2⟩
      · exact ⟨(known.numbered own).1, .inl (known.numbered own).2⟩
  | document loaded =>
      have consistent := loadSpec_consistent (by rintro _ ⟨⟩; exact known) loaded
      rcases found with own | ⟨_, listed⟩
      · exact ⟨(consistent.fields.numbered own).1, .inl (consistent.fields.numbered own).2⟩
      · obtain ⟨numbered, named⟩ := known.numbered listed
        refine ⟨numbered, .inr ⟨?_, named⟩⟩
        by_contra present
        obtain ⟨other, taken⟩ := Option.ne_none_iff_exists'.mp present
        obtain ⟨same, _⟩ := consistent.fields.named taken
        have apart := (consistent.fieldsApart rfl taken).1
        rw [same, named] at apart
        cases apart

end Spec.Loaded

end WiredServer.P7
