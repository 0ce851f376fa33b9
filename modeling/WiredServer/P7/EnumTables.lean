import WiredServer.Lib.InverseTables
import WiredServer.P7.SpecConsistency

/-! The tables of a loaded specification as a whole. They agree for every document, but for the two
tables of an enumeration: a name that stands for zero is not noticed when it comes again, so these
are inverse exactly when no field of the document has a name twice.
-/

namespace WiredServer.P7

open InverseTables

-----------------------------------------------------------------------------------------
-- Enumerations of a field
-----------------------------------------------------------------------------------------

/-- The names of a field and their values, in the order of the document. -/
def enumPairs (nodes : List XmlNode) : List (String × UInt64) :=
  (nodes.filter fun node => node.name = "enum").filterMap fun node =>
    (node.attributeWithName "name").map fun name => (name, node.integerAttributeWithName "value")

/-- The names in the `enum` elements of a `field` element. -/
def enumNames (node : XmlNode) : List String :=
  (enumPairs node.children).map Prod.fst

/-- The two tables of a field lead back and forth between its names and values. -/
def SpecField.EnumsInverse (field : SpecField) : Prop :=
  AreInverse field.enumsName field.enumsValue

/-- A round over a child of a field skips it, or enters a new value. -/
theorem loadEnum_cases {field next : SpecField} {node : XmlNode}
    (loaded : loadEnum field node = .ok next)
    : (enumPairs [node] = [] ∧ next = field)
      ∨ ∃ name value, enumPairs [node] = [(name, value)] ∧ field.enumsValue.lookup value = none
        ∧ next = { field with
            enumsName := field.enumsName.insert name value
            enumsValue := field.enumsValue.insert value name } := by
  unfold loadEnum at loaded
  split at loaded
  · rename_i documentation
    cases loaded
    exact .inl ⟨by simp [enumPairs, documentation], rfl⟩
  · split at loaded
    · cases loaded
    · split at loaded
      · cases loaded
      · rename_i isEnum
        rw [not_not] at isEnum
        split at loaded
        · cases loaded
        · rename_i name named
          dsimp only at loaded
          split at loaded
          · cases loaded
          · split at loaded
            · cases loaded
            · rename_i newValue
              cases loaded
              refine .inr ⟨name, _, ?_, by simpa using newValue, rfl⟩
              simp [enumPairs, isEnum, named]

/-- The children of a field are entered one after the other, with distinct new values. -/
theorem foldlM_loadEnum {nodes : List XmlNode} {field result : SpecField}
    (run : nodes.foldlM loadEnum field = .ok result)
    : result.enumsName = insertAll (enumPairs nodes) field.enumsName
      ∧ result.enumsValue = insertAll ((enumPairs nodes).map Prod.swap) field.enumsValue
      ∧ ((enumPairs nodes).map Prod.snd).Nodup
      ∧ ∀ pair ∈ enumPairs nodes, field.enumsValue.lookup pair.2 = none := by
  induction nodes generalizing field with
  | nil =>
      cases run
      exact ⟨rfl, rfl, List.nodup_nil, nofun⟩
  | cons node nodes ih =>
      rw [List.foldlM_cons, Fallible.bind_eq_ok] at run
      obtain ⟨next, stepped, remaining⟩ := run
      have split : enumPairs (node :: nodes) = enumPairs [node] ++ enumPairs nodes := by
        rw [enumPairs, enumPairs, enumPairs, ← List.filterMap_append, ← List.filter_append,
          List.singleton_append]
      obtain ⟨none, rfl⟩ | ⟨name, value, one, newValue, rfl⟩ := loadEnum_cases stepped
      · rw [split, none, List.nil_append]
        exact ih remaining
      · obtain ⟨names, values, once, newValues⟩ := ih remaining
        rw [split, one]
        refine ⟨names, values, ?_, ?_⟩
        · refine List.nodup_cons.mpr ⟨fun mem => ?_, once⟩
          obtain ⟨pair, member, same⟩ := List.mem_map.mp mem
          have free := newValues pair member
          have taken := AList.lookup_insert field.enumsValue (a := value) (b := name)
          rw [same] at free
          cases taken.symm.trans free
        · rintro pair member
          rcases List.mem_cons.mp member with rfl | member
          · exact newValue
          · have free := newValues pair member
            by_cases same : pair.2 = value
            · rw [same]
              exact newValue
            · exact (AList.lookup_insert_ne same).symm.trans free

/-- The tables of a loaded field are inverse exactly when it has no name twice. -/
theorem fieldWithNode_enumsInverse_iff {builtin : Option Spec} {spec : Spec} {node : XmlNode}
    {field : SpecField} (built : fieldWithNode builtin spec node = .ok field)
    : field.EnumsInverse ↔ (enumNames node).Nodup := by
  unfold fieldWithNode at built
  split at built
  · cases built
  · split at built
    · cases built
    · split at built
      · cases built
      · obtain ⟨listtype, -, built⟩ := Fallible.bind_eq_ok.mp built
        dsimp only at built
        split at built
        · cases built
        · obtain ⟨names, values, once, -⟩ := foldlM_loadEnum built
          rw [SpecField.EnumsInverse, names, values]
          constructor
          · exact nodup_of_areInverse once
          · intro distinct
            exact areInverse_empty.insertAll distinct once (fun _ _ => rfl) fun _ _ => rfl

-----------------------------------------------------------------------------------------
-- Enumerations of a specification
-----------------------------------------------------------------------------------------

/-- The tables of every field of a specification are inverse. -/
def Spec.EnumsInverse (spec : Spec) : Prop :=
  ∀ name field, spec.fieldsName.lookup name = some field → field.EnumsInverse

/-- No field of a document has the name of an enumeration twice. -/
def EnumNamesDistinct (root : XmlNode) : Prop :=
  ∀ part ∈ root.children, part.name = "fields" → ∀ node ∈ part.children, (enumNames node).Nodup

section Loading

variable {builtin : Option Spec} {spec next : Spec} {node : XmlNode}

/-- A step of the loader leaves the fields, or enters a field under its name, which no other has. -/
theorem Loads.fieldsName_cases {kind : String} (loads : Loads builtin spec kind node next)
    : next.fieldsName = spec.fieldsName
      ∨ kind = "fields" ∧ ∃ field, fieldWithNode builtin spec node = .ok field
        ∧ spec.fieldsName.lookup field.name = none
        ∧ next.fieldsName = spec.fieldsName.insert field.name field := by
  cases loads with
  | field loaded =>
      obtain ⟨field, built, fresh, -, -, rfl⟩ := loadField_cases loaded
      exact .inr ⟨rfl, field, built, fresh, rfl⟩
  | type loaded =>
      obtain ⟨type, -, -, -, rfl⟩ := loadType_cases loaded
      exact .inl rfl
  | collection loaded =>
      obtain ⟨collection, -, -, rfl⟩ := loadCollection_cases loaded
      exact .inl rfl
  | message loaded =>
      obtain ⟨message, -, -, -, -, rfl⟩ := loadMessage_cases loaded
      exact .inl rfl
  | transaction loaded =>
      obtain ⟨transaction, -, -, rfl⟩ := loadTransaction_cases loaded
      exact .inl rfl
  | broadcast loaded =>
      obtain ⟨broadcast, -, -, rfl⟩ := loadBroadcast_cases loaded
      exact .inl rfl

/-- A field stays under its name when further things are loaded. -/
theorem Loads.lookup_fieldsName {kind : String} (loads : Loads builtin spec kind node next)
    {name : String} {field : SpecField} (found : spec.fieldsName.lookup name = some field)
    : next.fieldsName.lookup name = some field := by
  obtain same | ⟨-, built, -, free, entered⟩ := loads.fieldsName_cases
  · rw [same]
    exact found
  · have differs : name ≠ built.name := by
      rintro rfl
      cases found.symm.trans free
    rw [entered, AList.lookup_insert_ne differs]
    exact found

/-- A section of fields is loaded field by field. -/
theorem loadSection_fields (fields : node.name = "fields")
    (loaded : loadSection builtin spec node = .ok next)
    : node.children.foldlM (loadField builtin) spec = .ok next := by
  unfold loadSection at loaded
  simpa [fields] using loaded

/-- Every field of a document is in the table of the specification that is loaded from it. -/
theorem exists_field_of_loadSpec {originator : Originator} {root part child : XmlNode}
    (loaded : loadSpec builtin originator root = .ok spec) (mem : part ∈ root.children)
    (fields : part.name = "fields") (member : child ∈ part.children)
    : ∃ before field, fieldWithNode builtin before child = .ok field
      ∧ spec.fieldsName.lookup field.name = some field := by
  unfold loadSpec at loaded
  split at loaded
  · cases loaded
  · split at loaded
    · cases loaded
    · split at loaded
      · cases loaded
      · obtain ⟨start, loadedPart, rest, stepped, -, later⟩ := Fallible.foldlM_visits loaded mem
        obtain ⟨before, after, others, here, -, remaining⟩ :=
          Fallible.foldlM_visits (loadSection_fields fields stepped) member
        obtain ⟨field, built, -, -, -, rfl⟩ := loadField_cases here
        refine ⟨before, field, built, ?_⟩
        -- The field stays in the table while the rest of its section and the others are loaded.
        have inSection : loadedPart.fieldsName.lookup field.name = some field :=
          Fallible.foldlM_preserves (fun state => state.fieldsName.lookup field.name = some field)
            (fun _ kept step => (Loads.field step).lookup_fieldsName kept) (AList.lookup_insert _)
            remaining
        exact Fallible.foldlM_preserves
          (fun state => state.fieldsName.lookup field.name = some field)
          (fun _ kept step => loadSection_preserves _ (fun _ kept loads =>
            loads.lookup_fieldsName kept) kept step) inSection later

/-- The tables of the enumerations of a loaded specification are inverse exactly when no field of its
document has a name twice.
-/
theorem loadSpec_enumsInverse_iff {originator : Originator} {root : XmlNode}
    (loaded : loadSpec builtin originator root = .ok spec)
    : spec.EnumsInverse ↔ EnumNamesDistinct root := by
  constructor
  · intro inverse part mem fields child member
    obtain ⟨before, field, built, found⟩ := exists_field_of_loadSpec loaded mem fields member
    exact (fieldWithNode_enumsInverse_iff built).mp (inverse _ field found)
  · intro distinct
    refine loadSpec_preserves Spec.EnumsInverse ?_ ?_ loaded
    · intro part state child following mem member kept loads name field found
      obtain same | ⟨fields, built, fresh, -, entered⟩ := loads.fieldsName_cases
      · rw [same] at found
        exact kept name field found
      · rw [entered] at found
        by_cases same : name = built.name
        · rw [same, AList.lookup_insert] at found
          cases found
          exact (fieldWithNode_enumsInverse_iff fresh).mpr (distinct part mem fields child member)
        · rw [AList.lookup_insert_ne same] at found
          exact kept name field found
    · intro name version other field found
      simp [Spec.empty] at found

end Loading

-----------------------------------------------------------------------------------------
-- All tables of a specification
-----------------------------------------------------------------------------------------

/-- The tables of a specification describe the same fields and messages, no two of which share a name
or an id, its enumerations lead back and forth, and its messages have known fields as parameters
and count the required ones.
-/
structure Spec.TablesSound (builtin : Option Spec) (spec : Spec) : Prop where
  fields : FieldTablesAgree spec
  fieldsApart : ∀ {left right first second}, spec.fieldsName.lookup left = some first →
    spec.fieldsName.lookup right = some second → first.name = second.name ∨ first.id = second.id →
    first = second
  messages : MessageTablesAgree spec
  messagesApart : ∀ {left right first second}, spec.messagesName.lookup left = some first →
    spec.messagesName.lookup right = some second →
    first.name = second.name ∨ first.id = second.id → first = second
  enums : spec.EnumsInverse
  parameters : ∀ {name message}, spec.messagesName.lookup name = some message →
    message.Consistent (resolveField builtin spec)

/-- Entries of tables that agree are the same if they share their name or their id. -/
theorem TablesAgree.eq_of_shared {α : Type} {nameOf : α → String} {idOf : α → UInt64}
    {byName : Dictionary String α} {byId : Dictionary UInt64 α}
    (agree : TablesAgree nameOf idOf byName byId) {left right : String} {first second : α}
    (leftFound : byName.lookup left = some first) (rightFound : byName.lookup right = some second)
    (shared : nameOf first = nameOf second ∨ idOf first = idOf second)
    : first = second := by
  rcases shared with same | same
  · rw [(agree.named leftFound).1, (agree.named rightFound).1] at same
    rw [same, rightFound] at leftFound
    exact (Option.some.inj leftFound).symm
  · exact agree.eq_of_id leftFound rightFound same

/-- The builtin specification is loaded on its own, and every other one after it. -/
def IsBuiltin (builtin : Option Spec) : Prop :=
  builtin = none ∨ builtin = some builtinSpec

/-- The tables of a loaded specification are sound exactly when no field of its document has the name
of an enumeration twice.
-/
theorem tablesSound_iff {builtin : Option Spec} (isBuiltin : IsBuiltin builtin)
    {originator : Originator} {root : XmlNode} {spec : Spec}
    (loaded : loadSpec builtin originator root = .ok spec)
    : spec.TablesSound builtin ↔ EnumNamesDistinct root := by
  have builtinFields : ∀ {known}, builtin = some known → FieldTablesAgree known := by
    rintro known rfl
    rcases isBuiltin with absent | same
    · cases absent
    · exact Option.some.inj same ▸ builtinSpec_consistent.fields
  have consistent := loadSpec_consistent builtinFields loaded
  rw [← loadSpec_enumsInverse_iff loaded]
  exact ⟨fun sound => sound.enums, fun inverse =>
    ⟨consistent.fields, consistent.fields.eq_of_shared, consistent.messages,
      consistent.messages.eq_of_shared, inverse, consistent.parameters⟩⟩

/-- A document with an enumeration whose first name stands for zero and comes again. -/
def repeatedEnumDocument : XmlNode :=
  .element "protocol" [("name", "Repeated"), ("version", "1.0")]
    [.element "fields" []
      [fieldNode "repeated.field" "enum" "1000" [("repeated.name", "0"), ("repeated.name", "1")]]]

/-- The tables of the builtin specification are sound. -/
theorem tablesSound_builtin : builtinSpec.TablesSound none := by
  have distinct : EnumNamesDistinct builtinDocument := by
    unfold EnumNamesDistinct
    decide +kernel
  exact (tablesSound_iff (.inl rfl) builtinSpec_loaded).mpr distinct

/-- A name that stands for zero is entered again: both 0 and 1 lead to it, and it leads to 1. -/
theorem not_tablesSound_repeatedEnum
    : ∃ spec, loadSpec (some builtinSpec) .both repeatedEnumDocument = .ok spec
      ∧ ¬spec.TablesSound (some builtinSpec) := by
  have loads : (loadSpec (some builtinSpec) .both repeatedEnumDocument).isOk = true := by
    unfold builtinSpec
    decide +kernel
  have repeated : ¬EnumNamesDistinct repeatedEnumDocument := by
    unfold EnumNamesDistinct
    decide +kernel
  obtain ⟨spec, loaded⟩ := Fallible.exists_ok_of_isOk loads
  exact ⟨spec, loaded, fun sound => repeated ((loadSpec_enumsInverse_iff loaded).mp sound.enums)⟩

end WiredServer.P7
