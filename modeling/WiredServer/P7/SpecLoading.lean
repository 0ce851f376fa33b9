import WiredServer.Lib.Fallible
import WiredServer.P7.Spec

/-! What each step of the loader does to a specification when it succeeds: it enters one object under
a new name, and leaves all other tables as they are.
-/

namespace WiredServer.P7

variable {builtin : Option Spec} {spec next : Spec} {node : XmlNode}

/-- A type that is loaded has a new name and a new id. -/
theorem loadType_cases (loaded : loadType spec node = .ok next)
    : ∃ type, typeWithNode node = .ok type
      ∧ spec.typesName.lookup type.name = none ∧ spec.typesId.lookup type.id = none
      ∧ next = { spec with
          typesName := spec.typesName.insert type.name type
          typesId := spec.typesId.insert type.id type } := by
  unfold loadType at loaded
  split at loaded
  · cases loaded
  · obtain ⟨type, built, loaded⟩ := Fallible.bind_eq_ok.mp loaded
    split_ifs at loaded with usedName usedId
    cases loaded
    exact ⟨type, built, by simpa using usedName, by simpa using usedId, rfl⟩

/-- A field that is loaded has a new name and a new id, also among the builtin ones. -/
theorem loadField_cases (loaded : loadField builtin spec node = .ok next)
    : ∃ field, fieldWithNode builtin spec node = .ok field
      ∧ spec.fieldsName.lookup field.name = none ∧ spec.fieldsId.lookup field.id = none
      ∧ (∀ known, builtin = some known →
        known.fieldsName.lookup field.name = none ∧ known.fieldsId.lookup field.id = none)
      ∧ next = { spec with
          fieldsName := spec.fieldsName.insert field.name field
          fieldsId := spec.fieldsId.insert field.id field } := by
  unfold loadField at loaded
  split at loaded
  · cases loaded
  · obtain ⟨field, built, loaded⟩ := Fallible.bind_eq_ok.mp loaded
    split_ifs at loaded with usedName usedId builtinName builtinId
    cases loaded
    refine ⟨field, built, by simpa using usedName, by simpa using usedId, ?_, rfl⟩
    rintro known rfl
    simpa using And.intro builtinName builtinId

/-- A collection that is loaded has a new name. -/
theorem loadCollection_cases (loaded : loadCollection builtin spec node = .ok next)
    : ∃ collection, collectionWithNode builtin spec node = .ok collection
      ∧ spec.collectionsName.lookup collection.name = none
      ∧ next = { spec with
          collectionsName := spec.collectionsName.insert collection.name collection } := by
  unfold loadCollection at loaded
  split at loaded
  · cases loaded
  · obtain ⟨collection, built, loaded⟩ := Fallible.bind_eq_ok.mp loaded
    split_ifs at loaded with used
    cases loaded
    exact ⟨collection, built, by simpa using used, rfl⟩

/-- A message that is loaded has a new name and a new id, also among the builtin ones. -/
theorem loadMessage_cases (loaded : loadMessage builtin spec node = .ok next)
    : ∃ message, messageWithNode builtin spec node = .ok message
      ∧ spec.messagesName.lookup message.name = none ∧ spec.messagesId.lookup message.id = none
      ∧ (∀ known, builtin = some known →
        known.messagesName.lookup message.name = none ∧ known.messagesId.lookup message.id = none)
      ∧ next = { spec with
          messagesName := spec.messagesName.insert message.name message
          messagesId := spec.messagesId.insert message.id message } := by
  unfold loadMessage at loaded
  split at loaded
  · cases loaded
  · obtain ⟨message, built, loaded⟩ := Fallible.bind_eq_ok.mp loaded
    split_ifs at loaded with usedName usedId builtinName builtinId
    cases loaded
    refine ⟨message, built, by simpa using usedName, by simpa using usedId, ?_, rfl⟩
    rintro known rfl
    simpa using And.intro builtinName builtinId

/-- A transaction that is loaded has a message with no transaction yet. -/
theorem loadTransaction_cases (loaded : loadTransaction builtin spec node = .ok next)
    : ∃ transaction, transactionWithNode builtin spec node = .ok transaction
      ∧ spec.transactionsName.lookup transaction.message.name = none
      ∧ next = { spec with
          transactionsName := spec.transactionsName.insert transaction.message.name transaction } := by
  unfold loadTransaction at loaded
  split at loaded
  · cases loaded
  · obtain ⟨transaction, built, loaded⟩ := Fallible.bind_eq_ok.mp loaded
    dsimp only at loaded
    split_ifs at loaded with used
    cases loaded
    exact ⟨transaction, built, by simpa using used, rfl⟩

/-- A broadcast that is loaded has a message with no broadcast yet. -/
theorem loadBroadcast_cases (loaded : loadBroadcast builtin spec node = .ok next)
    : ∃ broadcast, broadcastWithNode builtin spec node = .ok broadcast
      ∧ spec.broadcastsName.lookup broadcast.message.name = none
      ∧ next = { spec with
          broadcastsName := spec.broadcastsName.insert broadcast.message.name broadcast } := by
  unfold loadBroadcast at loaded
  split at loaded
  · cases loaded
  · obtain ⟨broadcast, built, loaded⟩ := Fallible.bind_eq_ok.mp loaded
    dsimp only at loaded
    split_ifs at loaded with used
    cases loaded
    exact ⟨broadcast, built, by simpa using used, rfl⟩

/-- What a single step of the loader does to a specification. -/
inductive Loads (builtin : Option Spec) (spec : Spec) : String → XmlNode → Spec → Prop where
  | type {node : XmlNode} {next : Spec} (loaded : loadType spec node = .ok next)
      : Loads builtin spec "types" node next
  | field {node : XmlNode} {next : Spec} (loaded : loadField builtin spec node = .ok next)
      : Loads builtin spec "fields" node next
  | collection {node : XmlNode} {next : Spec} (loaded : loadCollection builtin spec node = .ok next)
      : Loads builtin spec "collections" node next
  | message {node : XmlNode} {next : Spec} (loaded : loadMessage builtin spec node = .ok next)
      : Loads builtin spec "messages" node next
  | transaction {node : XmlNode} {next : Spec}
      (loaded : loadTransaction builtin spec node = .ok next)
      : Loads builtin spec "transactions" node next
  | broadcast {node : XmlNode} {next : Spec} (loaded : loadBroadcast builtin spec node = .ok next)
      : Loads builtin spec "broadcasts" node next

/-- What every step that loads a child of a section keeps, the whole section keeps. -/
theorem loadSection_preserves (kept : Spec → Prop)
    (round : ∀ {state item following}, item ∈ node.children → kept state →
      Loads builtin state node.name item following → kept following)
    (start : kept spec) (loaded : loadSection builtin spec node = .ok next)
    : kept next := by
  unfold loadSection at loaded
  split_ifs at loaded with documentation types fields collections messages transactions broadcasts
  · cases loaded
    exact start
  · exact Fallible.foldlM_preserves kept
      (fun mem keeps stepped => round mem keeps (types ▸ .type stepped)) start loaded
  · exact Fallible.foldlM_preserves kept
      (fun mem keeps stepped => round mem keeps (fields ▸ .field stepped)) start loaded
  · exact Fallible.foldlM_preserves kept
      (fun mem keeps stepped => round mem keeps (collections ▸ .collection stepped)) start loaded
  · exact Fallible.foldlM_preserves kept
      (fun mem keeps stepped => round mem keeps (messages ▸ .message stepped)) start loaded
  · exact Fallible.foldlM_preserves kept
      (fun mem keeps stepped => round mem keeps (transactions ▸ .transaction stepped)) start loaded
  · exact Fallible.foldlM_preserves kept
      (fun mem keeps stepped => round mem keeps (broadcasts ▸ .broadcast stepped)) start loaded

/-- What every step that loads a child of a section keeps holds of a specification that is loaded from
a document, if it holds of an empty one.
-/
theorem loadSpec_preserves (kept : Spec → Prop) {originator : Originator} {root : XmlNode}
    (round : ∀ {part state item following}, part ∈ root.children → item ∈ part.children →
      kept state → Loads builtin state part.name item following → kept following)
    (start : ∀ name version, kept (.empty name version originator))
    (loaded : loadSpec builtin originator root = .ok spec)
    : kept spec := by
  unfold loadSpec at loaded
  split at loaded
  · cases loaded
  · split at loaded
    · cases loaded
    · split at loaded
      · cases loaded
      · exact Fallible.foldlM_preserves kept (fun mem keeps stepped =>
          loadSection_preserves kept (fun member => round mem member) keeps stepped)
          (start _ _) loaded

end WiredServer.P7
