import WiredServer.P7.Compatibility
import WiredServer.P7.SpecConsistency

/-! What two peers that have found each other compatible can rely on. Each side checks what its own
specification requires, so what the peer requires follows from the check of the peer.
-/

namespace WiredServer.P7

-----------------------------------------------------------------------------------------
-- Messages
-----------------------------------------------------------------------------------------

/-- What one message requires is required of the other one, under the same id and with the same type. -/
def SpecMessage.RequiredBy (message other : SpecMessage) : Prop :=
  ∀ name parameter, message.parametersName.lookup name = some parameter →
    parameter.required = true →
    ∃ theirs, other.parametersName.lookup name = some theirs ∧ theirs.required = true
      ∧ theirs.field.id = parameter.field.id ∧ theirs.field.type.id = parameter.field.type.id

/-- The enumeration names of one message stand for the same values in the fields of the other one, but
names for zero that the other one lacks.
-/
def SpecMessage.EnumsLead (message other : SpecMessage) : Prop :=
  ∀ name own theirs, message.parametersName.lookup name = some own →
    other.parametersName.lookup name = some theirs → own.field.type.id = P7Type.enum.id →
    ∀ text value, own.field.enumsName.lookup text = some value →
      value ≠ 0 ∨ (theirs.field.enumsName.lookup text).isSome = true →
      theirs.field.enumsName.lookup text = some value

/-- A field that both messages have is compatible if its id, its type and its enumeration names are. -/
theorem fieldIsCompatible_eq_ok {message : SpecMessage} {field other : SpecField}
    : fieldIsCompatible message field other = .ok ()
      ↔ field.id = other.id ∧ field.type.id = other.type.id
        ∧ (field.type.id = P7Type.enum.id → ∀ name ∈ field.enumsName.keys,
          field.enumValue name = other.enumValue name) := by
  unfold fieldIsCompatible
  split_ifs with id type enum
  · exact iff_of_false nofun fun all => id all.1
  · exact iff_of_false nofun fun all => type all.2.1
  · rw [Fallible.forM_eq_ok, and_iff_right (not_not.mp id), and_iff_right (not_not.mp type),
      imp_iff_right enum]
    simp only [enumIsCompatible, ite_eq_right_iff, reduceCtorEq, imp_false, not_not]
  · exact iff_of_true rfl ⟨not_not.mp id, not_not.mp type, fun isEnum => absurd isEnum enum⟩

/-- A parameter is compatible if the peer has it as it is required, and the field is. -/
theorem parameterIsCompatible_eq_ok {message : SpecMessage} {parameter : SpecParameter}
    {other : Option SpecParameter}
    (compatible : parameterIsCompatible message parameter other = .ok ())
    : (parameter.required = true → ∃ theirs, other = some theirs ∧ theirs.required = true)
      ∧ ∀ theirs, other = some theirs →
        fieldIsCompatible message parameter.field theirs.field = .ok () := by
  cases other with
  | none =>
      unfold parameterIsCompatible at compatible
      split_ifs at compatible with required
      exact ⟨fun isRequired => absurd isRequired required, nofun⟩
  | some theirs =>
      dsimp only [parameterIsCompatible] at compatible
      split_ifs at compatible with lacks
      refine ⟨fun required => ⟨theirs, rfl, ?_⟩, fun _ same => Option.some.inj same ▸ compatible⟩
      rw [required, Bool.true_and, Bool.not_eq_true', Bool.not_eq_false] at lacks
      exact lacks

/-- What the check of a message ensures. -/
theorem messageIsCompatible_eq_ok {message other : SpecMessage}
    (compatible : messageIsCompatible message other = .ok ())
    : message.name = other.name ∧ message.id = other.id
      ∧ ∀ name parameter, message.parametersName.lookup name = some parameter →
        parameterIsCompatible message parameter (other.parametersName.lookup name) = .ok () := by
  unfold messageIsCompatible at compatible
  split_ifs at compatible with name id
  refine ⟨not_not.mp name, not_not.mp id, fun key parameter found => ?_⟩
  exact Fallible.forM_eq_ok.mp compatible ⟨key, parameter⟩ (AList.mem_lookup_iff.mp found)

/-- A message that is compatible has what is required of it. -/
theorem requiredBy_of_messageIsCompatible {message other : SpecMessage}
    (compatible : messageIsCompatible message other = .ok ())
    : message.RequiredBy other := by
  intro name parameter found required
  have checked := (messageIsCompatible_eq_ok compatible).2.2 name parameter found
  obtain ⟨theirs, listed, isRequired⟩ := (parameterIsCompatible_eq_ok checked).1 required
  obtain ⟨id, type, -⟩ := fieldIsCompatible_eq_ok.mp
    ((parameterIsCompatible_eq_ok checked).2 theirs listed)
  exact ⟨theirs, listed, isRequired, id.symm, type.symm⟩

/-- A message that is compatible reads the enumeration names alike, as long as none reads as missing. -/
theorem enumsLead_of_messageIsCompatible {message other : SpecMessage}
    (compatible : messageIsCompatible message other = .ok ())
    : message.EnumsLead other := by
  intro name own theirs found listed isEnum text value bound present
  have checked := (messageIsCompatible_eq_ok compatible).2.2 name own found
  obtain ⟨-, -, enums⟩ := fieldIsCompatible_eq_ok.mp
    ((parameterIsCompatible_eq_ok checked).2 theirs listed)
  have key : text ∈ own.field.enumsName :=
    AList.lookup_isSome.mp (bound ▸ rfl)
  have same := enums isEnum text key
  rw [SpecField.enumValue, SpecField.enumValue, bound, Option.getD_some] at same
  cases there : theirs.field.enumsName.lookup text with
  | none =>
      rw [there, Option.getD_none] at same
      rw [there] at present
      rcases present with nonzero | ⟨⟨⟩⟩
      exact absurd same nonzero
  | some other =>
      rw [there, Option.getD_some] at same
      rw [same]

-----------------------------------------------------------------------------------------
-- Replies
-----------------------------------------------------------------------------------------

/-- No group of replies has two replies with one message. -/
inductive AndOr.RepliesDistinct : AndOr → Prop where
  | group {type : AndOrType} {replies : List Reply} {children : List AndOr}
      (names : (replies.map (·.message.name)).Nodup)
      (distinct : ∀ child ∈ children, child.RepliesDistinct)
      : RepliesDistinct (.group type replies children)

section Loading

variable {builtin : Option Spec} {spec : Spec} {transaction : String}

mutual

/-- The groups of replies that are loaded have no reply twice. -/
theorem repliesDistinct_andorWithNode {type : AndOrType} {andor : AndOr}
    : {node : XmlNode} → andorWithNode builtin spec transaction type node = .ok andor →
      andor.RepliesDistinct
  | .element _ _ _, loaded => by
      rw [andorWithNode] at loaded
      have none : ∀ group ∈ ([] : List AndOr), group.RepliesDistinct := nofun
      exact repliesDistinct_andorWithNodes (by simp) none loaded

/-- The rounds over the children of a group keep its replies distinct. -/
theorem repliesDistinct_andorWithNodes {type : AndOrType} {replies : List Reply}
    {groups : List AndOr} {andor : AndOr}
    (names : (replies.map (·.message.name)).Nodup)
    (distinct : ∀ group ∈ groups, group.RepliesDistinct)
    : {nodes : List XmlNode} →
      andorWithNodes builtin spec transaction type replies groups nodes = .ok andor →
      andor.RepliesDistinct
  | [], loaded => by
      rw [andorWithNodes] at loaded
      cases loaded
      exact .group names distinct
  | node :: rest, loaded => by
      rw [andorWithNodes] at loaded
      have added : ∀ {child : AndOr}, child.RepliesDistinct →
          ∀ group ∈ groups ++ [child], group.RepliesDistinct := by
        intro child own group mem
        rcases List.mem_append.mp mem with old | new
        · exact distinct group old
        · exact List.mem_singleton.mp new ▸ own
      split_ifs at loaded
      · exact repliesDistinct_andorWithNodes names distinct loaded
      · obtain ⟨reply, -, loaded⟩ := Fallible.bind_eq_ok.mp loaded
        split_ifs at loaded with duplicate
        refine repliesDistinct_andorWithNodes ?_ distinct loaded
        rw [List.map_append, List.nodup_append]
        refine ⟨names, List.nodup_singleton _, fun name mem other single => ?_⟩
        rintro rfl
        obtain ⟨known, member, same⟩ := List.mem_map.mp mem
        cases List.mem_singleton.mp single
        exact duplicate (List.any_eq_true.mpr ⟨known, member, by simpa using same⟩)
      · obtain ⟨child, built, loaded⟩ := Fallible.bind_eq_ok.mp loaded
        exact repliesDistinct_andorWithNodes names
          (added (repliesDistinct_andorWithNode built)) loaded
      · obtain ⟨child, built, loaded⟩ := Fallible.bind_eq_ok.mp loaded
        exact repliesDistinct_andorWithNodes names
          (added (repliesDistinct_andorWithNode built)) loaded

end

/-- A transaction that is loaded has no reply twice in a group. -/
theorem repliesDistinct_transactionWithNode {node : XmlNode} {transaction : Transaction}
    (built : transactionWithNode builtin spec node = .ok transaction)
    : transaction.andor.RepliesDistinct := by
  unfold transactionWithNode at built
  split at built
  · cases built
  · split at built
    · cases built
    · split at built
      · cases built
      · split at built
        · cases built
        · obtain ⟨required, -, built⟩ := Fallible.bind_eq_ok.mp built
          obtain ⟨andor, loaded, built⟩ := Fallible.bind_eq_ok.mp built
          cases built
          exact repliesDistinct_andorWithNode loaded

/-- A step of the loader leaves the transactions, or enters one. -/
theorem Loads.transactionsName_cases {next : Spec} {kind : String} {node : XmlNode}
    (loads : Loads builtin spec kind node next)
    : next.transactionsName = spec.transactionsName
      ∨ ∃ transaction, transactionWithNode builtin spec node = .ok transaction
        ∧ next.transactionsName
          = spec.transactionsName.insert transaction.message.name transaction := by
  cases loads with
  | transaction loaded =>
      obtain ⟨transaction, built, -, rfl⟩ := loadTransaction_cases loaded
      exact .inr ⟨transaction, built, rfl⟩
  | type loaded =>
      obtain ⟨type, -, -, -, rfl⟩ := loadType_cases loaded
      exact .inl rfl
  | field loaded =>
      obtain ⟨field, -, -, -, -, rfl⟩ := loadField_cases loaded
      exact .inl rfl
  | collection loaded =>
      obtain ⟨collection, -, -, rfl⟩ := loadCollection_cases loaded
      exact .inl rfl
  | message loaded =>
      obtain ⟨message, -, -, -, -, rfl⟩ := loadMessage_cases loaded
      exact .inl rfl
  | broadcast loaded =>
      obtain ⟨broadcast, -, -, rfl⟩ := loadBroadcast_cases loaded
      exact .inl rfl

/-- The transactions of a specification that is loaded have no reply twice in a group. -/
theorem repliesDistinct_of_loadSpec {originator : Originator} {root : XmlNode}
    (loaded : loadSpec builtin originator root = .ok spec)
    : ∀ name transaction, spec.transactionsName.lookup name = some transaction →
      transaction.andor.RepliesDistinct := by
  refine loadSpec_preserves (fun spec => ∀ name transaction,
    spec.transactionsName.lookup name = some transaction → transaction.andor.RepliesDistinct)
    ?_ ?_ loaded
  · intro part state item following _ _ kept loads name other found
    obtain same | ⟨transaction, built, entered⟩ := loads.transactionsName_cases
    · exact kept name other (same ▸ found)
    · rw [entered] at found
      by_cases same : name = transaction.message.name
      · rw [same, AList.lookup_insert] at found
        cases found
        exact repliesDistinct_transactionWithNode built
      · rw [AList.lookup_insert_ne same] at found
        exact kept name other found
  · intro name version other transaction found
    simp [Spec.empty] at found

end Loading

/-- The transactions that a program can hold have no reply twice in a group. -/
theorem Spec.Loaded.repliesDistinct {spec : Spec} (loaded : spec.Loaded) {name : String}
    {transaction : Transaction} (found : spec.transactionsName.lookup name = some transaction)
    : transaction.andor.RepliesDistinct := by
  cases loaded with
  | builtin => exact repliesDistinct_of_loadSpec builtinSpec_loaded name transaction found
  | document loaded => exact repliesDistinct_of_loadSpec loaded name transaction found

/-- The messages of two replies with one name, at the same place of two groups of replies. -/
inductive SharedReply : AndOr → AndOr → SpecMessage → SpecMessage → Prop where
  | same {type otherType : AndOrType} {replies others : List Reply}
      {children otherChildren : List AndOr} {reply other : Reply} (mem : reply ∈ replies)
      (otherMem : other ∈ others) (names : reply.message.name = other.message.name)
      : SharedReply (.group type replies children) (.group otherType others otherChildren)
          reply.message other.message
  | nested {type otherType : AndOrType} {replies others : List Reply}
      {children otherChildren : List AndOr} {child otherChild : AndOr}
      {message other : SpecMessage} (mem : (child, otherChild) ∈ children.zip otherChildren)
      (shared : SharedReply child otherChild message other)
      : SharedReply (.group type replies children) (.group otherType others otherChildren)
          message other

section Replies

variable {transaction : Transaction}

/-- A reply of the peer that is compatible has a compatible message. -/
theorem messageIsCompatible_of_reply {reply other : Reply}
    (compatible : replyIsCompatible transaction false reply (some other) = .ok ())
    : messageIsCompatible reply.message other.message = .ok () := by
  simp only [replyIsCompatible, Bool.false_eq_true, if_false] at compatible
  split_ifs at compatible
  exact compatible

/-- Every reply is compared with one of the peer: a required one with a required one, and another one
with the reply of its name.
-/
theorem replyIsCompatible_of_mem {others rest replies : List Reply} (subset : rest ⊆ others)
    (compatible : repliesAreCompatible transaction false others rest replies = .ok ())
    : ∀ reply ∈ replies,
      (reply.required = true → ∃ other ∈ others,
        replyIsCompatible transaction false reply (some other) = .ok ())
      ∧ (reply.required = false → replyIsCompatible transaction false reply
        (others.find? (·.message.name = reply.message.name)) = .ok ()) := by
  induction replies generalizing rest with
  | nil => nofun
  | cons first replies ih =>
      unfold repliesAreCompatible at compatible
      split at compatible
      · rename_i required
        split at compatible
        · obtain ⟨⟨⟩, absent, -⟩ := Fallible.bind_eq_ok.mp compatible
          simp [replyIsCompatible, required] at absent
        · rename_i other rest' next
          obtain ⟨⟨⟩, first', later⟩ := Fallible.bind_eq_ok.mp compatible
          have suffix : other :: rest' ⊆ rest := next ▸ (List.dropWhile_suffix _).subset
          have inOthers : other :: rest' ⊆ others := fun _ mem => subset (suffix mem)
          intro reply mem
          rcases List.mem_cons.mp mem with rfl | mem
          · refine ⟨fun _ => ⟨other, inOthers List.mem_cons_self, first'⟩, fun optional => ?_⟩
            rw [required] at optional
            cases optional
          · exact ih (fun _ mem => inOthers (List.mem_cons_of_mem _ mem)) later reply mem
      · rename_i optional
        obtain ⟨⟨⟩, first', later⟩ := Fallible.bind_eq_ok.mp compatible
        intro reply mem
        rcases List.mem_cons.mp mem with rfl | mem
        · exact ⟨fun required => absurd required optional, fun _ => first'⟩
        · exact ih subset later reply mem

/-- Replies of one name, in groups that are compatible, have compatible messages: the one of the peer is
the only one of its name.
-/
theorem messageIsCompatible_of_replies {replies others : List Reply}
    (distinct : (others.map (·.message.name)).Nodup)
    (compatible : repliesAreCompatible transaction false others others replies = .ok ())
    {reply other : Reply} (mem : reply ∈ replies) (otherMem : other ∈ others)
    (same : reply.message.name = other.message.name)
    : messageIsCompatible reply.message other.message = .ok () := by
  have unique : ∀ known ∈ others, known.message.name = other.message.name → known = other :=
    fun known member name => List.inj_on_of_nodup_map distinct member otherMem name
  obtain ⟨required, optional⟩ := replyIsCompatible_of_mem (List.Subset.refl _) compatible reply mem
  cases use : reply.required with
  | true =>
      obtain ⟨known, member, checked⟩ := required use
      have names := (messageIsCompatible_eq_ok (messageIsCompatible_of_reply checked)).1
      obtain rfl := unique known member (names.symm.trans same)
      exact messageIsCompatible_of_reply checked
  | false =>
      have checked := optional use
      cases found : others.find? (·.message.name = reply.message.name) with
      | none =>
          have absent := List.find?_eq_none.mp found other otherMem
          simp [same] at absent
      | some known =>
          rw [found] at checked
          have name : known.message.name = reply.message.name := by
            simpa using List.find?_some found
          obtain rfl := unique known (List.mem_of_find?_eq_some found) (name.trans same)
          exact messageIsCompatible_of_reply checked

/-- Children that are compatible are compatible one by one. -/
theorem andorIsCompatible_of_mem_zip {children others : List AndOr}
    (compatible : andorsAreCompatible transaction children others = .ok ()) {child other : AndOr}
    (mem : (child, other) ∈ children.zip others)
    : andorIsCompatible transaction child other = .ok () := by
  induction children generalizing others with
  | nil => cases mem
  | cons first children ih =>
      cases others with
      | nil => cases mem
      | cons second others =>
          rw [andorsAreCompatible] at compatible
          obtain ⟨⟨⟩, here, later⟩ := Fallible.bind_eq_ok.mp compatible
          rcases List.mem_cons.mp mem with same | mem
          · cases same
            exact here
          · exact ih later mem

/-- Groups are compatible if their replies and their children are. -/
theorem andorIsCompatible_eq_ok {type otherType : AndOrType} {replies others : List Reply}
    {children otherChildren : List AndOr}
    (compatible : andorIsCompatible transaction (.group type replies children)
      (.group otherType others otherChildren) = .ok ())
    : repliesAreCompatible transaction false others others replies = .ok ()
      ∧ andorsAreCompatible transaction children otherChildren = .ok () := by
  rw [andorIsCompatible] at compatible
  split at compatible
  · cases compatible
  · obtain ⟨⟨⟩, checked, compatible⟩ := Fallible.bind_eq_ok.mp compatible
    obtain ⟨⟨⟩, -, compatible⟩ := Fallible.bind_eq_ok.mp compatible
    split at compatible
    · cases compatible
    · exact ⟨checked, compatible⟩

/-- Groups that are compatible share compatible messages, at every depth. -/
theorem messageIsCompatible_of_sharedReply {andor other : AndOr}
    {message otherMessage : SpecMessage} (shared : SharedReply andor other message otherMessage)
    (distinct : other.RepliesDistinct)
    (compatible : andorIsCompatible transaction andor other = .ok ())
    : messageIsCompatible message otherMessage = .ok () := by
  induction shared with
  | same mem otherMem same =>
      obtain ⟨names, -⟩ := distinct
      exact messageIsCompatible_of_replies names (andorIsCompatible_eq_ok compatible).1 mem otherMem
        same
  | nested mem _ ih =>
      obtain ⟨-, below⟩ := distinct
      exact ih (below _ (List.of_mem_zip mem).2)
        (andorIsCompatible_of_mem_zip (andorIsCompatible_eq_ok compatible).2 mem)

end Replies

-----------------------------------------------------------------------------------------
-- Specifications
-----------------------------------------------------------------------------------------

/-- The messages that two specifications exchange: the ones of a transaction or a broadcast that both
have, and the replies of one name at the same place of such a transaction.
-/
inductive Spec.Exchanges (spec other : Spec) : SpecMessage → SpecMessage → Prop where
  | transaction {name : String} {own theirs : Transaction}
      (found : spec.transactionsName.lookup name = some own)
      (listed : other.transactionsName.lookup name = some theirs)
      : Exchanges spec other own.message theirs.message
  | reply {name : String} {own theirs : Transaction} {message otherMessage : SpecMessage}
      (found : spec.transactionsName.lookup name = some own)
      (listed : other.transactionsName.lookup name = some theirs)
      (shared : SharedReply own.andor theirs.andor message otherMessage)
      : Exchanges spec other message otherMessage
  | broadcast {name : String} {own theirs : Broadcast}
      (found : spec.broadcastsName.lookup name = some own)
      (listed : other.broadcastsName.lookup name = some theirs)
      : Exchanges spec other own.message theirs.message

/-- Replies at the same place are replies at the same place for the other side. -/
theorem SharedReply.symm {andor other : AndOr} {message otherMessage : SpecMessage}
    (shared : SharedReply andor other message otherMessage)
    : SharedReply other andor otherMessage message := by
  induction shared with
  | same mem otherMem names => exact .same otherMem mem names.symm
  | nested mem _ ih =>
      refine .nested ?_ ih
      rw [← List.zip_swap]
      exact List.mem_map_of_mem (f := Prod.swap) mem

/-- What is exchanged is exchanged for both sides. -/
theorem Spec.Exchanges.symm {spec other : Spec} {message otherMessage : SpecMessage}
    (exchanges : spec.Exchanges other message otherMessage)
    : other.Exchanges spec otherMessage message := by
  cases exchanges with
  | transaction found listed => exact .transaction listed found
  | reply found listed shared => exact .reply listed found shared.symm
  | broadcast found listed => exact .broadcast listed found

/-- A specification that a check finds compatible has the transactions that are required, from the
same side and required as well.
-/
def Spec.HasRequired (spec other : Spec) : Prop :=
  ∀ name own, spec.transactionsName.lookup name = some own → own.required = true →
    ∃ theirs, other.transactionsName.lookup name = some theirs ∧ theirs.required = true
      ∧ theirs.originator = own.originator

/-- The messages that are exchanged have what is required of them, and lead the enumeration names to the
same values.
-/
def Spec.Understands (spec other : Spec) : Prop :=
  ∀ message otherMessage, spec.Exchanges other message otherMessage →
    message.name = otherMessage.name ∧ message.id = otherMessage.id
    ∧ message.RequiredBy otherMessage ∧ message.EnumsLead otherMessage

section Check

variable {spec other : Spec}

/-- What the check of a transaction ensures. -/
theorem transactionIsCompatible_eq_ok {transaction : Transaction} {theirs : Option Transaction}
    (compatible : transactionIsCompatible transaction theirs = .ok ())
    : (transaction.required = true → ∃ known, theirs = some known ∧ known.required = true
        ∧ known.originator = transaction.originator)
      ∧ ∀ known, theirs = some known →
        messageIsCompatible transaction.message known.message = .ok ()
        ∧ andorIsCompatible transaction transaction.andor known.andor = .ok () := by
  cases theirs with
  | none =>
      dsimp only [transactionIsCompatible] at compatible
      split_ifs at compatible with required
      exact ⟨fun isRequired => absurd isRequired required, nofun⟩
  | some known =>
      dsimp only [transactionIsCompatible] at compatible
      split_ifs at compatible with lacks originator
      obtain ⟨⟨⟩, message, andor⟩ := Fallible.bind_eq_ok.mp compatible
      refine ⟨fun required => ⟨known, rfl, ?_, (not_not.mp originator).symm⟩, fun _ same =>
        Option.some.inj same ▸ ⟨message, andor⟩⟩
      rw [required, Bool.true_and, Bool.not_eq_true', Bool.not_eq_false] at lacks
      exact lacks

/-- The check looks at every transaction and at every broadcast. -/
theorem isCompatibleWithSpec_eq_ok (compatible : spec.isCompatibleWithSpec other = .ok ())
    : (∀ name transaction, spec.transactionsName.lookup name = some transaction →
        transactionIsCompatible transaction (other.transactionsName.lookup name) = .ok ())
      ∧ ∀ name broadcast, spec.broadcastsName.lookup name = some broadcast →
        broadcastIsCompatible broadcast (other.broadcastsName.lookup name) = .ok () := by
  obtain ⟨⟨⟩, transactions, broadcasts⟩ := Fallible.bind_eq_ok.mp compatible
  constructor
  · intro name transaction found
    exact Fallible.forM_eq_ok.mp transactions ⟨name, transaction⟩ (AList.mem_lookup_iff.mp found)
  · intro name broadcast found
    exact Fallible.forM_eq_ok.mp broadcasts ⟨name, broadcast⟩ (AList.mem_lookup_iff.mp found)

/-- Every message that is exchanged with a compatible peer is compatible. -/
theorem messageIsCompatible_of_exchanges (loaded : other.Loaded)
    (compatible : spec.isCompatibleWithSpec other = .ok ()) {message otherMessage : SpecMessage}
    (exchanges : spec.Exchanges other message otherMessage)
    : messageIsCompatible message otherMessage = .ok () := by
  obtain ⟨transactions, broadcasts⟩ := isCompatibleWithSpec_eq_ok compatible
  cases exchanges with
  | transaction found listed =>
      exact ((transactionIsCompatible_eq_ok (transactions _ _ found)).2 _ listed).1
  | reply found listed shared =>
      exact messageIsCompatible_of_sharedReply shared (loaded.repliesDistinct listed)
        ((transactionIsCompatible_eq_ok (transactions _ _ found)).2 _ listed).2
  | broadcast found listed =>
      have checked := broadcasts _ _ found
      rw [listed] at checked
      exact checked

/-- A specification that finds another one compatible is understood by it. -/
theorem understands_of_isCompatible (loaded : other.Loaded)
    (compatible : spec.isCompatibleWithSpec other = .ok ())
    : spec.Understands other := by
  intro message otherMessage exchanges
  have checked := messageIsCompatible_of_exchanges loaded compatible exchanges
  obtain ⟨name, id, -⟩ := messageIsCompatible_eq_ok checked
  exact ⟨name, id, requiredBy_of_messageIsCompatible checked,
    enumsLead_of_messageIsCompatible checked⟩

/-- A specification that finds the one of a peer compatible gets the transactions that it requires, and
the peer has what it requires of the messages that both have. If the peer finds it compatible as well,
it has what the peer requires, and the enumerations lead the same way for both.
-/
theorem compatible_peers (loaded : spec.Loaded) (otherLoaded : other.Loaded)
    (compatible : spec.isCompatibleWithSpec other = .ok ())
    : spec.HasRequired other ∧ spec.Understands other
      ∧ (other.isCompatibleWithSpec spec = .ok () →
        other.HasRequired spec ∧ other.Understands spec) := by
  have required : ∀ {spec other : Spec}, spec.isCompatibleWithSpec other = .ok () →
      spec.HasRequired other := fun compatible name own found isRequired =>
    (transactionIsCompatible_eq_ok ((isCompatibleWithSpec_eq_ok compatible).1 name own found)).1
      isRequired
  exact ⟨required compatible, understands_of_isCompatible otherLoaded compatible,
    fun back => ⟨required back, understands_of_isCompatible loaded back⟩⟩

/-- The builtin specification is compatible with itself. -/
theorem compatible_peers_builtin
    : builtinSpec.HasRequired builtinSpec ∧ builtinSpec.Understands builtinSpec := by
  have checked : (builtinSpec.isCompatibleWithSpec builtinSpec).isOk = true := by
    unfold builtinSpec
    decide +kernel
  obtain ⟨⟨⟩, compatible⟩ := Fallible.exists_ok_of_isOk checked
  obtain ⟨required, understands, -⟩ := compatible_peers .builtin .builtin compatible
  exact ⟨required, understands⟩

/-- A document with a broadcast whose message has one field, or none. -/
def broadcastDocument (parameters : List (String × Bool)) : XmlNode :=
  .element "protocol" [("name", "Broadcasts"), ("version", "1.0")]
    [
      .element "fields" [] [fieldNode "broadcast.field" "uint32" "1000" []],
      .element "messages" [] [messageNode "broadcast.message" "1000" parameters],
      .element "broadcasts" [] [.element "broadcast" [("message", "broadcast.message")] []]
    ]

/-- The peer requires a field of the message that the message does not have on this side. -/
def lacksRequired (spec other : Spec) : Bool :=
  match spec.broadcastsName.lookup "broadcast.message",
    other.broadcastsName.lookup "broadcast.message" with
  | some own, some theirs =>
      (own.message.parametersName.lookup "broadcast.field").isNone
        && (theirs.message.parametersName.lookup "broadcast.field").any (·.required)
  | _, _ => false

/-- A server whose broadcast has no field finds a peer compatible that requires one of it. -/
theorem not_requiredBy_broadcast
    : ∃ spec other, loadSpec (some builtinSpec) .server (broadcastDocument []) = .ok spec
      ∧ loadSpec (some builtinSpec) .client (broadcastDocument [("broadcast.field", true)]) = .ok other
      ∧ spec.isCompatibleWithSpec other = .ok ()
      ∧ ∃ message otherMessage, spec.Exchanges other message otherMessage
        ∧ ¬otherMessage.RequiredBy message := by
  have evaluated : (loadSpec (some builtinSpec) .server (broadcastDocument []) >>= fun spec =>
      loadSpec (some builtinSpec) .client (broadcastDocument [("broadcast.field", true)]) >>=
        fun other => .ok ((spec.isCompatibleWithSpec other).isOk && lacksRequired spec other))
      = .ok true := by
    unfold builtinSpec
    decide +kernel
  obtain ⟨spec, loaded, evaluated⟩ := Fallible.bind_eq_ok.mp evaluated
  obtain ⟨other, otherLoaded, evaluated⟩ := Fallible.bind_eq_ok.mp evaluated
  obtain ⟨checked, lacks⟩ := Bool.and_eq_true_iff.mp (Except.ok.inj evaluated)
  obtain ⟨⟨⟩, compatible⟩ := Fallible.exists_ok_of_isOk checked
  refine ⟨spec, other, loaded, otherLoaded, compatible, ?_⟩
  unfold lacksRequired at lacks
  split at lacks
  · rename_i own theirs found listed
    obtain ⟨absent, present⟩ := Bool.and_eq_true_iff.mp lacks
    refine ⟨own.message, theirs.message, .broadcast found listed, fun requiredBy => ?_⟩
    obtain ⟨parameter, here, required⟩ := (Option.any_eq_true _ _).mp present
    obtain ⟨known, there, -⟩ := requiredBy _ parameter here required
    rw [there] at absent
    cases absent
  · cases lacks

end Check

end WiredServer.P7
