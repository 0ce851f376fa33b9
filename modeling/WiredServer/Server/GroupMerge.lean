import WiredServer.Server.AccountPrivileges

/-! What an account gets from its group: privileges, limits, the files directory and the colour. The
merge reads every value that the account has as a number, which is right exactly for an account that
has neither a group nor a files directory of its own and no colour but a number.
-/

namespace WiredServer.Server

open FieldAccount

-----------------------------------------------------------------------------------------
-- What a merge should do
-----------------------------------------------------------------------------------------

/-- A value that number accessors may read. -/
def FieldType.isNumber : (type : FieldType) → type.Value → Bool
  | .number, _ => true
  | .boolean, _ => true
  | .enum, .number _ => true
  | .enum, .name _ => false
  | .string, _ => false
  | .date, _ => false
  | .list, _ => false

/-- A privilege is the disjunction of the two, a limit the user's unless it is 0, the files directory and
the colour are the user's own when set, all else is left as it is, only numbers are read as numbers,
and merging once more changes nothing.
-/
structure Account.MergesRight (userAccount groupAccount : Account) : Prop where
  others : ∀ memory field, field = .name ∨ field.isFor privilege = false → field ≠ .files →
    field ≠ .color →
    (userAccount.overridePrivileges memory groupAccount).values field = userAccount.values field
  booleans : ∀ memory field, field.isFor privilege = true → field.type = .boolean →
    (userAccount.overridePrivileges memory groupAccount).boolean field
      = (userAccount.boolean field || groupAccount.boolean field)
  numbers : ∀ memory field, field.isFor privilege = true → field.type = .number →
    (userAccount.overridePrivileges memory groupAccount).number field
      = if userAccount.number field ≠ 0 then userAccount.number field
        else groupAccount.number field
  files : ∀ memory, (userAccount.overridePrivileges memory groupAccount).values .files
    = (userAccount.values .files).or (groupAccount.values .files)
  color : ∀ memory, (userAccount.overridePrivileges memory groupAccount).values .color
    = (userAccount.values .color).or (groupAccount.values .color)
  accessors : ∀ field value, field.isOverridden = true → userAccount.values field = some value →
    field.type.isNumber value = true
  again : ∀ memory memory',
    (userAccount.overridePrivileges memory groupAccount).overridePrivileges memory' groupAccount
      = userAccount.overridePrivileges memory groupAccount

/-- A user's row has no text where the merge reads numbers, and a colour that is not 0 unless the group
has no other one.
-/
structure Row.HasNumbersOnly (userRow groupRow : Row) : Prop where
  files : userRow.columns .files = none
  group : userRow.columns .group = none
  groups : userRow.columns .groups = none
  color : ∀ color, userRow.columns .color = some color →
    ∃ number, color = .number number
      ∧ (number = 0 → ∀ other, groupRow.columns .color = some other → other = .number 0)

-----------------------------------------------------------------------------------------
-- Merging one field
-----------------------------------------------------------------------------------------

section Fields

variable {type : FieldType} {value : type.Value} {group : Option type.Value}

/-- What a field holds after a merge. -/
theorem Account.values_overridePrivileges (memory : AccountField → Bool)
    (userAccount groupAccount : Account) (field : AccountField)
    : (userAccount.overridePrivileges memory groupAccount).values field
      = if field.isOverridden then
          field.type.merge (memory field) (userAccount.values field) (groupAccount.values field)
        else userAccount.values field := by
  simp only [overridePrivileges]
  split
  · cases userAccount.values field <;> rfl
  · rfl

/-- Numbers are read as they are. -/
theorem FieldType.numberBool_of_isNumber (number : type.isNumber value = true)
    (memory memory' : Bool)
    : type.numberBool memory value = type.numberBool memory' value := by
  cases type with
  | number | boolean => rfl
  | enum =>
      cases value with
      | name => cases number
      | number => rfl
  | string | date | list => cases number

/-- A second merge with the same group finds a number that it keeps, or the group's value. -/
theorem FieldType.merge_merge {userValue : Option type.Value}
    (number : ∀ value, userValue = some value → type.isNumber value = true)
    (memory memory' : Bool)
    : type.merge memory' (type.merge memory userValue group) group
      = type.merge memory userValue group := by
  cases userValue with
  | none =>
      cases group with
      | none => rfl
      | some other => simp [merge]
  | some value =>
      have same := numberBool_of_isNumber (number value rfl) memory' memory
      cases set : type.numberBool memory value with
      | true => simp only [merge, same, set, if_true]
      | false =>
          cases group with
          | none => simp [merge, same, set]
          | some other => simp [merge, set]

/-- A numeric field that fits into 32 bits keeps the user's number unless it is 0. -/
theorem FieldType.asNumber_merge_small (number : type = .number) {userValue : Option type.Value}
    (small : 0 ≤ type.asNumber userValue ∧ type.asNumber userValue < 2 ^ 32) (memory : Bool)
    : type.asNumber (type.merge memory userValue group)
      = if type.asNumber userValue ≠ 0 then type.asNumber userValue
        else type.asNumber group := by
  subst number
  cases userValue with
  | none => rfl
  | some value =>
      change 0 ≤ value ∧ value < 2 ^ 32 at small
      have whole : value % 2 ^ 32 = value := Int.emod_eq_of_lt small.1 small.2
      change asNumber .number (if decide (value % 2 ^ 32 ≠ 0) = true then some value
        else group.or (some value)) = if value ≠ 0 then value else asNumber .number group
      simp only [whole, decide_eq_true_eq]
      by_cases zero : value = 0
      · cases group with
        | none => simp [zero, asNumber]
        | some other => simp [zero]
      · simp [zero, asNumber]

end Fields

-----------------------------------------------------------------------------------------
-- Merging rows
-----------------------------------------------------------------------------------------

/-- The values of an account from the database. -/
theorem Row.values_account (row : Row) (field : AccountField)
    : row.account.values field = (row.columns field).map field.type.fromColumn :=
  rfl

/-- The numbers of a row fit into 32 bits. -/
theorem Row.number_small (row : Row) {field : AccountField} (number : field.type = .number)
    : 0 ≤ row.account.number field ∧ row.account.number field < 2 ^ 32 := by
  have small : ∀ (type : FieldType) (column : Option type.Column), type = .number →
      0 ≤ type.asNumber (column.map type.fromColumn)
        ∧ type.asNumber (column.map type.fromColumn) < 2 ^ 32 := by
    rintro type column rfl
    cases column with
    | none => exact ⟨le_refl 0, by decide⟩
    | some column =>
        have below := column.isLt
        change 0 ≤ (column.toNat : ℤ) ∧ (column.toNat : ℤ) < 2 ^ 32
        omega
  exact small field.type (row.columns field) number

/-- The merge looks at privileges other than the name, at the files directory and at the colour. -/
theorem AccountField.isOverridden_iff (field : AccountField)
    : field.isOverridden = true
      ↔ (field ≠ .name ∧ field.isFor privilege = true) ∨ field = .files ∨ field = .color := by
  simp [isOverridden, or_assoc]

/-- What the merge looks at is a boolean, a number, the group, the groups, the files directory or the
colour.
-/
theorem AccountField.type_of_isOverridden {field : AccountField}
    (overridden : field.isOverridden = true)
    : field.type = .boolean ∨ field.type = .number ∨ field = .group ∨ field = .groups
      ∨ field = .files ∨ field = .color := by
  revert overridden
  cases field <;> decide

section Rows

variable {userRow groupRow : Row}

/-- A row that has numbers only gives numbers to the accessors. -/
theorem Row.HasNumbersOnly.isNumber (numbers : userRow.HasNumbersOnly groupRow)
    {field : AccountField} (overridden : field.isOverridden = true) {value : field.type.Value}
    (here : userRow.account.values field = some value)
    : field.type.isNumber value = true := by
  obtain ⟨column, stored, rfl⟩ := Option.map_eq_some_iff.mp here
  have plain : ∀ (type : FieldType) (value : type.Value), type = .boolean ∨ type = .number →
      type.isNumber value = true := by
    rintro type value (rfl | rfl) <;> rfl
  rcases AccountField.type_of_isOverridden overridden
    with boolean | number | rfl | rfl | rfl | rfl
  · exact plain _ _ (.inl boolean)
  · exact plain _ _ (.inr number)
  · rw [numbers.group] at stored
    cases stored
  · rw [numbers.groups] at stored
    cases stored
  · rw [numbers.files] at stored
    cases stored
  · obtain ⟨bits, rfl, -⟩ := numbers.color column stored
    rfl

/-- A row that has numbers only keeps its colour, or takes the group's if it has none. -/
theorem Row.HasNumbersOnly.color_merge (numbers : userRow.HasNumbersOnly groupRow) (memory : Bool)
    : FieldType.merge memory .enum (userRow.account.values .color) (groupRow.account.values .color)
      = (userRow.account.values .color).or (groupRow.account.values .color) := by
  cases stored : userRow.columns .color with
  | none =>
      have absent : userRow.account.values .color = none := by
        rw [Row.values_account, stored]
        rfl
      rw [absent]
      rfl
  | some color =>
      obtain ⟨bits, rfl, zero⟩ := numbers.color color stored
      have here : userRow.account.values .color = some (.number bits) := by
        rw [Row.values_account, stored]
        rfl
      rw [here, Option.some_or]
      simp only [FieldType.merge, FieldType.numberBool, decide_eq_true_iff]
      split
      · rfl
      · rename_i unset
        have none : bits = 0 := not_not.mp unset
        cases other : groupRow.columns .color with
        | none =>
            have absent : groupRow.account.values .color = Option.none := by
              rw [Row.values_account, other]
              rfl
            rw [absent]
            rfl
        | some value =>
            have there : groupRow.account.values .color = some value := by
              rw [Row.values_account, other]
              rfl
            rw [there, zero none value other, none]
            rfl

/-- A merge does what it should, for accounts from the database, exactly when the user's row has numbers
only.
-/
theorem Row.mergesRight_iff (userRow groupRow : Row)
    : userRow.account.MergesRight groupRow.account ↔ userRow.HasNumbersOnly groupRow := by
  constructor
  · intro right
    have absent : ∀ field : AccountField, field.isOverridden = true →
        (∀ value, field.type.isNumber value = false) → userRow.columns field = none := by
      intro field overridden never
      cases stored : userRow.columns field with
      | none => rfl
      | some column =>
          have here : userRow.account.values field = some (field.type.fromColumn column) := by
            rw [Row.values_account, stored]
            rfl
          have number := right.accessors field _ overridden here
          rw [never] at number
          cases number
    refine ⟨absent .files rfl fun _ => rfl, absent .group rfl fun _ => rfl,
      absent .groups rfl fun _ => rfl, fun color stored => ?_⟩
    have here : userRow.account.values .color = some color := by
      rw [Row.values_account, stored]
      rfl
    cases color with
    | name name =>
        have number := right.accessors .color _ rfl here
        cases number
    | number bits =>
        refine ⟨bits, rfl, fun zero other there => ?_⟩
        have kept := right.color fun _ => false
        have groups : groupRow.account.values .color = some other := by
          rw [Row.values_account, there]
          rfl
        rw [Account.values_overridePrivileges, here, groups, zero] at kept
        exact Option.some.inj kept
  · intro numbers
    refine ⟨fun memory field outside files color => ?_, fun memory field isFor boolean => ?_,
      fun memory field isFor number => ?_, fun memory => ?_, fun memory => ?_,
      fun field value overridden here => numbers.isNumber overridden here,
      fun memory memory' => ?_⟩
    · rw [Account.values_overridePrivileges, if_neg]
      rw [AccountField.isOverridden_iff]
      rintro (⟨named, isFor⟩ | rfl | rfl)
      · rcases outside with name | notFor
        · exact named name
        · rw [isFor] at notFor
          cases notFor
      · exact files rfl
      · exact color rfl
    · have overridden : field.isOverridden = true := by
        refine (AccountField.isOverridden_iff field).mpr (.inl ⟨?_, isFor⟩)
        rintro rfl
        cases boolean
      rw [Account.boolean, Account.values_overridePrivileges, if_pos overridden]
      exact FieldType.asBoolean_merge _ _ _ _
    · have overridden : field.isOverridden = true := by
        refine (AccountField.isOverridden_iff field).mpr (.inl ⟨?_, isFor⟩)
        rintro rfl
        cases number
      rw [Account.number, Account.values_overridePrivileges, if_pos overridden]
      exact FieldType.asNumber_merge_small number (userRow.number_small number) _
    · have absent : userRow.account.values .files = none := by
        rw [Row.values_account, numbers.files]
        rfl
      rw [Account.values_overridePrivileges, absent]
      rfl
    · rw [Account.values_overridePrivileges]
      exact numbers.color_merge _
    · apply Account.ext
      funext field
      rw [Account.values_overridePrivileges, Account.values_overridePrivileges]
      split
      · rename_i overridden
        exact FieldType.merge_merge (fun value here => numbers.isNumber overridden here) _ _
      · rfl

/-- The row of a user who belongs to a group. -/
def memberRow : Row where
  columns field :=
    match field with
    | .name => some "carol"
    | .group => some "staff"
    | _ => none
  newName := rfl

/-- The row of a group that may list accounts. -/
def staffRow : Row where
  columns field :=
    match field with
    | .name => some "staff"
    | .accountListAccounts => some true
    | _ => none
  newName := rfl

/-- The merge reads the name of a user's group as a number. -/
theorem not_mergesRight_member
    : ¬memberRow.account.MergesRight staffRow.account := by
  intro right
  have number := right.accessors .group "staff" rfl (by decide)
  cases number

end Rows

end WiredServer.Server
