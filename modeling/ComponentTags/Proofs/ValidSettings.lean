import ComponentTags.Settings.Loading

/-!
# Settings that meet the rules

A schema has no issue with exactly the values that it admits, so the checker of the library may stand for any that
respects schemas. What the settings of a project look like is read off the schema that admits them.
-/

namespace ComponentTags.Settings

namespace Schema

variable {schema items : Schema} {kinds : List Kind} {minLength : Nat} {required known : List String} {name : String}
  {properties : List (String × Schema)} {fields : Fields} {v : Value}

/-! ## What leaves no issue -/

theorem kindIssues_eq_nil_iff : Kind.issues kinds v = [] ↔ ∃ kind ∈ kinds, kind.accepts v = true := by
  rw [Kind.issues, ← List.any_eq_true]
  split
  · rename_i h
    simp [h]
  · rename_i h
    simp [h]

theorem shortIssues_eq_nil_iff : shortIssues minLength v = [] ↔ ∀ s, v = .text s → minLength ≤ s.length := by
  cases v with
  | text s =>
    have htext : (∀ s', Value.text s = .text s' → minLength ≤ s'.length) ↔ minLength ≤ s.length := by simp
    rw [htext, shortIssues]
    split
    · rename_i hs
      exact iff_of_true rfl hs
    · rename_i hs
      split <;> exact iff_of_false (List.cons_ne_nil _ _) hs
  | null | bool | int | float | moment | list | object => simp [shortIssues]

theorem unknownIssues_eq_nil_iff :
    unknownIssues known v = [] ↔ ∀ key ∈ v.fields.keys, ∃ name ∈ known, key = .text name := by
  have sorted {l : List Key} {le : Key → Key → Bool} : l.mergeSort le = [] ↔ l = [] := by
    rw [← List.length_eq_zero_iff, List.length_mergeSort, List.length_eq_zero_iff]
  have unknown : v.fields.keys.filter (fun key => !known.any fun name => key = .text name) = [] ↔
      ∀ key ∈ v.fields.keys, ∃ name ∈ known, key = .text name := by
    simp [List.filter_eq_nil_iff]
  rw [← unknown, ← sorted]
  simp only [unknownIssues]
  split
  · rename_i h
    exact ⟨fun _ => h, fun _ => rfl⟩
  · rename_i hne
    exact ⟨fun h => (by cases h), fun h => absurd h hne⟩

theorem missingIssues_eq_nil_iff :
    missingIssues (.object fields) name = [] ↔ ∃ inner, Assoc.get? fields (.text name) = some inner := by
  have hget : (Value.object fields).get? (.text name) = Assoc.get? fields (.text name) := rfl
  rw [missingIssues, hget]
  cases Assoc.get? fields (.text name) <;> simp [Value.isObject]

theorem itemIssues_eq_nil_iff {check : Value → List Issue} {position : Nat} {values : List Value} :
    itemIssues check position values = [] ↔ ∀ v ∈ values, check v = [] := by
  induction values generalizing position with
  | nil => simp [itemIssues]
  | cons v rest ih => simp [itemIssues, ih]

mutual

/-- A schema has no issue with the values that it admits, and with no others. -/
theorem issues_eq_nil_iff : (schema : Schema) → (v : Value) → (schema.issues v = [] ↔ schema.Admits v)
  | atom kinds minLength, v => by
    rw [issues, Admits, List.append_eq_nil_iff, kindIssues_eq_nil_iff, shortIssues_eq_nil_iff]
  | list items, v => by
    rw [issues, Admits, List.append_eq_nil_iff, kindIssues_eq_nil_iff]
    cases v with
    | list values => simp [listIssues, itemIssues_eq_nil_iff, Kind.accepts, issues_eq_nil_iff items]
    | null | bool | int | float | moment | text | object => simp [Kind.accepts]
  | record required properties, v => by
    rw [issues, Admits, List.append_eq_nil_iff, List.append_eq_nil_iff, List.append_eq_nil_iff,
      kindIssues_eq_nil_iff, unknownIssues_eq_nil_iff, List.flatMap_eq_nil_iff]
    cases v with
    | object fields =>
      simp [Kind.accepts, missingIssues_eq_nil_iff, propertyIssues_eq_nil_iff fields properties, Value.fields,
        and_assoc]
    | null | bool | int | float | moment | text | list => simp [Kind.accepts]

theorem propertyIssues_eq_nil_iff (fields : Fields) :
    (properties : List (String × Schema)) →
      (propertyIssues (.object fields) properties = [] ↔ AdmitsFields fields properties)
  | [] => by simp [propertyIssues, AdmitsFields]
  | (name, property) :: rest => by
    have hget : (Value.object fields).get? (.text name) = Assoc.get? fields (.text name) := rfl
    rw [propertyIssues, AdmitsFields, List.append_eq_nil_iff, propertyIssues_eq_nil_iff fields rest, hget]
    cases Assoc.get? fields (.text name) with
    | none => simp
    | some inner => simp [issues_eq_nil_iff property]

end

/-! ## What is admitted -/

theorem admitsFields_iff : AdmitsFields fields properties ↔
    ∀ property ∈ properties, ∀ inner, Assoc.get? fields (.text property.1) = some inner →
      property.2.Admits inner := by
  induction properties with
  | nil => simp [AdmitsFields]
  | cons property rest ih => simp [AdmitsFields, ih]

theorem label_admits_iff : label.Admits v ↔ ∃ s, v = .text s ∧ s ≠ "" := by
  rw [label, Admits]
  cases v with
  | text s => simp [Kind.accepts, Nat.one_le_iff_ne_zero]
  | null | bool | int | float | moment | list | object => simp [Kind.accepts]

/-- The field of an admitted record that a property is about. -/
theorem property_admits (property : Schema) (h : (record required properties).Admits (.object fields))
    (hproperty : (name, property) ∈ properties) {inner : Value} (hget : Assoc.get? fields (.text name) = some inner) :
    property.Admits inner := by
  obtain ⟨own, hown, -, -, hfields⟩ := h
  cases hown
  exact admitsFields_iff.1 hfields _ hproperty inner hget

end Schema

/-! ## Admitted settings -/

variable {fields : Fields} {v : Value}

/-- The rules admit the settings. -/
def Admitted (fields : Fields) : Prop :=
  Schema.settings.Admits (.object fields)

/-- The prefix of admitted settings is a text. -/
theorem Admitted.prefix_is_text (h : Admitted fields) (hv : Assoc.get? fields "prefix" = some v) :
    ∃ s, v = .text s := by
  obtain ⟨⟨kind, hkind, haccepts⟩, -⟩ := Schema.property_admits (.atom [.text] 0) h (by simp) hv
  cases List.mem_singleton.1 hkind
  cases v with
  | text s => exact ⟨s, rfl⟩
  | null | bool | int | float | moment | list | object => cases haccepts

/-- The components of admitted settings are a list of admitted ones. -/
theorem Admitted.components_are_listed (h : Admitted fields)
    (hv : Assoc.get? fields "components" = some v) :
    ∃ items, v = .list items ∧ ∀ item ∈ items, Schema.component.Admits item :=
  Schema.property_admits (.list Schema.component) h (by simp) hv

/-- The context of admitted settings is an object. -/
theorem Admitted.context_is_object (h : Admitted fields) (hv : Assoc.get? fields "context" = some v) :
    ∃ inner, v = .object inner ∧ Schema.context.Admits (.object inner) := by
  have hcontext : Schema.context.Admits v := Schema.property_admits _ h (by simp) hv
  obtain ⟨inner, rfl, -⟩ := id hcontext
  exact ⟨inner, rfl, hcontext⟩

/-! ## Valid settings -/

/-- The settings pass the check. -/
def Valid [Services] (fields : Fields) : Prop :=
  validate (.object fields) = .ok ()

theorem validate_eq_ok_iff [Services] : validate v = .ok () ↔ Services.issues Schema.settings v = .ok [] := by
  have sorted {found : List Issue} : Issue.sorted found = [] ↔ found = [] := by
    rw [Issue.sorted, ← List.length_eq_zero_iff, List.length_mergeSort, List.length_eq_zero_iff]
  unfold validate
  cases Services.issues Schema.settings v with
  | error e => simp
  | ok found =>
    rw [Except.ok.injEq, ← sorted]
    cases hsorted : Issue.sorted found <;> simp [hsorted]

/-- Under a checker that respects schemas, valid settings are admitted. -/
theorem Valid.admitted [Services] (respects : Services.RespectsSchemas) (valid : Valid fields) :
    Admitted fields :=
  respects _ _ (validate_eq_ok_iff.1 valid)

/-- The checker of the library respects schemas. -/
theorem respectsSchemas_usual : Services.RespectsSchemas :=
  fun schema v h => (Schema.issues_eq_nil_iff schema v).1 (Except.ok.inj h)

/-- Under the checker of the library, valid settings are those that are admitted. -/
theorem valid_iff_admitted : Valid fields ↔ Admitted fields := by
  rw [Admitted, ← Schema.issues_eq_nil_iff]
  exact validate_eq_ok_iff.trans ⟨fun h => Except.ok.inj h, fun h => congrArg Except.ok h⟩

/-- A project may set nothing. -/
theorem valid_defaults : Valid defaults := by
  rw [valid_iff_admitted, Admitted]
  simp [Schema.settings, Schema.context, Schema.Admits, Schema.admitsFields_iff, Kind.accepts, defaults,
    defaultContextView, Schema.label, Assoc.get?, Assoc.keys, or_imp, forall_and]
  decide +kernel

end ComponentTags.Settings
