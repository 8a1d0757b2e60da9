import ServiceDoc.Proofs.Document.Passes
import ServiceDoc.Proofs.Operation.Representable
import ServiceDoc.Proofs.Value.Sorting

/-!
# The properties of a message

The component schema of a message has one property for each field that can be represented. A
property is a bare reference if its field says nothing beside, and says whatever the field says
otherwise.
-/

namespace ServiceDoc

open Build Workspace

/-! ## References that say no more -/

/-- References in an element hold nothing but what they refer to. -/
def Element.HasBareReferences (element : Element) : Prop :=
  ∀ reference ∈ element.references, ∃ name, reference = Schema.reference name

/-- References in what a field holds hold nothing but what they refer to. -/
def Content.HasBareReferences (content : Content) : Prop :=
  ∀ reference ∈ referencesOfContent content, ∃ name, reference = Schema.reference name

namespace Content

theorem hasBareReferences_value (value : Value) : (Content.value value).HasBareReferences :=
  fun _ member => (List.not_mem_nil member).elim

theorem hasBareReferences_flag : flag.HasBareReferences :=
  fun _ member => (List.not_mem_nil member).elim

theorem hasBareReferences_list (items : List Value) : (list items).HasBareReferences :=
  fun _ member => (List.not_mem_nil member).elim

end Content

namespace Element

variable {element items : Element} {key : String} {content : Content}

theorem hasBareReferences_iff (plain : element.kind ≠ .reference) :
    element.HasBareReferences ↔ ∀ field ∈ element.fields, field.2.HasBareReferences := by
  obtain ⟨kind, fields, extensions⟩ := element
  have inner : (mk kind fields extensions).references = referencesOfFields fields := by
    rw [references]
    exact if_neg plain
  unfold HasBareReferences Content.HasBareReferences
  rw [inner]
  simp only [mem_referencesOfFields]
  constructor
  · intro bare field member reference inside
    exact bare reference ⟨field, member, inside⟩
  · rintro bare reference ⟨field, member, inside⟩
    exact bare field member reference inside

theorem HasBareReferences.set (bare : element.HasBareReferences)
    (plain : element.kind ≠ .reference) (inner : content.HasBareReferences) :
    (element.set key content).HasBareReferences := by
  rw [hasBareReferences_iff plain] at bare
  rw [hasBareReferences_iff (by rwa [kind_set])]
  intro field member
  rcases mem_setField member with old | rfl
  · exact bare field old
  · exact inner

theorem HasBareReferences.setFlag (bare : element.HasBareReferences)
    (plain : element.kind ≠ .reference) (set : Bool) :
    (element.setFlag key set).HasBareReferences := by
  cases set with
  | true => exact bare.set plain Content.hasBareReferences_flag
  | false =>
      rw [hasBareReferences_iff plain] at bare
      have kept : (element.setFlag key false).kind ≠ .reference := plain
      refine (hasBareReferences_iff kept).mpr ?_
      intro field member
      exact bare field (List.mem_filter.mp member).1

theorem hasBareReferences_reference (name : String) :
    (Schema.reference name).HasBareReferences := by
  intro reference inside
  refine ⟨name, ?_⟩
  simpa [references, Schema.reference, setText, set, empty, kind, fields, setField,
    referencesOfFields, referencesOfContent] using inside

/-! ## Schemas of fields -/

/-- A schema of its own, which does not say that it is deprecated. -/
structure IsPlainSchema (element : Element) : Prop where
  kind : element.kind = .schema
  undeprecated : element.get? "deprecated" = none
  bare : element.HasBareReferences

/-- A reference alone, or a schema of its own. -/
inductive IsFieldSchema : Element → Prop
  | reference (name : String) : IsFieldSchema (Schema.reference name)
  | schema {element : Element} (plain : element.IsPlainSchema) : IsFieldSchema element

theorem IsPlainSchema.ne_reference (plain : element.IsPlainSchema) : element.kind ≠ .reference := by
  rw [plain.kind]
  decide

theorem IsFieldSchema.bare (schema : element.IsFieldSchema) : element.HasBareReferences := by
  cases schema with
  | reference name => exact hasBareReferences_reference name
  | schema plain => exact plain.bare

theorem IsPlainSchema.set (plain : element.IsPlainSchema) (other : "deprecated" ≠ key)
    (inner : content.HasBareReferences) : (element.set key content).IsPlainSchema where
  kind := plain.kind
  undeprecated := (get?_set_of_ne element content other).trans plain.undeprecated
  bare := plain.bare.set plain.ne_reference inner

theorem IsPlainSchema.setText (plain : element.IsPlainSchema) (other : "deprecated" ≠ key)
    (text : String) : (element.setText key text).IsPlainSchema :=
  plain.set other (Content.hasBareReferences_value _)

theorem isPlainSchema_empty : (empty .schema).IsPlainSchema where
  kind := rfl
  undeprecated := rfl
  bare _ member := (List.not_mem_nil member).elim

theorem isPlainSchema_ofType (type : String) : (Schema.ofType type).IsPlainSchema :=
  isPlainSchema_empty.setText (by decide) type

theorem isPlainSchema_ofFormat (type format : String) :
    (Schema.ofFormat type format).IsPlainSchema :=
  (isPlainSchema_ofType type).setText (by decide) format

theorem IsFieldSchema.sequence (items_schema : items.IsFieldSchema) :
    (Schema.sequence items).IsFieldSchema :=
  .schema ((isPlainSchema_ofType "array").set (by decide) items_schema.bare)

theorem IsFieldSchema.mapping (values_schema : items.IsFieldSchema) :
    (Schema.mapping items).IsFieldSchema :=
  .schema ((isPlainSchema_ofType "object").set (by decide) values_schema.bare)

end Element

theorem WellKnown.isPlainSchema_inlineSchema? (fullName : String) (message : Option Message) :
    ∀ schema ∈ inlineSchema? fullName message, schema.IsPlainSchema := by
  have ofType (type : String) : (Schema.ofType type).IsPlainSchema :=
    Element.isPlainSchema_ofType type
  have ofFormat (type format : String) : (Schema.ofFormat type format).IsPlainSchema :=
    Element.isPlainSchema_ofFormat type format
  have duration : (((Schema.ofType "string").setText "pattern" durationPattern).setText
      "description" durationDescription).IsPlainSchema :=
    ((ofType _).setText (by decide) _).setText (by decide) _
  unfold inlineSchema?
  exact forall_mem_ite (ofType _) <| forall_mem_ite (ofFormat _ _) <| forall_mem_ite duration <|
    forall_mem_ite (ofFormat _ _) <| forall_mem_ite (ofFormat _ _) <| forall_mem_ite (ofType _) <|
    forall_mem_ite (ofType _) <| forall_mem_ite (ofFormat _ _) <|
    forall_mem_ite (ofFormat _ _) <| forall_mem_ite (ofType _) <|
    forall_mem_ite (ofFormat _ _) fun _ member => (Option.not_mem_none _ member).elim

section

variable {config : Config} {registry : Registry} {field : MessageField} {message : Message}
  {schema : Option Element} {work after : Workspace}

theorem enumSchema_isPlainSchema {style : EnumStyle} {enum : Enumeration} {made : Element}
    (runs : (enumSchema style enum).Runs work made after) : made.IsPlainSchema := by
  have listed (type : String) (symbols : List Value) :
      ((Schema.ofFormat type "enum").set "enum" (.list symbols)).IsPlainSchema :=
    (Element.isPlainSchema_ofFormat _ _).set (by decide) (Content.hasBareReferences_list _)
  have preset (type : String) (symbols : List Value) (first : Value) :
      (((Schema.ofFormat type "enum").set "enum" (.list symbols)).set "default"
        (.value first)).IsPlainSchema :=
    (listed type symbols).set (by decide) (Content.hasBareReferences_value _)
  unfold enumSchema at runs
  cases style with
  | string =>
      simp only [runs_bind, runs_comment, runs_pure] at runs
      obtain ⟨lines, _, -, rfl, -⟩ := runs
      refine Element.IsPlainSchema.setText ?_ (by decide) lines
      split
      · exact preset _ _ _
      · exact listed _ _
  | integer =>
      simp only [runs_bind, runs_comment, runs_pure] at runs
      obtain ⟨lines, _, -, rfl, -⟩ := runs
      refine Element.IsPlainSchema.setText ?_ (by decide) lines
      split
      · exact preset _ _ _
      · exact listed _ _

namespace Config

theorem schemaOfMessage_isFieldSchema
    (runs : (config.schemaOfMessage message).Runs work schema after) :
    ∀ element ∈ schema, element.IsFieldSchema := by
  unfold schemaOfMessage at runs
  split at runs
  · obtain ⟨rfl, -⟩ := runs_pure.mp runs
    intro element made
    exact .schema (WellKnown.isPlainSchema_inlineSchema? _ _ element made)
  · unfold referTo at runs
    simp only [runs_bind, runs_pure] at runs
    obtain ⟨_, _, ⟨_, _, -, rfl, -⟩, rfl, -⟩ := runs
    rintro _ ⟨⟩
    exact .reference _

theorem schemaOfValue_isFieldSchema
    (runs : (config.schemaOfValue registry field).Runs work schema after) :
    ∀ element ∈ schema, element.IsFieldSchema := by
  have skipped {notice : Notice} (runs : Runs (do report notice; return none) work schema after) :
      ∀ element ∈ schema, element.IsFieldSchema := by
    simp only [runs_bind, runs_report, runs_pure] at runs
    obtain ⟨_, _, -, rfl, -⟩ := runs
    exact fun _ made => (Option.not_mem_none _ made).elim
  have given {element : Element} (plain : element.IsPlainSchema)
      (runs : Runs (pure (some element)) work schema after) :
      ∀ element ∈ schema, element.IsFieldSchema := by
    obtain ⟨rfl, -⟩ := runs_pure.mp runs
    rintro _ ⟨⟩
    exact .schema plain
  unfold schemaOfValue at runs
  split at runs
  · split at runs
    · exact schemaOfMessage_isFieldSchema runs
    · exact skipped runs
  · exact given (Element.isPlainSchema_ofType _) runs
  · exact given (Element.isPlainSchema_ofFormat _ _) runs
  · split at runs
    · simp only [runs_bind, runs_pure] at runs
      obtain ⟨made, _, enum, rfl, -⟩ := runs
      rintro _ ⟨⟩
      exact .schema (enumSchema_isPlainSchema enum)
    · exact skipped runs
  · exact given (Element.isPlainSchema_ofType _) runs
  · exact given (Element.isPlainSchema_ofFormat _ _) runs
  · exact given (Element.isPlainSchema_ofFormat _ _) runs
  · exact skipped runs

/-- The schema of a field is a reference alone, or a schema in which references say no more than
what they refer to. -/
theorem schemaOfField_isFieldSchema
    (runs : (config.schemaOfField registry field).Runs work schema after) :
    ∀ element ∈ schema, element.IsFieldSchema := by
  unfold schemaOfField at runs
  split at runs
  · split at runs
    · simp only [runs_bind, runs_pure] at runs
      obtain ⟨value, _, made, rfl, -⟩ := runs
      intro element around
      obtain ⟨inner, found, rfl⟩ := Option.map_eq_some_iff.mp around
      exact (schemaOfValue_isFieldSchema made inner found).mapping
    · exact (runs_fail.mp runs).elim
  · simp only [runs_bind, runs_pure] at runs
    obtain ⟨value, _, made, rfl, -⟩ := runs
    split
    · intro element around
      obtain ⟨inner, found, rfl⟩ := Option.map_eq_some_iff.mp around
      exact (schemaOfValue_isFieldSchema made inner found).sequence
    · exact schemaOfValue_isFieldSchema made

end Config

end

/-! ## Properties -/

/-- A schema of its own around a reference, which can not carry other keys itself. -/
def Schema.around (reference : Element) : Element :=
  (Element.empty .schema).set "allOf" (.many [reference])

namespace Element

/-- What is made of a schema says who holds a field, whether it is deprecated, and what describes
it, unless the schema has a description; all else is that of the schema. -/
structure Describes (property : Element) (field : MessageField) (description : String)
    (schema : Element) : Prop where
  kind : property.kind = .schema
  readOnly : property.flag "readOnly" = field.isOutputOnly
  writeOnly : property.flag "writeOnly" = field.isInputOnly
  deprecated : property.flag "deprecated" = field.definition.deprecated
  description : property.get? "description" = if Title.isSet schema "description" then
    schema.get? "description" else some (.value (.string description))
  kept : ∀ key ∉ ["readOnly", "writeOnly", "deprecated", "description"],
    property.get? key = schema.get? key
  extensions : property.extensions = schema.extensions

/-- A property of a field: the schema of the field if that is a reference and the field says nothing
beside, and otherwise what describes it. -/
structure IsPropertyOf (property : Element) (field : MessageField) (description : String)
    (schema : Element) : Prop where
  reference_iff : property.kind = .reference ↔ schema.kind = .reference ∧ description = "" ∧
    field.isOutputOnly = false ∧ field.isInputOnly = false ∧ field.definition.deprecated = false
  reference : property.kind = .reference → property = schema
  described : property.kind ≠ .reference → property.Describes field description
    (if schema.kind = .reference then Schema.around schema else schema)
  bare : property.HasBareReferences

variable {field : MessageField} {description key : String} {schema reference : Element}

theorem isPlainSchema_around (bare : reference.HasBareReferences) :
    (Schema.around reference).IsPlainSchema := by
  refine isPlainSchema_empty.set (by decide) ?_
  intro inner member
  obtain ⟨element, among, inside⟩ := mem_referencesOfMany.mp member
  obtain rfl := List.mem_singleton.mp among
  exact bare inner inside

theorem get?_describeProperty : (describeProperty field description schema).get? key =
    if key = "deprecated" ∧ field.definition.deprecated = true then some .flag
    else if key = "writeOnly" then if field.isInputOnly then some .flag else none
    else if key = "readOnly" then if field.isOutputOnly then some .flag else none
    else if key = "description" ∧ Title.isSet schema "description" = false then
      some (.value (.string description))
    else schema.get? key := by
  have described : (if Title.isSet schema "description" then schema
      else Schema.described schema description).get? key =
        if key = "description" ∧ Title.isSet schema "description" = false then
          some (.value (.string description)) else schema.get? key := by
    cases Title.isSet schema "description" with
    | true => simp
    | false => simp [Schema.described, setText, get?_set]
  unfold describeProperty
  dsimp only
  rw [← described]
  cases field.definition.deprecated with
  | true => simp [get?_setFlag]
  | false => simp [get?_setFlag]

theorem kind_setFlag (element : Element) (key : String) (set : Bool) :
    (element.setFlag key set).kind = element.kind := by
  cases set <;> rfl

theorem extensions_setFlag (element : Element) (key : String) (set : Bool) :
    (element.setFlag key set).extensions = element.extensions := by
  cases set <;> rfl

theorem kind_describeProperty : (describeProperty field description schema).kind = schema.kind := by
  unfold describeProperty
  dsimp only
  split <;> simp only [kind_setFlag] <;> split <;> rfl

theorem extensions_describeProperty :
    (describeProperty field description schema).extensions = schema.extensions := by
  unfold describeProperty
  dsimp only
  split <;> simp only [extensions_setFlag] <;> split <;> rfl

theorem HasBareReferences.describeProperty (bare : schema.HasBareReferences)
    (plain : schema.kind ≠ .reference) :
    (describeProperty field description schema).HasBareReferences := by
  have described : (if Title.isSet schema "description" then schema
      else Schema.described schema description).HasBareReferences := by
    split
    · exact bare
    · exact bare.set plain (Content.hasBareReferences_value _)
  have described_plain : (if Title.isSet schema "description" then schema
      else Schema.described schema description).kind ≠ .reference := by
    split <;> exact plain
  have flagged {element : Element} (bare : element.HasBareReferences)
      (plain : element.kind ≠ .reference) (key : String) (set : Bool) :
      (element.setFlag key set).HasBareReferences ∧ (element.setFlag key set).kind ≠ .reference :=
    ⟨bare.setFlag plain set, by rwa [kind_setFlag]⟩
  obtain ⟨out_bare, out_plain⟩ := flagged described described_plain "readOnly" field.isOutputOnly
  obtain ⟨in_bare, in_plain⟩ := flagged out_bare out_plain "writeOnly" field.isInputOnly
  unfold ServiceDoc.describeProperty
  dsimp only
  split
  · exact (flagged in_bare in_plain "deprecated" true).1
  · exact in_bare

theorem IsPlainSchema.describes (plain : schema.IsPlainSchema) (field : MessageField)
    (description : String) :
    (describeProperty field description schema).Describes field description schema where
  kind := kind_describeProperty.trans plain.kind
  readOnly := by
    rw [flag, get?_describeProperty]
    cases field.isOutputOnly <;> simp
  writeOnly := by
    rw [flag, get?_describeProperty]
    cases field.isInputOnly <;> simp
  deprecated := by
    rw [flag, get?_describeProperty]
    cases field.definition.deprecated <;> simp [plain.undeprecated]
  description := by
    rw [get?_describeProperty]
    cases Title.isSet schema "description" <;> simp
  kept key other := by
    simp only [List.mem_cons, List.not_mem_nil, or_false, not_or] at other
    rw [get?_describeProperty]
    simp [other]
  extensions := extensions_describeProperty

theorem IsPlainSchema.isPropertyOf (plain : schema.IsPlainSchema) (field : MessageField)
    (description : String) :
    (ServiceDoc.describeProperty field description schema).IsPropertyOf field description
      schema where
  reference_iff := by
    rw [kind_describeProperty]
    exact iff_of_false plain.ne_reference fun both => plain.ne_reference both.1
  reference same := (plain.ne_reference (kind_describeProperty.symm.trans same)).elim
  described _ := by
    rw [if_neg plain.ne_reference]
    exact plain.describes field description
  bare := plain.bare.describeProperty plain.ne_reference

end Element

/-- All annotations in a comment can be read. -/
def Comment.IsLegible (comment : Comment) : Prop :=
  ∃ annotations, comment.annotations = .ok annotations

instance (comment : Comment) : Decidable comment.IsLegible :=
  match read : comment.annotations with
  | .ok annotations => .isTrue ⟨annotations, read⟩
  | .error _ => .isFalse fun ⟨_, legible⟩ => nomatch read.symm.trans legible

theorem Comment.IsLegible.payload? {comment : Comment} {key : AnnotationKey}
    (legible : comment.IsLegible) (plain : Unannotated (comment.payload? key)) :
    comment.payload? key = .ok none := by
  obtain ⟨annotations, read⟩ := legible
  have given : comment.payload? key = .ok (annotations.lookup key) := by
    unfold Comment.payload?
    rw [read]
    rfl
  cases found : annotations.lookup key with
  | none => rw [given, found]
  | some entries => exact (plain entries (given.trans (congrArg _ found))).elim

theorem Comment.isLegible_of_payload? {comment : Comment} {key : AnnotationKey}
    {payload : Option (Entries Value)} (read : comment.payload? key = .ok payload) :
    comment.IsLegible := by
  unfold Comment.payload? at read
  cases given : comment.annotations with
  | error error =>
      rw [given] at read
      contradiction
  | ok annotations => exact ⟨annotations, given⟩

theorem Comment.IsLegible.isSound {comment : Comment} {key : AnnotationKey}
    (legible : comment.IsLegible) (plain : Unannotated (comment.payload? key)) :
    comment.IsSound key :=
  ⟨none, legible.payload? plain, fun _ member => (Option.not_mem_none _ member).elim⟩

/-- Without an annotation, the schema of a property is a property of its field. -/
theorem propertySchema_isPropertyOf {field : MessageField} {schema property : Element}
    {work after : Workspace} (made : schema.IsFieldSchema)
    (plain : Unannotated (field.comment.payload? .property))
    (runs : (propertySchema field schema).Runs work property after) :
    field.comment.IsLegible ∧ ∃ description, field.description = .ok description ∧
      property.IsPropertyOf field description schema := by
  unfold propertySchema at runs
  simp only [runs_bind, runs_comment] at runs
  obtain ⟨entries, _, ⟨read, rfl⟩, description, _, ⟨described, rfl⟩, rest⟩ := runs
  have legible := Comment.isLegible_of_payload? read
  obtain rfl := Except.ok.inj (read.symm.trans (legible.payload? plain))
  refine ⟨legible, description, described, ?_⟩
  cases made with
  | schema own =>
      rw [if_neg own.ne_reference] at rest
      obtain ⟨-, same⟩ := annotateSchema_runs rest
      rw [same rfl]
      exact own.isPropertyOf field description
  | reference name =>
      have around := Element.isPlainSchema_around (Element.hasBareReferences_reference name)
      have reference : (Schema.reference name).kind = .reference := rfl
      rw [if_pos reference] at rest
      split at rest
      next says_more =>
        obtain ⟨-, same⟩ := annotateSchema_runs rest
        rw [same rfl]
        refine {
          reference_iff := iff_of_false ?_ ?_
          reference := fun same => ?_
          described := fun _ => around.describes field description
          bare := around.bare.describeProperty around.ne_reference }
        · rw [Element.kind_describeProperty]
          exact around.ne_reference
        · rintro ⟨-, rfl, out, into, kept⟩
          simp [out, into, kept] at says_more
        · exact (around.ne_reference (Element.kind_describeProperty.symm.trans same)).elim
      next says_nothing =>
        obtain ⟨rfl, -⟩ := runs_pure.mp rest
        simp only [Bool.or_eq_true, not_or, Bool.not_eq_true, bne_iff_ne, ne_eq, not_not]
          at says_nothing
        obtain ⟨⟨⟨⟨out, into⟩, undescribed⟩, kept⟩, -⟩ := says_nothing
        exact {
          reference_iff := iff_of_true rfl ⟨rfl, undescribed, out, into, kept⟩
          reference := fun _ => rfl
          described := fun other => (other rfl).elim
          bare := Element.hasBareReferences_reference name }

/-! ## Comments of values -/

theorem exists_of_foldlM_ok {ε α β : Type} {step : β → α → Except ε β} {items : List α}
    {start last : β} (ran : items.foldlM step start = .ok last) :
    ∀ item ∈ items, ∃ before after, step before item = .ok after := by
  induction items generalizing start with
  | nil => exact fun _ member => (List.not_mem_nil member).elim
  | cons first rest ih =>
      rw [List.foldlM_cons] at ran
      obtain ⟨next, round, others⟩ := bind_eq_ok.mp ran
      exact List.forall_mem_cons.mpr ⟨⟨start, next, round⟩, ih others⟩

theorem isReadable_of_enumLines {values : List EnumValue} {symbol : EnumValue → String}
    {lines : String} (read : enumLines values symbol = .ok lines) :
    ∀ value ∈ values, value.comment.IsReadable := by
  intro value member
  obtain ⟨before, after, round⟩ := exists_of_foldlM_ok read value member
  obtain ⟨text, described, -⟩ := bind_eq_ok.mp round
  exact ⟨text, described⟩

theorem isReadable_of_enumSchema {style : EnumStyle} {enum : Enumeration} {schema : Element}
    {work after : Workspace} (runs : (enumSchema style enum).Runs work schema after) :
    ∀ value ∈ enum.values, value.comment.IsReadable := by
  unfold enumSchema at runs
  cases style with
  | string =>
      obtain ⟨lines, _, read, -⟩ := runs_bind.mp runs
      exact isReadable_of_enumLines (runs_comment.mp read).1
  | integer =>
      obtain ⟨lines, _, read, -⟩ := runs_bind.mp runs
      exact isReadable_of_enumLines (runs_comment.mp read).1

namespace Registry

instance (registry : Registry) (field : MessageField) : Decidable (registry.ReadsValues field) :=
  inferInstanceAs (Decidable (∀ enum ∈ registry.enumOf? field, _))

/-- The schema of a field can be made: a map has a field for its values, and the comments of the
values that it can take can be read. -/
def ReadsField (registry : Registry) (field : MessageField) : Prop :=
  match registry.mapEntry? field with
  | some entry => ∃ value ∈ entry.fields[1]?, registry.ReadsValues value
  | none => registry.ReadsValues field

instance (registry : Registry) (field : MessageField) : Decidable (registry.ReadsField field) := by
  unfold ReadsField
  cases registry.mapEntry? field with
  | some entry => exact inferInstanceAs (Decidable (∃ value ∈ entry.fields[1]?, _))
  | none => exact inferInstanceAs (Decidable (registry.ReadsValues field))

end Registry

/-- What the property of a field is made from can be read. The comment of a field that can not be
represented is not looked at. -/
structure MessageField.IsLegible (field : MessageField) (registry : Registry) : Prop where
  schema : registry.ReadsField field
  comment : registry.represents field = true → field.comment.IsLegible

instance (field : MessageField) (registry : Registry) : Decidable (field.IsLegible registry) :=
  decidable_of_iff (registry.ReadsField field ∧
      (registry.represents field = true → field.comment.IsLegible))
    ⟨fun legible => ⟨legible.1, legible.2⟩, fun legible => ⟨legible.schema, legible.comment⟩⟩

/-- What the schema of a message is made from can be read. -/
structure Message.IsLegible (message : Message) (registry : Registry) : Prop where
  comment : message.comment.IsLegible
  fields : ∀ field ∈ message.fields, field.IsLegible registry

instance (message : Message) (registry : Registry) : Decidable (message.IsLegible registry) :=
  decidable_of_iff (message.comment.IsLegible ∧
      ∀ field ∈ message.fields, field.IsLegible registry)
    ⟨fun legible => ⟨legible.1, legible.2⟩, fun legible => ⟨legible.comment, legible.fields⟩⟩

namespace Config

variable {config : Config} {registry : Registry} {field : MessageField} {message : Message}
  {work after : Workspace}

theorem schemaOfValue_gives_iff (config : Config) {field : MessageField} :
    (∃ schema, (config.schemaOfValue registry field).Gives schema) ↔
    registry.ReadsValues field := by
  constructor
  · rintro ⟨schema, gives⟩ enum found
    obtain ⟨after, runs⟩ := gives { document := default }
    have type : field.type = .enum := by
      unfold Registry.enumOf? at found
      split at found
      · assumption
      · contradiction
    have held : field.type.schemaClass = .enum := by
      rw [type]
      rfl
    unfold schemaOfValue at runs
    simp only [held, Option.mem_def.mp found] at runs
    obtain ⟨made, _, enum_runs, -⟩ := runs_bind.mp runs
    exact isReadable_of_enumSchema enum_runs
  · exact config.schemaOfValue_gives_of_reads

theorem schemaOfField_gives_iff (config : Config) {field : MessageField} :
    (∃ schema, (config.schemaOfField registry field).Gives schema) ↔
    registry.ReadsField field := by
  unfold schemaOfField Registry.ReadsField
  cases map : registry.mapEntry? field with
  | none =>
      dsimp only
      rw [← config.schemaOfValue_gives_iff]
      constructor
      · rintro ⟨schema, gives⟩
        obtain ⟨after, runs⟩ := gives { document := default }
        obtain ⟨value, _, made, -⟩ := runs_bind.mp runs
        exact ⟨value, schemaOfValue_steady field made⟩
      · rintro ⟨schema, made⟩
        exact ⟨_, made.bind (gives_pure _)⟩
  | some entry =>
      dsimp only
      cases entry.fields[1]? with
      | none =>
          constructor
          · rintro ⟨schema, gives⟩
            obtain ⟨after, runs⟩ := gives { document := default }
            exact (runs_fail.mp runs).elim
          · rintro ⟨value, none, -⟩
            contradiction
      | some value =>
          dsimp only
          constructor
          · rintro ⟨schema, gives⟩
            obtain ⟨after, runs⟩ := gives { document := default }
            obtain ⟨inner, _, made, -⟩ := runs_bind.mp runs
            have given : ∃ schema, (config.schemaOfValue registry value).Gives schema :=
              ⟨inner, schemaOfValue_steady value made⟩
            exact ⟨value, rfl, config.schemaOfValue_gives_iff.mp given⟩
          · rintro ⟨_, ⟨⟩, readable⟩
            obtain ⟨schema, made⟩ := config.schemaOfValue_gives_iff.mpr readable
            exact ⟨_, made.bind (gives_pure _)⟩

/-! ## Properties of all fields -/

/-- An entry is the property of a field, under the name of the field. -/
def GivesProperty (config : Config) (registry : Registry) (field : MessageField)
    (entry : Scalar × Element) : Prop :=
  entry.1 = .string (config.fieldName field) ∧ ∃ description schema,
    field.description = .ok description ∧
      (config.schemaOfField registry field).Gives (some schema) ∧
        entry.2.IsPropertyOf field description schema

/-- The names of the fields that must be set, of those that can be represented. -/
def requiredNames (config : Config) (registry : Registry) (fields : List MessageField) :
    List String :=
  (fields.filter fun field => registry.represents field && field.isRequired).map config.fieldName

/-- What adding the property of a field does. -/
inductive AddsProperty (config : Config) (registry : Registry) (field : MessageField)
    (properties : Properties) : Properties → Prop
  | skipped (unrepresented : registry.represents field = false) :
      AddsProperty config registry field properties properties
  | added (represented : registry.represents field = true) {property : Element}
      (gives : config.GivesProperty registry field (.string (config.fieldName field), property)) :
      AddsProperty config registry field properties {
        schemas := properties.schemas.put (.string (config.fieldName field)) property
        required := properties.required ++
          (config.requiredNames registry [field]).map Value.string }

theorem addProperty_adds {properties extended : Properties}
    (plain : Unannotated (field.comment.payload? .property))
    (runs : (config.addProperty registry properties field).Runs work extended after) :
    field.IsLegible registry ∧ config.AddsProperty registry field properties extended := by
  unfold addProperty at runs
  obtain ⟨schema, _, made, rest⟩ := runs_bind.mp runs
  have given := schemaOfField_steady field made
  have shaped := isSome_schemaOfField made
  have reads := config.schemaOfField_gives_iff.mp ⟨schema, given⟩
  cases schema with
  | none =>
      obtain ⟨rfl, -⟩ := runs_pure.mp rest
      refine ⟨⟨reads, fun represented => ?_⟩, .skipped shaped.symm⟩
      exact (Bool.false_ne_true (shaped.trans represented)).elim
  | some schema =>
      simp only [runs_bind, runs_pure] at rest
      obtain ⟨property, _, described, rfl, -⟩ := rest
      have represented : registry.represents field = true := shaped.symm
      obtain ⟨legible, description, read, is_property⟩ :=
        propertySchema_isPropertyOf (schemaOfField_isFieldSchema made schema rfl) plain described
      refine ⟨⟨reads, fun _ => legible⟩, ?_⟩
      have same : (if field.isRequired then
          properties.required ++ [.string (config.fieldName field)] else properties.required) =
            properties.required ++ (config.requiredNames registry [field]).map Value.string := by
        cases required : field.isRequired <;> simp [requiredNames, represented, required]
      rw [same]
      exact .added represented ⟨rfl, description, schema, read, given, is_property⟩

/-- What adding the properties of fields does. -/
structure AddsProperties (config : Config) (registry : Registry) (fields : List MessageField)
    (properties extended : Properties) : Prop where
  schemas : ∃ added, extended.schemas = properties.schemas ++ added ∧
    List.Forall₂ (config.GivesProperty registry) (fields.filter registry.represents) added
  required : extended.required =
    properties.required ++ (config.requiredNames registry fields).map Value.string

theorem AddsProperty.addsProperties {properties extended : Properties}
    (adds : config.AddsProperty registry field properties extended)
    (fresh : Scalar.string (config.fieldName field) ∉ properties.schemas.keys) :
    config.AddsProperties registry [field] properties extended := by
  cases adds with
  | skipped unrepresented => constructor <;> simp [requiredNames, unrepresented]
  | added represented gives =>
      refine ⟨⟨_, Entries.put_of_notMem fresh, ?_⟩, rfl⟩
      simpa [represented] using gives

theorem AddsProperties.trans {fields others : List MessageField}
    {properties between extended : Properties}
    (first : config.AddsProperties registry fields properties between)
    (second : config.AddsProperties registry others between extended) :
    config.AddsProperties registry (fields ++ others) properties extended := by
  obtain ⟨added, begun, gives⟩ := first.schemas
  obtain ⟨more, ended, others_give⟩ := second.schemas
  constructor
  · refine ⟨added ++ more, by rw [ended, begun, List.append_assoc], ?_⟩
    rw [List.filter_append]
    exact List.rel_append gives others_give
  · rw [second.required, first.required, List.append_assoc, ← List.map_append, requiredNames,
      requiredNames, ← List.map_append, ← List.filter_append, ← requiredNames]

/-- The keys of what was added are names of the fields. -/
theorem keys_of_forall₂_givesProperty {fields : List MessageField} {added : Entries Element}
    (gives : List.Forall₂ (config.GivesProperty registry) fields added) :
    added.keys = fields.map fun field => .string (config.fieldName field) := by
  induction gives with
  | nil => rfl
  | cons named _ ih => exact congrArg₂ List.cons named.1 ih

theorem AddsProperties.notMem_keys {fields : List MessageField} {properties extended : Properties}
    (adds : config.AddsProperties registry fields properties extended) {name : String}
    (fresh : Scalar.string name ∉ properties.schemas.keys)
    (other : ∀ field ∈ fields, config.fieldName field ≠ name) :
    Scalar.string name ∉ extended.schemas.keys := by
  obtain ⟨added, appended, gives⟩ := adds.schemas
  rw [appended, Entries.keys_append, keys_of_forall₂_givesProperty gives, List.mem_append,
    List.mem_map]
  rintro (old | ⟨field, member, same⟩)
  · exact fresh old
  · exact other field (List.mem_filter.mp member).1 (Scalar.string.inj same)

/-- Adding the properties of fields adds one for each field that can be represented, in order. -/
theorem addProperties_adds {fields : List MessageField} {properties extended : Properties}
    (plain : ∀ field ∈ fields, Unannotated (field.comment.payload? .property))
    (distinct : (fields.map config.fieldName).Nodup)
    (fresh : ∀ field ∈ fields, Scalar.string (config.fieldName field) ∉ properties.schemas.keys)
    (runs : (fields.foldlM (config.addProperty registry) properties).Runs work extended after) :
    (∀ field ∈ fields, field.IsLegible registry) ∧
      config.AddsProperties registry fields properties extended := by
  induction fields generalizing properties work with
  | nil =>
      obtain ⟨rfl, -⟩ := runs_pure.mp runs
      refine ⟨fun _ member => (List.not_mem_nil member).elim, ?_⟩
      constructor <;> simp [requiredNames]
  | cons field rest ih =>
      rw [List.forall_mem_cons] at plain fresh
      rw [List.map_cons, List.nodup_cons] at distinct
      rw [List.foldlM_cons] at runs
      obtain ⟨between, _, first, others⟩ := runs_bind.mp runs
      obtain ⟨legible, adds⟩ := addProperty_adds plain.1 first
      have begun := adds.addsProperties fresh.1
      have still_fresh : ∀ other ∈ rest,
          Scalar.string (config.fieldName other) ∉ between.schemas.keys := by
        intro other member
        apply begun.notMem_keys (fresh.2 other member)
        intro same_field among same
        obtain rfl := List.mem_singleton.mp among
        exact distinct.1 (List.mem_map.mpr ⟨other, member, same.symm⟩)
      obtain ⟨all_legible, ended⟩ := ih plain.2 distinct.2 still_fresh others
      exact ⟨List.forall_mem_cons.mpr ⟨legible, all_legible⟩, begun.trans ended⟩

/-! ## The schema of a message -/

/-- A schema has the properties that the fields of a message say. -/
structure DescribesFields (config : Config) (registry : Registry) (message : Message)
    (schema : Element) : Prop where
  /-- A field can be represented if it has a schema. -/
  represents : ∀ field ∈ message.fields, ∃ given,
    (config.schemaOfField registry field).Gives given ∧ given.isSome = registry.represents field
  properties : List.Forall₂ (config.GivesProperty registry)
    (message.fields.filter registry.represents) (schema.table "properties")
  required : schema.get? "required" =
    some (.list ((config.requiredNames registry message.fields).map Value.string))
  distinct : (config.requiredNames registry message.fields).Nodup
  within : ∀ name ∈ config.requiredNames registry message.fields,
    Scalar.string name ∈ (schema.table "properties").keys
  bare : schema.HasBareReferences

theorem nodup_requiredNames {fields : List MessageField}
    (distinct : (fields.map config.fieldName).Nodup) :
    (config.requiredNames registry fields).Nodup :=
  distinct.sublist (List.filter_sublist.map config.fieldName)

theorem mem_keys_of_mem_requiredNames {fields : List MessageField} {added : Entries Element}
    (gives : List.Forall₂ (config.GivesProperty registry) (fields.filter registry.represents) added)
    {name : String} (member : name ∈ config.requiredNames registry fields) :
    Scalar.string name ∈ added.keys := by
  obtain ⟨field, kept, rfl⟩ := List.mem_map.mp member
  obtain ⟨among, both⟩ := List.mem_filter.mp kept
  have represented := (Bool.and_eq_true_iff.mp both).1
  rw [keys_of_forall₂_givesProperty gives]
  exact List.mem_map.mpr ⟨field, List.mem_filter.mpr ⟨among, represented⟩, rfl⟩

theorem hasBareReferences_of_forall₂_givesProperty {fields : List MessageField}
    {added : Entries Element}
    (gives : List.Forall₂ (config.GivesProperty registry) fields added) :
    (Content.table added).HasBareReferences := by
  intro reference member
  obtain ⟨entry, among, inside⟩ := mem_referencesOfTable.mp member
  induction gives with
  | nil => exact (List.not_mem_nil among).elim
  | cons named _ ih =>
      rcases List.mem_cons.mp among with rfl | later
      · obtain ⟨-, description, schema, -, -, property⟩ := named
        exact property.bare reference inside
      · exact ih (mem_referencesOfTable.mpr ⟨entry, later, inside⟩) later

theorem messageSchema_describes {schema : Element} (plain : message.Plain)
    (distinct : (message.fields.map config.fieldName).Nodup)
    (runs : (config.messageSchema registry message).Runs work schema after) :
    message.IsLegible registry ∧ config.DescribesFields registry message schema := by
  unfold messageSchema at runs
  simp only [runs_bind, runs_comment] at runs
  obtain ⟨properties, _, made, description, _, -, entries, _, ⟨read, rfl⟩, rest⟩ := runs
  have fresh : ∀ field ∈ message.fields,
      Scalar.string (config.fieldName field) ∉ Entries.keys ({} : Properties).schemas :=
    fun _ _ => List.not_mem_nil
  obtain ⟨fields_legible, adds⟩ := addProperties_adds plain.properties distinct fresh made
  have legible := Comment.isLegible_of_payload? read
  obtain rfl := Except.ok.inj (read.symm.trans (legible.payload? plain.schema))
  obtain ⟨-, same⟩ := annotateSchema_runs rest
  obtain ⟨added, rfl_schemas, gives⟩ := adds.schemas
  rw [List.nil_append] at rfl_schemas
  have table : schema.table "properties" = added := by
    rw [same rfl, Element.table_set_of_ne _ _ (by decide), Element.table_set_self, rfl_schemas]
  refine ⟨⟨legible, fields_legible⟩, ?_⟩
  refine {
    represents := ?_
    properties := table ▸ gives
    required := ?_
    distinct := nodup_requiredNames distinct
    within := fun name member => table ▸ mem_keys_of_mem_requiredNames gives member
    bare := ?_ }
  · intro field member
    obtain ⟨given, made⟩ := config.schemaOfField_gives_iff.mpr (fields_legible field member).schema
    obtain ⟨after, runs⟩ := made { document := default }
    exact ⟨given, made, isSome_schemaOfField runs⟩
  · rw [same rfl, Element.get?_set_self, adds.required]
    rfl
  · rw [same rfl, rfl_schemas]
    have described : (Schema.described (Schema.ofType "object") description).IsPlainSchema :=
      (Element.isPlainSchema_ofType _).setText (by decide) _
    have propertied : ((Schema.described (Schema.ofType "object") description).set "properties"
        (.table added)).IsPlainSchema :=
      described.set (by decide) (hasBareReferences_of_forall₂_givesProperty gives)
    exact (propertied.set (by decide) (Content.hasBareReferences_list _)).bare

/-! ## Which messages have a schema -/

theorem addProperty_gives {properties : Properties} (legible : field.IsLegible registry)
    (plain : Unannotated (field.comment.payload? .property)) :
    ∃ extended, (config.addProperty registry properties field).Gives extended := by
  obtain ⟨schema, made⟩ := config.schemaOfField_gives_iff.mpr legible.schema
  obtain ⟨after, runs⟩ := made { document := default }
  have represented := isSome_schemaOfField runs
  cases schema with
  | none => exact ⟨_, made.bind (gives_pure _)⟩
  | some schema =>
      have sound := (legible.comment represented.symm).isSound plain
      obtain ⟨property, given⟩ := propertySchema_gives sound schema
      exact ⟨_, made.bind (given.bind (gives_pure _))⟩

theorem messageSchema_gives_of_isLegible (config : Config) (plain : message.Plain)
    (legible : message.IsLegible registry) :
    ∃ schema, (config.messageSchema registry message).Gives schema := by
  have round (field : MessageField) (member : field ∈ message.fields) (properties : Properties) :
      ∃ extended, (config.addProperty registry properties field).Gives extended :=
    addProperty_gives (legible.fields field member) (plain.properties field member)
  obtain ⟨properties, made⟩ := Gives.foldlM round {}
  have sound := legible.comment.isSound plain.schema
  obtain ⟨description, described⟩ := sound.isReadable
  obtain ⟨payload, read, loads⟩ := sound
  obtain ⟨schema, annotated⟩ : ∃ schema,
      (annotateSchema message.fullName payload _).Gives schema := annotateSchema_gives loads _
  exact ⟨schema, made.bind ((gives_comment described).bind ((gives_comment read).bind annotated))⟩

/-- A message without annotations has a schema exactly if what it is made from can be read. Its
properties are then those of the fields that can be represented, it requires those of them that must
be set, and all references in it are bare. -/
theorem messageSchema_of_plain (config : Config) (registry : Registry) (message : Message)
    (plain : message.Plain) (distinct : (message.fields.map config.fieldName).Nodup)
    (work : Workspace) :
    ((∃ schema after, (config.messageSchema registry message).Runs work schema after) ↔
      message.IsLegible registry) ∧
    ∀ schema after, (config.messageSchema registry message).Runs work schema after →
      config.DescribesFields registry message schema := by
  constructor
  · constructor
    · rintro ⟨schema, after, runs⟩
      exact (messageSchema_describes plain distinct runs).1
    · intro legible
      obtain ⟨schema, gives⟩ := config.messageSchema_gives_of_isLegible plain legible
      exact ⟨schema, gives work⟩
  · intro schema after runs
    exact (messageSchema_describes plain distinct runs).2

end Config

/-! ## Lending books -/

/-- Loans of books of a library. What a remark says can not be read. -/
def lendingFile : FileDefinition where
  name := "lending.proto"
  package := "library"
  messages := [
    { name := "Loan"
      fields := [
        { name := "book", type := .message, typeName := ".library.Book", behaviors := [2] },
        { name := "shelf", type := .message, typeName := ".library.Shelf", deprecated := true },
        { name := "reader", type := .message, typeName := ".library.Reader", behaviors := [2] },
        { name := "returned", type := .bool, behaviors := [3] }] },
    { name := "Remark", fields := [{ name := "text", type := .string }] }]
  locations := [
    { path := [4, 0, 2, 3], leading := " Whether the book is back.\n" },
    { path := [4, 1], leading := " [#openapi-note: \x7b\x7d]\n" }]

/-- The registry of a library that lends books and knows no readers. -/
def lendingRegistry : Registry := .ofFiles ["lending.proto"] [lendingFile, libraryFile]

/-- A message of the library that lends books. -/
def lendingMessage (name : String) (known : (lendingRegistry.message? name).isSome) : Message :=
  (lendingRegistry.message? name).get known

/-- A loan requires its book, but not its reader, which can not be represented. -/
theorem loan_describes_fields : ∃ schema after,
    (libraryConfig.messageSchema lendingRegistry (lendingMessage ".library.Loan" (by decide))).Runs
      { document := default } schema after ∧
    libraryConfig.DescribesFields lendingRegistry (lendingMessage ".library.Loan" (by decide))
      schema ∧
    libraryConfig.requiredNames lendingRegistry
      (lendingMessage ".library.Loan" (by decide)).fields = ["book"] := by
  have described := libraryConfig.messageSchema_of_plain lendingRegistry
    (lendingMessage ".library.Loan" (by decide)) (by decide +kernel) (by decide +kernel)
    { document := default }
  obtain ⟨schema, after, runs⟩ := described.1.mpr (by decide +kernel)
  exact ⟨schema, after, runs, described.2 schema after runs, by decide +kernel⟩

/-- Not every message without annotations that its schema would take data from has a schema. -/
theorem remark_undescribed : ¬ ∀ (config : Config) (registry : Registry) (message : Message),
    message ∈ registry.fileMessages → message.Plain →
      (message.fields.map config.fieldName).Nodup → ∀ work, ∃ schema after,
        (config.messageSchema registry message).Runs work schema after ∧
          config.DescribesFields registry message schema := by
  intro described
  obtain ⟨schema, after, runs, -⟩ := described libraryConfig lendingRegistry
    (lendingMessage ".library.Remark" (by decide)) (by decide +kernel) (by decide +kernel)
    (by decide +kernel) { document := default }
  have legible := (Config.messageSchema_describes (by decide +kernel) (by decide +kernel) runs).1
  exact absurd legible (by decide +kernel)

end ServiceDoc
