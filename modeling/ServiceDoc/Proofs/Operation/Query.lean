import ServiceDoc.Proofs.Operation.Way
import ServiceDoc.Proofs.Schema.Reflect
import ServiceDoc.Proofs.Text.Pieces

/-!
# Query parameters of a field

If the comments can be read, a field expands to one parameter for each way that leads from it and
expands no field too often. What each parameter is follows from its way alone.
-/

namespace ServiceDoc

open Build

namespace MessageField

/-- The first line of what describes a field, without blanks around it. -/
def firstLine (field : MessageField) : String :=
  match field.description with
  | .ok text => String.ofList (Text.trim (text.toList.takeWhile (· ≠ '\n')))
  | .error _ => ""

/-- What describes a field says which value it has when it is not given. -/
def HasPreset (field : MessageField) : Prop :=
  ∃ text, field.description = .ok text ∧ Parameter.presetMarker.toList <:+: text.toList

end MessageField

/-- What a comment describes can be read: no annotation in it is malformed. -/
def Comment.IsReadable (comment : Comment) : Prop := ∃ text, comment.description = .ok text

instance (comment : Comment) : Decidable comment.IsReadable :=
  match read : comment.description with
  | .ok text => .isTrue ⟨text, read⟩
  | .error _ => .isFalse fun ⟨_, readable⟩ => nomatch read.symm.trans readable

/-- The comments of all fields and of all values of enumerations can be read. -/
structure Registry.Readable (registry : Registry) : Prop where
  fields : ∀ entry ∈ registry.messages, ∀ field ∈ entry.2.fields, field.comment.IsReadable
  values : ∀ entry ∈ registry.enums, ∀ value ∈ entry.2.values, value.comment.IsReadable

instance (registry : Registry) : Decidable registry.Readable :=
  decidable_of_iff ((∀ entry ∈ registry.messages, ∀ field ∈ entry.2.fields,
      field.comment.IsReadable) ∧
      ∀ entry ∈ registry.enums, ∀ value ∈ entry.2.values, value.comment.IsReadable)
    ⟨fun readable => ⟨readable.1, readable.2⟩, fun readable => ⟨readable.fields, readable.values⟩⟩

/-- The comments of the values that a field can take can be read. -/
def Registry.ReadsValues (registry : Registry) (field : MessageField) : Prop :=
  ∀ enum ∈ registry.enumOf? field, ∀ value ∈ enum.values, value.comment.IsReadable

theorem Registry.Readable.readsValues {registry : Registry} (readable : registry.Readable)
    (field : MessageField) : registry.ReadsValues field := by
  intro enum found
  unfold enumOf? at found
  split at found
  · exact readable.values (_, enum) (mem_of_lookup found)
  · contradiction

/-! ## Summaries -/

namespace Parameter

theorem summary_fst {field : MessageField} {text : String} (read : field.description = .ok text) :
    (summary text).1 = field.firstLine := by
  unfold summary MessageField.firstLine
  rw [read]
  simp only [Text.headD_cutAt]

/-- A text has a value for what is not given exactly if it holds the marker. -/
theorem isSome_summary_snd (text : String) :
    (summary text).2.isSome = true ↔ presetMarker.toList <:+: text.toList := by
  have single : '\n' ∉ presetMarker.toList := by decide
  unfold summary preset?
  rw [Text.infix_iff_exists_piece single, List.isSome_findSome?, List.any_eq_true]
  simp only [Option.isSome_map, Text.isSome_cutFirst]

/-- The element of a parameter has the extension of its preset value, and no other. -/
theorem get?_extensions_toElement (parameter : Parameter) :
    parameter.toElement.extensions.get? (.string "x-default") =
      parameter.preset.map Value.string := by
  have bare : ((((((Element.empty .parameter).setText "name" parameter.name).setText "in"
      parameter.place.word).setText "description" parameter.description).setFlag "required"
      parameter.required).setOne? "schema" parameter.schema).extensions = [] := by
    cases parameter.required <;> cases parameter.schema <;> rfl
  unfold toElement
  cases preset : parameter.preset with
  | none => simp [bare]
  | some text =>
      simp only [Element.putExtension, Option.map_some]
      exact Entries.get?_put_self _ _ _

end Parameter

namespace Config

variable {config : Config} {registry : Registry} {depths : Depths} {field : MessageField}
  {message : Message} {way : Way}

/-! ## Schemas of readable fields -/

/-- A loop whose rounds come to a value comes to a value. -/
theorem foldlM_ok {ε α β : Type} {step : β → α → Except ε β} {items : List α}
    (round : ∀ item ∈ items, ∀ start, ∃ value, step start item = .ok value) (start : β) :
    ∃ value, items.foldlM step start = .ok value := by
  induction items generalizing start with
  | nil => exact ⟨start, rfl⟩
  | cons item rest ih =>
      obtain ⟨value, first⟩ := round item (.head _) start
      rw [List.foldlM_cons, first]
      exact ih (fun other member => round other (.tail _ member)) value

theorem enumLines_ok {values : List EnumValue}
    (readable : ∀ value ∈ values, value.comment.IsReadable)
    (symbol : EnumValue → String) : ∃ lines, enumLines values symbol = .ok lines := by
  refine foldlM_ok (fun value member start => ?_) ""
  obtain ⟨text, read⟩ := readable value member
  rw [read]
  exact ⟨_, rfl⟩

theorem enumSchema_gives {style : EnumStyle} {enum : Enumeration}
    (readable : ∀ value ∈ enum.values, value.comment.IsReadable) :
    ∃ schema, (enumSchema style enum).Gives schema := by
  unfold enumSchema
  cases style with
  | string =>
      obtain ⟨lines, read⟩ := enumLines_ok readable EnumValue.name
      exact ⟨_, (gives_comment read).bind (gives_pure _)⟩
  | integer =>
      obtain ⟨lines, read⟩ := enumLines_ok readable fun value => toString value.number
      exact ⟨_, (gives_comment read).bind (gives_pure _)⟩

theorem schemaOfMessage_gives (message : Message) :
    ∃ schema, (config.schemaOfMessage message).Gives schema := by
  unfold schemaOfMessage
  split
  · exact ⟨_, gives_pure _⟩
  · have referred :
        (config.referTo message).Gives (Schema.reference (config.messageName message)) :=
      (gives_require _).bind (gives_pure _)
    exact ⟨_, referred.bind (gives_pure _)⟩

theorem schemaOfValue_gives_of_reads (config : Config) (readable : registry.ReadsValues field) :
    ∃ schema, (config.schemaOfValue registry field).Gives schema := by
  unfold schemaOfValue
  split
  · split
    · exact schemaOfMessage_gives _
    · exact ⟨_, (gives_report _).bind (gives_pure _)⟩
  · exact ⟨_, gives_pure _⟩
  · exact ⟨_, gives_pure _⟩
  · split
    next enum found =>
      obtain ⟨schema, made⟩ := enumSchema_gives (readable enum found)
      exact ⟨_, made.bind (gives_pure _)⟩
    next => exact ⟨_, (gives_report _).bind (gives_pure _)⟩
  · exact ⟨_, gives_pure _⟩
  · exact ⟨_, gives_pure _⟩
  · exact ⟨_, gives_pure _⟩
  · exact ⟨_, (gives_report _).bind (gives_pure _)⟩

theorem schemaOfValue_gives (config : Config) (readable : registry.Readable)
    (field : MessageField) :
    ∃ schema, (config.schemaOfValue registry field).Gives schema :=
  config.schemaOfValue_gives_of_reads (readable.readsValues field)

/-- A field that is one query parameter has a schema, or is known to have none. -/
theorem schemaOfField_gives (config : Config) (readable : registry.Readable)
    (leaf : registry.IsLeaf field) :
    ∃ schema, (config.schemaOfField registry field).Gives schema := by
  have plain : registry.mapEntry? field = none := by
    rcases leaf with other | ⟨single, -⟩
    · simpa [Registry.isMap] using Registry.isMap_eq_false_of_isMessage registry other
    · simpa [Registry.isMap] using Registry.isMap_eq_false registry single
  obtain ⟨schema, made⟩ := config.schemaOfValue_gives readable field
  unfold schemaOfField
  rw [plain]
  exact ⟨_, made.bind (gives_pure _)⟩

/-! ## Parameters of ways -/

/-- The parameter that a way from a field leads to. -/
structure DescribesWay (config : Config) (registry : Registry) (start : MessageField) (way : Way)
    (parameter : Parameter) : Prop where
  /-- It is named by the fields on the way. -/
  name : parameter.name = ".".intercalate ((start :: way.fields).map config.fieldName)
  place : parameter.place = .query
  required : parameter.required = false
  /-- It has the schema of the last field. -/
  schema : (config.schemaOfField registry (way.last start)).Gives parameter.schema
  /-- It is described by the first line of the last field on the way that has one. -/
  description : parameter.description =
    (((start :: way.fields).map MessageField.firstLine).reverse.find? (· ≠ "")).getD ""
  /-- It has a preset value if what describes the last field says so. -/
  preset : (parameter.toElement.extensions.get? (.string "x-default")).isSome = true ↔
    (way.last start).HasPreset

/-- The parameter of a field that is not expanded. -/
theorem leafParameter_gives (readable : registry.Readable)
    (commented : field.comment.IsReadable) (leaf : registry.IsLeaf field) :
    ∃ parameter, (config.leafParameter registry field).Gives parameter ∧
      config.DescribesWay registry field [] parameter := by
  obtain ⟨text, read⟩ := commented
  obtain ⟨schema, made⟩ := config.schemaOfField_gives readable leaf
  refine ⟨_, (gives_comment read).bind (made.bind (gives_pure _)), ?_⟩
  refine ⟨?name, rfl, rfl, made, ?description, ?preset⟩
  case name => exact String.intercalate_singleton.symm
  case description =>
    change (Parameter.summary text).1 = _
    rw [Parameter.summary_fst read]
    by_cases empty : field.firstLine = ""
    · simp [Way.fields, empty]
    · simp [Way.fields, empty]
  case preset =>
    rw [Parameter.get?_extensions_toElement, Option.isSome_map]
    change (Parameter.summary text).2.isSome = true ↔ field.HasPreset
    rw [Parameter.isSome_summary_snd]
    constructor
    · intro inside
      exact ⟨text, read, inside⟩
    · rintro ⟨other, again, inside⟩
      exact Except.ok.inj (read.symm.trans again) ▸ inside

/-- A parameter of an inner field becomes that of the way through the outer field. -/
theorem DescribesWay.within {inner : MessageField} {parameter : Parameter}
    (describes : config.DescribesWay registry inner way parameter) (position : Nat)
    {description : String} (first : description = field.firstLine) :
    config.DescribesWay registry field ((inner, position) :: way)
      (within (config.fieldName field) description parameter) where
  name := by
    change config.fieldName field ++ "." ++ parameter.name = _
    rw [describes.name]
    exact String.intercalate_cons_cons.symm
  place := describes.place
  required := describes.required
  schema := by
    rw [Way.last_cons]
    exact describes.schema
  description := by
    change (if parameter.description = "" then description else parameter.description) = _
    have told := describes.description
    -- The search goes from the last field back, so the outer field is asked after all others.
    rw [Way.fields_cons, List.map_cons, List.reverse_cons, List.find?_append]
    cases found : ((inner :: way.fields).map MessageField.firstLine).reverse.find? (· ≠ "") with
    | none =>
        rw [found, Option.getD_none] at told
        rw [if_pos told, first]
        by_cases empty : field.firstLine = ""
        · simp [empty]
        · simp [empty]
    | some line =>
        rw [found, Option.getD_some] at told
        have nonempty := List.find?_some found
        rw [decide_eq_true_eq] at nonempty
        rw [if_neg (told ▸ nonempty), told]
        rfl
  preset := by
    rw [Way.last_cons, Parameter.get?_extensions_toElement]
    have preset := describes.preset
    rw [Parameter.get?_extensions_toElement] at preset
    exact preset

/-- What relates the items of a list to lists of values relates what they come to together. -/
theorem forall₂_flatMap_zipIdx {α β γ : Type} {relates : β → γ → Prop} {comes : α × Nat → List β}
    {items : List α} {values : List (List γ)}
    (each : List.Forall₂ (fun item values => ∀ position,
      List.Forall₂ relates (comes (item, position)) values) items values) (start : Nat) :
    List.Forall₂ relates ((items.zipIdx start).flatMap comes) values.flatten := by
  induction each generalizing start with
  | nil => exact .nil
  | cons first _ ih =>
      rw [List.zipIdx_cons, List.flatMap_cons, List.flatten_cons]
      exact List.rel_append (first start) (ih (start + 1))

/-- A field that is not expanded is the parameter of the empty way. -/
theorem leaf_gives (readable : registry.Readable) (commented : field.comment.IsReadable)
    (leaf : registry.IsLeaf field) :
    ∃ parameters, (do return [← config.leafParameter registry field] :
        Build (List Parameter)).Gives parameters ∧
      List.Forall₂ (config.DescribesWay registry field) [[]] parameters := by
  obtain ⟨parameter, made, describes⟩ := leafParameter_gives readable commented leaf
  exact ⟨_, made.bind (gives_pure _), .cons describes .nil⟩

/-- What an inner field expands to belongs to the ways through it, unless it is expanded too often
already. -/
theorem inner_gives {fuel : Nat} {inner : MessageField} {text : String}
    (read : field.description = .ok text)
    (expands : ∃ parameters,
      (config.expandField registry fuel (depths.enter inner.fullName) inner).Gives parameters ∧
      List.Forall₂ (config.DescribesWay registry inner)
        (config.waysFrom registry fuel (depths.enter inner.fullName) inner) parameters) :
    ∃ parameters, (do
        if config.depth ≤ depths.count inner.fullName then return []
        let parameters ← config.expandField registry fuel (depths.enter inner.fullName) inner
        return parameters.map (within (config.fieldName field) (Parameter.summary text).1) :
          Build (List Parameter)).Gives parameters ∧
      ∀ position, List.Forall₂ (config.DescribesWay registry field)
        (if config.depth ≤ depths.count inner.fullName then []
          else (config.waysFrom registry fuel (depths.enter inner.fullName) inner).map
            ((inner, position) :: ·)) parameters := by
  by_cases often : config.depth ≤ depths.count inner.fullName
  · simp only [if_pos often]
    exact ⟨[], gives_pure [], fun _ => .nil⟩
  · simp only [if_neg often]
    obtain ⟨parameters, made, each⟩ := expands
    refine ⟨_, made.bind (gives_pure _), fun position => ?_⟩
    rw [List.forall₂_map_left_iff, List.forall₂_map_right_iff]
    exact each.imp fun way parameter describes =>
      describes.within position (Parameter.summary_fst read)

/-- A field expands to the parameters of the ways that are listed, in their order. -/
theorem expandField_gives (config : Config) (readable : registry.Readable) (fuel : Nat)
    (depths : Depths) (commented : field.comment.IsReadable) :
    ∃ parameters, (config.expandField registry fuel depths field).Gives parameters ∧
      List.Forall₂ (config.DescribesWay registry field)
        (config.waysFrom registry fuel depths field) parameters := by
  induction fuel generalizing depths field with
  | zero => exact ⟨[], gives_pure [], .nil⟩
  | succ fuel ih =>
      rw [expandField, waysFrom]
      by_cases map : registry.isMap field = true
      · rw [if_pos map, if_pos map]
        exact ⟨[], gives_pure [], .nil⟩
      rw [if_neg map, if_neg map]
      by_cases other : (!field.isMessage) = true
      · rw [if_pos other, if_pos other]
        exact leaf_gives readable commented (.inl (by simpa using other))
      rw [if_neg other, if_neg other]
      cases found : registry.messageOf? field with
      | none => exact ⟨[], (gives_report _).bind (gives_pure []), .nil⟩
      | some message =>
          dsimp only
          by_cases several : field.isRepeated = true
          · rw [if_pos several, if_pos several]
            exact ⟨[], (gives_report _).bind (gives_pure []), .nil⟩
          rw [if_neg several, if_neg several]
          by_cases closed : WellKnown.isQueryLeaf message.fullName = true
          · rw [if_pos closed, if_pos closed]
            exact leaf_gives readable commented
              (.inr ⟨eq_false_of_ne_true several, message, found, closed⟩)
          rw [if_neg closed, if_neg closed]
          obtain ⟨text, read⟩ := commented
          have fields : ∀ inner ∈ message.fields, inner.comment.IsReadable :=
            readable.fields _ (Registry.mem_of_message? (Registry.message?_of_messageOf? found))
          obtain ⟨expanded, made, each⟩ := Gives.mapM fun inner member =>
            inner_gives read (ih (depths.enter inner.fullName) (fields inner member))
          refine ⟨expanded.flatten, (gives_comment read).bind ?_, ?_⟩
          · exact made.bind (gives_pure _)
          · exact forall₂_flatMap_zipIdx each 0

/-! ## Different names -/

/-- If no message has two fields of one name, a way is told by the names on it. -/
theorem eq_of_names (distinct : ∀ entry ∈ registry.messages,
      (entry.2.fields.map config.fieldName).Nodup) {first second : Way}
    (leads : registry.Leads field first) (other : registry.Leads field second)
    (same : first.fields.map config.fieldName = second.fields.map config.fieldName) :
    first = second := by
  induction leads generalizing second with
  | leaf =>
      cases other with
      | leaf => rfl
      | step => exact (List.cons_ne_nil _ _ same.symm).elim
  | @step field inner message position way expands inside _ ih =>
      cases other with
      | leaf => exact (List.cons_ne_nil _ _ same).elim
      | @step _ inner_again message_again position_again way_again expands_again inside_again
          leads =>
          have one := Option.some.inj (expands.2.1.symm.trans expands_again.2.1)
          subst one
          rw [Way.fields_cons, Way.fields_cons, List.map_cons, List.map_cons] at same
          obtain ⟨named, rest⟩ := List.cons.inj same
          have declared := distinct _
            (Registry.mem_of_message? (Registry.message?_of_messageOf? expands.2.1))
          have placed : (message.fields.map config.fieldName)[position]? =
              (message.fields.map config.fieldName)[position_again]? := by
            rw [List.getElem?_map, List.getElem?_map, inside, inside_again, Option.map_some,
              Option.map_some, named]
          have short : position < (message.fields.map config.fieldName).length := by
            rw [List.length_map]
            exact (List.getElem?_eq_some_iff.mp inside).1
          have positions := (List.getElem?_inj short declared).mp placed
          subst positions
          have fields := Option.some.inj (inside.symm.trans inside_again)
          subst fields
          rw [ih leads rest]

/-- Names without dots are told by what they are joined to. -/
theorem intercalate_inj {first second : List String} (some_first : first ≠ [])
    (some_second : second ≠ []) (plain : ∀ name ∈ first, '.' ∉ name.toList)
    (other_plain : ∀ name ∈ second, '.' ∉ name.toList)
    (same : ".".intercalate first = ".".intercalate second) : first = second := by
  have cut {names : List String} (nonempty : names ≠ [])
      (plain : ∀ name ∈ names, '.' ∉ name.toList) :
      (".".intercalate names).toList.splitOn '.' = names.map String.toList := by
    rw [String.toList_intercalate]
    refine List.splitOn_intercalate '.' (fun text member => ?_)
      fun empty => nonempty (List.map_eq_nil_iff.mp empty)
    obtain ⟨name, inside, rfl⟩ := List.mem_map.mp member
    exact plain name inside
  have texts := cut some_first plain
  rw [same, cut some_second other_plain] at texts
  exact List.map_injective_iff.mpr (fun _ _ => String.toList_injective) texts.symm

/-- The same holds behind a first name with any characters. -/
theorem intercalate_cons_inj {root : String} {first second : List String}
    (plain : ∀ name ∈ first, '.' ∉ name.toList) (other_plain : ∀ name ∈ second, '.' ∉ name.toList)
    (same : ".".intercalate (root :: first) = ".".intercalate (root :: second)) :
    first = second := by
  have longer {names : List String} (nonempty : names ≠ []) :
      (".".intercalate (root :: names)).toList =
        root.toList ++ '.' :: (".".intercalate names).toList := by
    rw [String.intercalate_cons_of_ne_nil nonempty]
    simp
  have differ {names : List String} (nonempty : names ≠ []) :
      ".".intercalate (root :: names) ≠ ".".intercalate [root] := by
    intro same
    have texts := congrArg String.toList same
    rw [longer nonempty, String.intercalate_singleton] at texts
    exact List.cons_ne_nil _ _ (List.append_right_eq_self.mp texts)
  by_cases empty : first = []
  · by_cases other_empty : second = []
    · rw [empty, other_empty]
    · exact (differ other_empty (empty ▸ same.symm)).elim
  · by_cases other_empty : second = []
    · exact (differ empty (other_empty ▸ same)).elim
    · refine intercalate_inj empty other_empty plain other_plain (String.toList_injective ?_)
      have texts := congrArg String.toList same
      rw [longer empty, longer other_empty] at texts
      exact (List.cons.inj (List.append_cancel_left texts)).2

/-- Values have different names if they are related to different items, each of which the name of a
value tells. -/
theorem nodup_of_forall₂ {α β γ : Type} {relates : α → β → Prop} {named : β → γ}
    {items : List α} {values : List β} (each : List.Forall₂ relates items values)
    (distinct : items.Nodup)
    (told : ∀ first ∈ items, ∀ second ∈ items, ∀ value other, relates first value →
      relates second other → named value = named other → first = second) :
    (values.map named).Nodup := by
  induction each with
  | nil => exact List.nodup_nil
  | @cons item value items values first rest ih =>
      obtain ⟨fresh, distinct⟩ := List.nodup_cons.mp distinct
      refine List.nodup_cons.mpr ⟨fun member => ?_, ih distinct fun one inside two within =>
        told one (.tail _ inside) two (.tail _ within)⟩
      obtain ⟨other, inside, same⟩ := List.mem_map.mp member
      obtain ⟨found, among, related⟩ := exists_of_forall₂ rest inside
      exact fresh (told item (.head _) found (.tail _ among) value other first related same.symm ▸
        among)

theorem nodup_of_pairwise_before {ways : List Way} (ordered : ways.Pairwise Before) :
    ways.Nodup := by
  refine ordered.imp fun {first second} before same => ?_
  subst same
  exact List.lt_irrefl first.positions before

/-- The ways that lead from a field and on which no field is expanded too often, each once, depth
first in the order in which fields are declared. -/
structure ListsWays (config : Config) (registry : Registry) (root : MessageField)
    (ways : List Way) : Prop where
  /-- They are exactly the ways that lead from the field and expand no field too often. -/
  exact_ways : ∀ way, way ∈ ways ↔
    registry.Leads root way ∧ ∀ name, way.fullNames.count name ≤ config.depth
  distinct : ways.Nodup
  /-- A way is listed before those that part from it towards a later field. -/
  ordered : ways.Pairwise Before

/-- A field that is expanded from the start comes to exactly one parameter for each way that leads
from it and on which no field is expanded too often, depth first in the order in which fields are
declared. If field names have no dots and differ in each message, so do the names of the parameters.
-/
theorem queryParameters_describe_ways (config : Config) {registry : Registry} {root : MessageField}
    (readable : registry.Readable) (commented : root.comment.IsReadable) :
    ∃ ways parameters, (config.queryParameters registry [] root).Gives parameters ∧
      config.ListsWays registry root ways ∧
      List.Forall₂ (config.DescribesWay registry root) ways parameters ∧
      ((∀ entry ∈ registry.messages, (entry.2.fields.map config.fieldName).Nodup ∧
          ∀ field ∈ entry.2.fields, '.' ∉ (config.fieldName field).toList) →
        (parameters.map Parameter.name).Nodup) := by
  let fuel := (config.depth + Depths.slack []) * fieldCount registry + 1
  obtain ⟨parameters, made, each⟩ := expandField_gives config readable fuel [] commented
  have listed (way : Way) : way ∈ config.waysFrom registry fuel [] root ↔
      registry.Leads root way ∧ ∀ name, way.fullNames.count name ≤ config.depth := by
    rw [mem_waysFrom, ← fits_nil]
    constructor
    · rintro ⟨leads, fits, -⟩
      exact ⟨leads, fits⟩
    · rintro ⟨leads, fits⟩
      exact ⟨leads, fits, length_lt_of_fits leads fits⟩
  have ordered : (config.waysFrom registry fuel [] root).Pairwise Before := pairwise_waysFrom
  have distinct := nodup_of_pairwise_before ordered
  refine ⟨_, parameters, made, ⟨listed, distinct, ordered⟩, each, fun named => ?_⟩
  have plain (way : Way) (leads : registry.Leads root way) :
      ∀ name ∈ way.fields.map config.fieldName, '.' ∉ name.toList := by
    intro name member
    obtain ⟨inner, inside, rfl⟩ := List.mem_map.mp member
    obtain ⟨entry, among, declared⟩ := mem_messages_of_leads leads inner inside
    exact (named entry among).2 inner declared
  refine nodup_of_forall₂ each distinct
    fun first member second other _ _ describes again same => ?_
  have leads := ((listed first).mp member).1
  have other_leads := ((listed second).mp other).1
  rw [describes.name, again.name] at same
  exact eq_of_names (fun entry among => (named entry among).1) leads other_leads
    (intercalate_cons_inj (plain first leads) (plain second other_leads) same)

/-- A field that holds a book of the library. -/
def bookField : MessageField where
  fullName := "library.Loan.book"
  containing := "library.Loan"
  definition := { name := "book", type := .message, typeName := ".library.Book" }
  comment := .empty

/-- A book expands to parameters with different names, though it can hold another book. -/
theorem book_describes_ways : ∃ ways parameters,
    (libraryConfig.queryParameters libraryRegistry [] bookField).Gives parameters ∧
      libraryConfig.ListsWays libraryRegistry bookField ways ∧
      List.Forall₂ (libraryConfig.DescribesWay libraryRegistry bookField) ways parameters ∧
      (parameters.map Parameter.name).Nodup := by
  have readable : libraryRegistry.Readable := by decide +kernel
  have commented : bookField.comment.IsReadable := by decide +kernel
  have named : ∀ entry ∈ libraryRegistry.messages,
      (entry.2.fields.map libraryConfig.fieldName).Nodup ∧
        ∀ field ∈ entry.2.fields, '.' ∉ (libraryConfig.fieldName field).toList := by
    decide +kernel
  obtain ⟨ways, parameters, made, listed, each, distinct⟩ :=
    queryParameters_describe_ways libraryConfig readable commented
  exact ⟨ways, parameters, made, listed, each, distinct named⟩

end Config

end ServiceDoc
