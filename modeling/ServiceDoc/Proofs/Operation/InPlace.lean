import ServiceDoc.Proofs.Operation.Cover
import ServiceDoc.Proofs.Operation.Query

/-!
# Placeholders in their places

A placeholder should stand for the field of its name, and the formatted name of that field should
stand in its place. Fields are also found by their names in JSON, and the placeholder that is
replaced is the first one in a text in which others are replaced already. So both hold as long as no
field is found for the name of a later one, and no placeholder is formatted as a later one.
-/

namespace ServiceDoc

open Build Template

/-- The field with a name, whatever fields are named in JSON. -/
def Message.ownField? (message : Message) (name : String) : Option MessageField :=
  message.fields.find? fun field => field.name == name

theorem Message.ownField?_eq_some {message : Message} {name : String} {field : MessageField}
    (distinct : (message.fields.map MessageField.name).Nodup) :
    message.ownField? name = some field ↔ field ∈ message.fields ∧ field.name = name := by
  constructor
  · intro found
    exact ⟨List.mem_of_find?_eq_some found, by simpa using List.find?_some found⟩
  · rintro ⟨member, rfl⟩
    obtain ⟨before, after, split⟩ := List.append_of_mem member
    refine List.find?_eq_some_iff_append.mpr ⟨beq_self_eq_true _, before, after, split, ?_⟩
    intro other earlier
    rw [split, List.map_append, List.nodup_append] at distinct
    have differ := distinct.2.2 _ (List.mem_map_of_mem earlier) _ (.head _)
    simpa using differ

/-! ## What binds in place -/

namespace Config

variable (config : Config) (registry : Registry) (message : Message)

/-- A piece with the formatted name of the field whose name is in its placeholder. -/
def formatPiece : Piece → Piece
  | .name name =>
    match message.ownField? (String.ofList name) with
    | some field => .name (config.fieldName field).toList
    | none => .name name
  | .text text => .text text
  | .pattern pattern => .pattern pattern

/-- A parameter that stands for a field in the path. -/
structure StandsFor (field : MessageField) (parameter : Parameter) : Prop where
  name : parameter.name = config.fieldName field
  place : parameter.place = .path
  required : parameter.required = true
  /-- A field without a schema is a text. -/
  schema : ∃ schema, (config.schemaOfField registry field).Gives schema ∧
    parameter.schema = some (schema.getD Schema.string)
  description : field.description = .ok parameter.description

/-- A template is expanded in place: each placeholder is replaced where it stands by the formatted
name of its field, and is a parameter for that field. -/
structure ExpandsInPlace (pieces : List Piece) (expanded : ExpandedPath) : Prop where
  path : expanded.path = String.ofList (written (pieces.map (config.formatPiece message)))
  covered : expanded.covered = (namesOf pieces).map String.ofList
  parameters : List.Forall₂ (fun name parameter => ∃ field,
    message.ownField? (String.ofList name) = some field ∧ config.StandsFor registry field parameter)
    (namesOf pieces) expanded.parameters

/-- The placeholders of a template are told apart from each other and from names in JSON. -/
structure KeepsApart (names : List (List Char)) : Prop where
  /-- No field with a placeholder is declared behind one that has its name in JSON. -/
  declared : message.fields.Pairwise fun earlier later =>
    later.name.toList ∈ names → earlier.jsonName ≠ later.name
  /-- No field is formatted as another one that has a placeholder behind it. -/
  formatted : names.Pairwise fun first second => first ≠ second →
    ∀ field ∈ message.fields, field.name.toList = first → (config.fieldName field).toList ≠ second

instance (names : List (List Char)) : Decidable (config.KeepsApart message names) :=
  decidable_of_iff ((message.fields.Pairwise fun earlier later =>
      later.name.toList ∈ names → earlier.jsonName ≠ later.name) ∧
      names.Pairwise fun first second => first ≠ second → ∀ field ∈ message.fields,
        field.name.toList = first → (config.fieldName field).toList ≠ second)
    ⟨fun apart => ⟨apart.1, apart.2⟩, fun apart => ⟨apart.declared, apart.formatted⟩⟩

end Config

/-! ## Finding fields -/

/-- A field that is declared behind none that has its name in JSON is found by its name. -/
theorem Message.field?_eq_ownField? {message : Message} {names : List (List Char)} {name : String}
    (declared : message.fields.Pairwise fun earlier later =>
      later.name.toList ∈ names → earlier.jsonName ≠ later.name)
    (member : name.toList ∈ names) (named : ∃ field ∈ message.fields, field.name = name) :
    message.field? name = message.ownField? name := by
  have some_own : (message.ownField? name).isSome := by
    obtain ⟨field, inside, rfl⟩ := named
    exact List.find?_isSome.mpr ⟨field, inside, beq_self_eq_true _⟩
  obtain ⟨field, own⟩ := Option.isSome_iff_exists.mp some_own
  obtain ⟨matched, before, after, split, others⟩ := List.find?_eq_some_iff_append.mp own
  have same : field.name = name := by simpa using matched
  refine (List.find?_eq_some_iff_append.mpr ⟨?_, before, after, split, ?_⟩).trans own.symm
  · simp [same]
  · intro other earlier
    rw [split, List.pairwise_append] at declared
    have json_differs := declared.2.2 other earlier field (.head _) (same ▸ member)
    have differs : other.name ≠ name := by simpa using others other earlier
    simp [Ne.symm differs, same ▸ Ne.symm json_differs]

namespace Config

variable {config : Config} {registry : Registry} {message : Message} {pieces : List Piece}

/-! ## Replacing in place -/

/-- A piece with the name of a segment in its placeholder. -/
def segmentPiece (config : Config) (input : Option Message) : Piece → Piece
  | .name name => .name (config.segmentName input name)
  | .text text => .text text
  | .pattern pattern => .pattern pattern

theorem isFormed_segmentPiece {input : Option Message} {piece : Piece}
    (plain : ∀ message ∈ input, message.HasPlainNames) (formed : piece.IsFormed) :
    (config.segmentPiece input piece).IsFormed := by
  cases piece with
  | text => exact formed
  | pattern => exact formed
  | name name =>
      change IsName (config.segmentName input name)
      rcases config.segmentName_cases plain name with same | named
      · rw [same]
        exact formed
      · exact named

theorem pattern?_segmentPiece (input : Option Message) (piece : Piece) :
    (config.segmentPiece input piece).pattern? = piece.pattern? := by
  cases piece <;> rfl

/-- Names are written where they are read, if no placeholder is replaced by one that is still to be
replaced by something else. -/
theorem formatPlaceholders_in_place {input : Option Message} (before : List Piece)
    (plain : ∀ message ∈ input, message.HasPlainNames)
    (formed : ∀ piece ∈ before ++ pieces, piece.IsFormed)
    (simple : ∀ piece ∈ before ++ pieces, piece.pattern? = none)
    (later : (namesOf pieces).Pairwise fun first second => first ≠ second →
      config.segmentName input first ≠ second)
    (away : ∀ name ∈ namesOf pieces, config.segmentName input name ≠ name → name ∉ namesOf before) :
    config.formatPlaceholders input (written (before ++ pieces)) (namesOf pieces) =
      written (before ++ pieces.map (config.segmentPiece input)) := by
  -- What is read already stands before the rest, with its formatted names.
  induction pieces generalizing before with
  | nil => rfl
  | cons piece pieces ih =>
      cases piece with
      | pattern p =>
          exact (Option.some_ne_none _ (simple _ (List.mem_append_right _ (.head _)))).elim
      | text text =>
          rw [List.append_cons before] at formed simple
          rw [List.map_cons, segmentPiece, List.append_cons before _ pieces,
            List.append_cons before _ (pieces.map _)]
          refine ih _ formed simple later fun name member changed inside => ?_
          rw [namesOf, List.filterMap_append, List.mem_append] at inside
          exact inside.elim (away name member changed) List.not_mem_nil
      | name name =>
          obtain ⟨formed_before, formed_rest⟩ := List.forall_mem_append.mp formed
          obtain ⟨formed_here, formed_after⟩ := List.forall_mem_cons.mp formed_rest
          obtain ⟨simple_before, simple_rest⟩ := List.forall_mem_append.mp simple
          obtain ⟨-, simple_after⟩ := List.forall_mem_cons.mp simple_rest
          have read : namesOf (.name name :: pieces) = name :: namesOf pieces := rfl
          rw [read] at later away ⊢
          obtain ⟨behind, later⟩ := List.pairwise_cons.mp later
          have new_named : IsName (config.segmentName input name) :=
            isFormed_segmentPiece plain formed_here
          have replaced : Text.replaceFirst (placeholder name)
              (placeholder (config.segmentName input name))
              (written (before ++ .name name :: pieces)) =
              written (before ++ .name (config.segmentName input name) :: pieces) := by
            rw [written_append, written_cons, written_append, written_cons, Piece.written,
              Piece.written]
            by_cases same : config.segmentName input name = name
            · rw [same, Text.replaceFirst_self]
            · have absent : name ∉ before.filterMap Piece.inner? := by
                intro inside
                obtain ⟨piece, among, inner⟩ := List.mem_filterMap.mp inside
                cases piece with
                | text => contradiction
                | name other =>
                    obtain rfl := Option.some.inj inner
                    exact away _ (.head _) same (mem_namesOf.mpr among)
                | pattern p => exact Option.some_ne_none _ (simple_before _ among)
              rw [replaceFirst_written formed_before formed_here.1 absent, List.append_assoc]
          change config.formatPlaceholders input (Text.replaceFirst _ _ _) (namesOf pieces) = _
          rw [replaced, List.map_cons, segmentPiece, List.append_cons before _ pieces,
            List.append_cons before _ (pieces.map _)]
          refine ih _ ?_ ?_ later fun other member changed inside => ?_
          · exact List.forall_mem_append.mpr ⟨List.forall_mem_append.mpr
              ⟨formed_before, List.forall_mem_singleton.mpr new_named⟩, formed_after⟩
          · exact List.forall_mem_append.mpr ⟨List.forall_mem_append.mpr
              ⟨simple_before, List.forall_mem_singleton.mpr rfl⟩, simple_after⟩
          · rw [namesOf, List.filterMap_append, List.mem_append] at inside
            rcases inside with earlier | here
            · exact away other (.tail _ member) changed earlier
            · obtain rfl := List.mem_singleton.mp here
              by_cases same : name = config.segmentName input name
              · exact changed (same ▸ same.symm)
              · exact behind _ member same rfl

/-! ## Expanding in place -/

variable (named : ∀ name ∈ namesOf pieces, ∃ field ∈ message.fields,
  field.name = String.ofList name) (apart : config.KeepsApart message (namesOf pieces))

include named apart

/-- The field whose name a placeholder has is found for the placeholder. -/
theorem exists_ownField? {name : List Char} (member : name ∈ namesOf pieces) :
    ∃ field, message.ownField? (String.ofList name) = some field ∧
      message.field? (String.ofList name) = some field := by
  have found := Message.field?_eq_ownField? apart.declared (String.toList_ofList.symm ▸ member)
    (named name member)
  obtain ⟨field, inside, same⟩ := named name member
  have some_own : (message.ownField? (String.ofList name)).isSome :=
    List.find?_isSome.mpr ⟨field, inside, beq_iff_eq.mpr same⟩
  obtain ⟨own, is_own⟩ := Option.isSome_iff_exists.mp some_own
  exact ⟨own, is_own, found.trans is_own⟩

omit named apart in
theorem segmentName_of_field? {name : List Char} {field : MessageField}
    (found : message.field? (String.ofList name) = some field) :
    config.segmentName (some message) name = (config.fieldName field).toList := by
  unfold segmentName pathName
  rw [Option.bind_some, found]

/-- A segment gets the formatted name of the field whose name it has. -/
theorem segmentPiece_eq_formatPiece {piece : Piece} (inside : piece ∈ pieces) :
    config.segmentPiece (some message) piece = config.formatPiece message piece := by
  cases piece with
  | text => rfl
  | pattern => rfl
  | name name =>
      obtain ⟨field, own, found⟩ := exists_ownField? named apart (mem_namesOf.mpr inside)
      rw [segmentPiece, formatPiece, segmentName_of_field? found, own]

/-- The parameter of a placeholder stands for the field whose name the placeholder has. -/
theorem standsFor_of_placeholderParameter {name : List Char} {parameter : Parameter}
    {work after : Workspace} (member : name ∈ namesOf pieces)
    (runs : (config.placeholderParameter registry (some message) name).Runs work parameter after) :
    ∃ field, message.ownField? (String.ofList name) = some field ∧
      config.StandsFor registry field parameter := by
  obtain ⟨own, is_own, found⟩ := exists_ownField? named apart member
  unfold placeholderParameter at runs
  rw [Option.bind_some, found, segmentName_of_field? found] at runs
  simp only [runs_bind, runs_comment, runs_pure] at runs
  obtain ⟨schema, _, made, description, _, ⟨read, rfl⟩, rfl, rfl⟩ := runs
  exact ⟨own, is_own, String.ofList_toList, rfl, rfl, ⟨schema, schemaOfField_steady own made, rfl⟩,
    read⟩

/-- A placeholder whose field has a schema and a comment that can be read has a parameter. -/
theorem placeholderParameter_gives {name : List Char} (member : name ∈ namesOf pieces)
    (known : ∀ field, message.ownField? (String.ofList name) = some field →
      field.comment.IsReadable ∧ ∃ schema, (config.schemaOfField registry field).Gives schema) :
    ∃ parameter, (config.placeholderParameter registry (some message) name).Gives parameter := by
  obtain ⟨field, own, found⟩ := exists_ownField? named apart member
  obtain ⟨⟨text, read⟩, schema, made⟩ := known field own
  unfold placeholderParameter
  rw [Option.bind_some, found]
  exact ⟨_, made.bind ((gives_comment read).bind (gives_pure _))⟩

/-- Formatting its placeholders is all that expanding does to the text of a template without
patterns. -/
theorem expandPattern_formatPlaceholders (template : IsTemplate pieces)
    (simple : patternsOf pieces = []) (plain : message.HasPlainNames) :
    config.expandPattern (some message)
        (config.formatPlaceholders (some message) (written pieces) (namesOf pieces)) =
      ⟨[], [], String.ofList (written (pieces.map (config.formatPiece message)))⟩ := by
  have plain_input : ∀ input ∈ some message, input.HasPlainNames :=
    fun _ member => Option.mem_some.mp member ▸ plain
  have no_pattern : ∀ piece ∈ pieces, piece.pattern? = none := List.filterMap_eq_nil_iff.mp simple
  have same : pieces.map (config.segmentPiece (some message)) =
      pieces.map (config.formatPiece message) :=
    List.map_congr_left fun piece inside => segmentPiece_eq_formatPiece named apart inside
  have later : (namesOf pieces).Pairwise fun first second => first ≠ second →
      config.segmentName (some message) first ≠ second := by
    refine apart.formatted.imp_of_mem fun {first second} member _ differ distinct => ?_
    obtain ⟨field, own, found⟩ := exists_ownField? named apart member
    have field_named : field.name = String.ofList first := by simpa using List.find?_some own
    rw [segmentName_of_field? found]
    exact differ distinct field (List.mem_of_find?_eq_some own)
      (field_named ▸ String.toList_ofList)
  have formatted : config.formatPlaceholders (some message) (written pieces) (namesOf pieces) =
      written (pieces.map (config.formatPiece message)) := by
    rw [← same]
    exact formatPlaceholders_in_place [] plain_input template.formed no_pattern later
      fun _ _ _ => List.not_mem_nil
  have formed : ∀ piece ∈ pieces.map (config.formatPiece message), piece.IsFormed := by
    rw [← same, List.forall_mem_map]
    exact fun piece inside => isFormed_segmentPiece plain_input (template.formed piece inside)
  have patterns : patternsOf (pieces.map (config.formatPiece message)) = [] := by
    rw [← same, patternsOf, List.filterMap_map]
    exact List.filterMap_eq_nil_iff.mpr fun piece inside =>
      (pattern?_segmentPiece _ piece).trans (no_pattern piece inside)
  unfold expandPattern
  rw [formatted, pattern?_written formed, patterns]
  rfl

/-- A template without patterns, whose placeholders have the names of fields that are kept apart, is
expanded in place if it is expanded; and it is if the fields of its placeholders have schemas and
comments that can be read. -/
theorem expandPath_in_place (template : IsTemplate pieces) (simple : patternsOf pieces = [])
    (plain : message.HasPlainNames) (distinct : (message.fields.map MessageField.name).Nodup) :
    let path := String.ofList (written pieces)
    (∀ work expanded after, (config.expandPath registry path (some message)).Runs work expanded
      after → config.ExpandsInPlace registry message pieces expanded) ∧
    ((∃ expanded, (config.expandPath registry path (some message)).Gives expanded) ↔
      ∀ field ∈ message.fields, field.name.toList ∈ namesOf pieces →
        field.comment.IsReadable ∧
          ∃ schema, (config.schemaOfField registry field).Gives schema) := by
  intro path
  have read : simpleNames path.length path.toList = namesOf pieces := by
    rw [String.toList_ofList]
    exact simpleNames_written template.formed template.named (String.length_ofList ▸ le_rfl)
  have rewritten := expandPattern_formatPlaceholders named apart template simple plain
  have in_place : ∀ work expanded after, (config.expandPath registry path (some message)).Runs work
      expanded after → config.ExpandsInPlace registry message pieces expanded := by
    intro work expanded after runs
    unfold expandPath at runs
    simp only [read, runs_bind, runs_pure] at runs
    obtain ⟨parameters, _, rounds, rfl, rfl⟩ := runs
    obtain ⟨-, each⟩ := Runs.mapM_relates (fun _ _ => True)
      (fun _ name parameter => ∃ field, message.ownField? (String.ofList name) = some field ∧
        config.StandsFor registry field parameter)
      (fun _ => trivial) (fun _ _ => trivial) (fun _ => id)
      (fun name member _ _ _ round =>
        ⟨trivial, standsFor_of_placeholderParameter named apart member round⟩) rounds
    rw [String.toList_ofList, rewritten]
    exact ⟨rfl, List.append_nil _, (List.append_nil parameters).symm ▸ each⟩
  refine ⟨in_place, fun comes => ?_, fun known => ?_⟩
  · obtain ⟨expanded, gives⟩ := comes
    obtain ⟨after, runs⟩ := gives { document := default }
    have known : ∀ name ∈ namesOf pieces, ∃ field,
        message.ownField? (String.ofList name) = some field ∧ field.comment.IsReadable ∧
          ∃ schema, (config.schemaOfField registry field).Gives schema :=
      forall_of_forall₂ ((in_place _ _ _ runs).parameters.imp fun name parameter bound => by
        obtain ⟨field, own, stands⟩ := bound
        obtain ⟨schema, made, -⟩ := stands.schema
        exact ⟨field, own, ⟨_, stands.description⟩, schema, made⟩)
    intro field inside member
    obtain ⟨own, is_own, known⟩ := known _ member
    rw [String.ofList_toList, (Message.ownField?_eq_some distinct).mpr ⟨inside, rfl⟩] at is_own
    exact Option.some.inj is_own ▸ known
  · have round : ∀ name ∈ namesOf pieces, ∃ parameter,
        (config.placeholderParameter registry (some message) name).Gives parameter ∧ True := by
      intro name member
      obtain ⟨parameter, gives⟩ := placeholderParameter_gives named apart member fun field own => by
        obtain ⟨inside, same⟩ := (Message.ownField?_eq_some distinct).mp own
        exact known field inside (same ▸ String.toList_ofList.symm ▸ member)
      exact ⟨parameter, gives, trivial⟩
    obtain ⟨parameters, gives, -⟩ := Gives.mapM round
    unfold expandPath
    rw [read]
    exact ⟨_, gives.bind (gives_pure _)⟩

end Config

/-- The configuration of a library whose fields are named as in JSON. -/
def jsonConfig : Config := { libraryConfig with naming := .json }

/-- The registry of a message with a field `b`, which is `c` in JSON, before a field `a`, which is
`b`. -/
def swapRegistry : Registry := .ofFiles [] [Config.swapFile]

/-- A path that takes a field before the field that has its name in JSON. -/
def aheadPath : List Piece :=
  [.text "/".toList, .name "b".toList, .text "/".toList, .name "a".toList]

/-- A field that is replaced before the one that has its name in JSON stays where it is. -/
theorem aheadPath_in_place : ∃ message expanded, swapRegistry.message? ".Swap" = some message ∧
    (jsonConfig.expandPath swapRegistry (String.ofList (written aheadPath)) (some message)).Gives
      expanded ∧
    jsonConfig.ExpandsInPlace swapRegistry message aheadPath expanded := by
  have template : IsTemplate aheadPath := by decide
  have suited : ∀ message ∈ swapRegistry.message? ".Swap",
      (∀ name ∈ namesOf aheadPath, ∃ field ∈ message.fields, field.name = String.ofList name) ∧
      jsonConfig.KeepsApart message (namesOf aheadPath) ∧ message.HasPlainNames ∧
      (message.fields.map MessageField.name).Nodup ∧
      ∀ field ∈ message.fields, field.comment.IsReadable ∧ field.isMessage = false := by
    decide +kernel
  have known : (swapRegistry.message? ".Swap").isSome := by decide
  have readable : swapRegistry.Readable := by decide +kernel
  obtain ⟨message, found⟩ := Option.isSome_iff_exists.mp known
  obtain ⟨named, apart, plain, distinct, fields⟩ := suited message found
  obtain ⟨in_place, comes⟩ :=
    @Config.expandPath_in_place _ swapRegistry _ _ named apart template rfl plain distinct
  obtain ⟨expanded, gives⟩ := comes.mpr fun field inside _ =>
    ⟨(fields field inside).1,
      jsonConfig.schemaOfField_gives readable (.inl (fields field inside).2)⟩
  obtain ⟨after, runs⟩ := gives { document := default }
  exact ⟨message, expanded, found, gives, in_place _ _ _ runs⟩

/-- A message with a field `a` that is `b` in JSON before a field `b` that is `c`. -/
def crossFile : FileDefinition where
  name := "cross.proto"
  messages := [
    { name := "Cross"
      fields := [
        { name := "a", type := .string, jsonName := "b" },
        { name := "b", type := .string, jsonName := "c" }] }]

/-- What a template becomes for a message, and what it would be in place. -/
def Config.paths (config : Config) (registry : Registry) (typeName : String) (pieces : List Piece) :
    Option (String × String) := do
  let message ← registry.message? typeName
  let expanded ← (config.expandPath registry (String.ofList (written pieces)) message).run'
    ⟨.empty .document, [], [], []⟩
  return (expanded.path, String.ofList (written (pieces.map (config.formatPiece message))))

/-- A placeholder that is formatted as a later one is replaced in its stead, and a field that is
declared behind one that has its name in JSON is not the one that is found: though all names of the
message differ, the path is not what it would be in place. -/
theorem placeholders_leave_places :
    (∀ entry ∈ swapRegistry.messages ++ (Registry.ofFiles [] [crossFile]).messages,
      (entry.2.fields.map MessageField.name).Nodup ∧
        (entry.2.fields.map MessageField.jsonName).Nodup ∧ entry.2.HasPlainNames) ∧
    jsonConfig.paths swapRegistry ".Swap"
        [.text "/".toList, .name "a".toList, .text "/".toList, .name "b".toList] =
      some ("/\x7bc\x7d/\x7bb\x7d", "/\x7bb\x7d/\x7bc\x7d") ∧
    libraryConfig.paths (.ofFiles [] [crossFile]) ".Cross" [.text "/".toList, .name "b".toList] =
      some ("/\x7ba\x7d", "/\x7bb\x7d") := by
  refine ⟨?_, ?_, ?_⟩ <;> decide +kernel

end ServiceDoc
