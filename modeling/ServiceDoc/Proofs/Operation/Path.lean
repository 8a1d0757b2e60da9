import ServiceDoc.Proofs.Operation.Reflect
import ServiceDoc.Proofs.Operation.Template

/-!
# Paths and their parameters

The path of an operation holds exactly the names of the parameters that stand in the path, each as
often as there is such a parameter.
-/

namespace ServiceDoc

open Build Template

/-- The text of a field. -/
def Element.text? (element : Element) (key : String) : Option String :=
  (element.value? key).bind Value.string?

/-- The parameters of an operation that stand in the path. -/
def Element.pathParameters (operation : Element) : List Element :=
  (operation.many "parameters").filter fun parameter => parameter.text? "in" = some "path"

namespace Parameter

/-- What the fields of the element of a parameter hold. -/
theorem get?_toElement (parameter : Parameter) (key : String) : parameter.toElement.get? key =
    if key = "schema" then parameter.schema.map Content.one
    else if key = "required" then if parameter.required then some .flag else none
    else if key = "description" then some (.value (.string parameter.description))
    else if key = "in" then some (.value (.string parameter.place.word))
    else if key = "name" then some (.value (.string parameter.name))
    else none := by
  have start (key : String) : (Element.empty .parameter).get? key = none := rfl
  have bare : parameter.toElement.get? key = ((((((Element.empty .parameter).setText "name"
      parameter.name).setText "in" parameter.place.word).setText "description"
      parameter.description).setFlag "required" parameter.required).setOne? "schema"
      parameter.schema).get? key := by
    unfold toElement
    cases parameter.preset <;> rfl
  rw [bare]
  simp only [Element.get?_setOne?, Element.get?_setFlag, Element.setText, Element.get?_set, start]
  simp

@[simp] theorem text?_name_toElement (parameter : Parameter) :
    parameter.toElement.text? "name" = some parameter.name := by
  simp [Element.text?, Element.value?, get?_toElement, Value.string?]

@[simp] theorem text?_in_toElement (parameter : Parameter) :
    parameter.toElement.text? "in" = some parameter.place.word := by
  simp [Element.text?, Element.value?, get?_toElement, Value.string?]

@[simp] theorem flag_required_toElement (parameter : Parameter) :
    parameter.toElement.flag "required" = parameter.required := by
  cases required : parameter.required <;> simp [Element.flag, get?_toElement, required]

@[simp] theorem one?_schema_toElement (parameter : Parameter) :
    parameter.toElement.one? "schema" = parameter.schema := by
  cases shaped : parameter.schema <;> simp [Element.one?, get?_toElement, shaped]

end Parameter

/-! ## Names of segments -/

theorem subset_of_withoutSuffix? {ending text stem : String}
    (cut : withoutSuffix? ending text = some stem) : stem.toList ⊆ text.toList := by
  unfold withoutSuffix? at cut
  simp only at cut
  split at cut
  · obtain rfl := Option.some.inj cut
    intro c member
    rw [String.toList_ofList, List.mem_reverse] at member
    exact List.mem_reverse.mp (List.mem_of_mem_drop member)
  · contradiction

/-- The name of a resource has no braces if that of its collection has none. -/
theorem isPlain_singular {text : String} (plain : IsPlain text.toList) :
    IsPlain (singular text).toList := by
  have stem_plain {ending stem : String} (cut : withoutSuffix? ending text = some stem) :
      IsPlain stem.toList :=
    ⟨fun opened => plain.1 (subset_of_withoutSuffix? cut opened),
      fun closed => plain.2 (subset_of_withoutSuffix? cut closed)⟩
  unfold singular
  split
  next stem cut =>
    rw [String.toList_append]
    exact (stem_plain cut).append (by decide)
  next =>
    split
    next stem cut =>
      rw [String.toList_append]
      exact (stem_plain cut).append (by decide)
    next =>
      cases cut : withoutSuffix? "s" text with
      | none => exact plain
      | some stem => exact stem_plain cut

/-- The fields of a message have names that can stand in placeholders. -/
def Message.HasPlainNames (message : Message) : Prop :=
  ∀ field ∈ message.fields, IsName field.name.toList ∧ IsName field.jsonName.toList

instance (message : Message) : Decidable message.HasPlainNames :=
  inferInstanceAs (Decidable (∀ field ∈ message.fields, _))

namespace Config

variable {config : Config} {registry : Registry} {input : Option Message}
  {pieces : List Piece} {work after : Workspace}

/-- A segment keeps its name, or it gets one of a field. -/
theorem segmentName_cases (config : Config) (plain : ∀ message ∈ input, message.HasPlainNames)
    (name : List Char) :
    config.segmentName input name = name ∨ IsName (config.segmentName input name) := by
  unfold segmentName pathName
  split
  next field found =>
    obtain ⟨message, given, among⟩ := Option.bind_eq_some_iff.mp found
    obtain ⟨named, json_named⟩ := plain message given field (List.mem_of_find?_eq_some among)
    right
    unfold fieldName
    cases config.naming with
    | proto => exact named
    | json => exact json_named
  next => exact .inl String.toList_ofList

/-! ## Formatting -/

/-- Writing the formatted names into a template gives a template with the formatted names in place
of the given ones. The names that are done can be among those that are still to do: each step
replaces one placeholder of the name, whichever it is. -/
theorem formatPlaceholders_written (config : Config)
    (plain : ∀ message ∈ input, message.HasPlainNames)
    (formed : ∀ piece ∈ pieces, piece.IsFormed) {done names : List (List Char)}
    (remaining : (namesOf pieces).Perm (done ++ names)) :
    ∃ replaced, (∀ piece ∈ replaced, piece.IsFormed) ∧
      written replaced = config.formatPlaceholders input (written pieces) names ∧
      (namesOf replaced).Perm (done ++ names.map (config.segmentName input)) ∧
      patternsOf replaced = patternsOf pieces := by
  -- What is left is known up to order only: a formatted name can be one that is still to do, and is
  -- then replaced in its place.
  induction names generalizing pieces done with
  | nil => exact ⟨pieces, formed, rfl, remaining, rfl⟩
  | cons name names ih =>
      have member : name ∈ namesOf pieces := remaining.mem_iff.mpr (by simp)
      have new_named : IsName (config.segmentName input name) := by
        rcases config.segmentName_cases plain name with same | named
        · exact same.symm ▸ formed _ (mem_namesOf.mp member)
        · exact named
      obtain ⟨next, next_formed, next_written, swapped, next_patterns⟩ :=
        replaceFirst_name formed member new_named
      have moved : (config.segmentName input name :: done ++ name :: names).Perm
          (name :: (config.segmentName input name :: done ++ names)) := List.perm_middle
      have left : (namesOf next).Perm (config.segmentName input name :: done ++ names) :=
        (swapped.trans ((remaining.cons _).trans moved)).cons_inv
      obtain ⟨replaced, replaced_formed, replaced_written, renamed, patterns⟩ := ih next_formed left
      refine ⟨replaced, replaced_formed, ?_, renamed.trans List.perm_middle.symm,
        patterns.trans next_patterns⟩
      rw [replaced_written, next_written]
      rfl

/-! ## Expanding -/

theorem isPlain_resource (config : Config) (plain : ∀ message ∈ input, message.HasPlainNames)
    {collection : List Char} (collection_plain : IsPlain collection) :
    IsPlain (singular (String.ofList (config.segmentName input collection))).toList := by
  refine isPlain_singular (String.toList_ofList.symm ▸ ?_)
  rcases config.segmentName_cases plain collection with same | named
  · exact same.symm ▸ collection_plain
  · exact named.1

/-- Expanding the placeholder with a pattern gives a path that holds the names of the simple
placeholders and of the parameters. -/
theorem expandPattern_written (config : Config)
    (plain : ∀ message ∈ input, message.HasPlainNames)
    (formed : ∀ piece ∈ pieces, piece.IsFormed) (single : (patternsOf pieces).length ≤ 1) :
    ∃ names, bracedNames? (config.expandPattern input (written pieces)).path = some names ∧
      names.Perm ((namesOf pieces).map String.ofList ++
        (config.expandPattern input (written pieces)).parameters.map Parameter.name) := by
  unfold expandPattern
  rw [pattern?_written formed]
  cases patterns : patternsOf pieces with
  | nil =>
      have simple : ∀ piece ∈ pieces, piece.pattern? = none :=
        List.filterMap_eq_nil_iff.mp patterns
      exact ⟨_, (holds_written formed simple).bracedNames?_eq, by simp⟩
  | cons p rest =>
      have alone : rest = [] := List.eq_nil_of_length_eq_zero (by simpa [patterns] using single)
      have pattern_formed : p.IsFormed :=
        formed (.pattern p) (mem_patternsOf.mp (patterns.symm ▸ .head _))
      have parts_plain : ∀ part ∈ Text.cutAt '/' p.pattern, IsPlain part :=
        fun part member => isPlain_of_mem_cutAt pattern_formed.plain member
      have resources := holds_expandParts parts_plain
        fun collection collection_plain => config.isPlain_resource plain collection_plain
      obtain ⟨all, holds, same⟩ := holds_replaceFirst_source formed (alone ▸ patterns) resources
      refine ⟨_, holds.bracedNames?_eq, (same.map String.ofList).trans (.of_eq ?_)⟩
      simp only [List.map_append, List.head?_cons, List.map_map]
      rfl

/-- Expanding a path template gives a path that holds the names of the parameters. -/
theorem expandPath_written {expanded : ExpandedPath} (template : IsTemplate pieces)
    (plain : ∀ message ∈ input, message.HasPlainNames)
    (runs : (config.expandPath registry (String.ofList (written pieces)) input).Runs work expanded
      after) :
    (∃ names, bracedNames? expanded.path = some names ∧
      names.Perm (expanded.parameters.map Parameter.name)) ∧
    ∀ parameter ∈ expanded.parameters, ∃ name, IsSegment name parameter := by
  have found : simpleNames (String.ofList (written pieces)).length
      (String.ofList (written pieces)).toList = namesOf pieces := by
    rw [String.toList_ofList]
    exact simpleNames_written template.formed template.named (String.length_ofList ▸ le_rfl)
  unfold expandPath at runs
  simp only [found, runs_bind, runs_pure] at runs
  obtain ⟨parameters, _, rounds, rfl, rfl⟩ := runs
  obtain ⟨-, each⟩ := Runs.mapM_relates (fun _ _ => True)
    (fun _ name parameter => IsSegment (config.segmentName input name) parameter)
    (fun _ => trivial) (fun _ _ => trivial) (fun _ => id)
    (fun name _ before parameter between round =>
      ⟨trivial, (placeholderParameter_runs round).2.1⟩) rounds
  have start : (namesOf pieces).Perm ([] ++ namesOf pieces) := .refl _
  obtain ⟨replaced, formed, rewritten, renamed, patterns⟩ :=
    config.formatPlaceholders_written plain template.formed start
  obtain ⟨names, braced, same⟩ :=
    config.expandPattern_written plain formed (patterns.symm ▸ template.single)
  have named : (namesOf pieces).map (String.ofList ∘ config.segmentName input) =
      parameters.map Parameter.name :=
    List.forall₂_eq_eq_eq ▸ List.forall₂_map_left_iff.mpr (List.forall₂_map_right_iff.mpr
      (each.imp fun _ _ segment => segment.named.symm))
  rw [String.toList_ofList, ← rewritten]
  refine ⟨⟨names, braced, same.trans ?_⟩, fun parameter member => ?_⟩
  · rw [List.map_append, ← named, ← List.map_map]
    exact (renamed.map String.ofList).append_right _
  · rcases List.mem_append.mp member with member | member
    · obtain ⟨name, -, segment⟩ := exists_of_forall₂ each member
      exact ⟨_, segment⟩
    · obtain ⟨name, rfl⟩ := eq_resourceParameter member
      exact ⟨name, rfl, rfl, rfl, rfl⟩

/-! ## Operations -/

/-- The parameters of an operation are those of its path and those of the query. -/
theorem parameters_of_assemble {heading : Heading} {rule : Rule} {output : Option Message}
    {operation : Element} {path : String}
    (runs : (config.assemble registry heading rule input output).Runs work (operation, path)
      after) :
    ∃ expanded between query, (config.expandPath registry rule.path input).Runs work expanded
        between ∧ path = expanded.path ∧ (∀ parameter ∈ query, parameter.place = .query) ∧
      operation.many "parameters" = (expanded.parameters ++ query).map Parameter.toElement := by
  unfold assemble at runs
  simp only [runs_bind, runs_pure, Prod.mk.injEq] at runs
  obtain ⟨expanded, between, in_path, query, _, in_query, answers, _, _, found, _, _,
    body, _, _, ⟨rfl, rfl⟩, -⟩ := runs
  refine ⟨expanded, between, query, in_path, rfl,
    fun parameter member => ((queryOf_runs in_query).2 parameter member).place, ?_⟩
  unfold Element.many
  simp [Element.get?_setOne?, Element.get?_set]

/-- The path of an operation holds exactly the names of the parameters that stand in the path, each
as often as there is such a parameter, and all of these are required and have schemas. -/
theorem path_holds_parameters {heading : Heading} {rule : Rule} {output : Option Message}
    {operation : Element} {path : String} (template : IsTemplate pieces)
    (written_path : rule.path = String.ofList (written pieces))
    (plain : ∀ message ∈ input, message.HasPlainNames)
    (runs : (config.assemble registry heading rule input output).Runs work (operation, path)
      after) :
    (∃ names, bracedNames? path = some names ∧
      (operation.pathParameters.map (·.text? "name")).Perm (names.map some)) ∧
    ∀ parameter ∈ operation.pathParameters,
      parameter.flag "required" = true ∧ (parameter.one? "schema").isSome = true := by
  obtain ⟨expanded, between, query, in_path, rfl, in_query, parameters⟩ :=
    parameters_of_assemble runs
  rw [written_path] at in_path
  obtain ⟨⟨names, braced, same⟩, segments⟩ := expandPath_written template plain in_path
  have chosen : operation.pathParameters = expanded.parameters.map Parameter.toElement := by
    unfold Element.pathParameters
    rw [parameters, List.filter_map, List.filter_append, List.filter_eq_self.mpr,
      List.filter_eq_nil_iff.mpr, List.append_nil]
    · intro parameter member
      simp [in_query parameter member, ParameterPlace.word]
    · intro parameter member
      obtain ⟨name, segment⟩ := segments parameter member
      simp [segment.place, ParameterPlace.word]
  rw [chosen]
  refine ⟨⟨names, braced, ?_⟩, fun element member => ?_⟩
  · have told : (fun element => Element.text? element "name") ∘ Parameter.toElement =
        some ∘ Parameter.name := funext Parameter.text?_name_toElement
    rw [List.map_map, told, ← List.map_map]
    exact same.symm.map some
  · obtain ⟨parameter, inside, rfl⟩ := List.mem_map.mp member
    obtain ⟨name, segment⟩ := segments parameter inside
    rw [Parameter.flag_required_toElement, Parameter.one?_schema_toElement]
    exact ⟨segment.required, segment.shaped⟩

/-- A path of books: the title twice, and a shelf with a book on it. -/
def bookPath : List Piece := [
  .text "/v1/".toList, .name "title".toList, .text "/".toList, .name "title".toList,
  .text "/".toList, .pattern ⟨"name".toList, "shelves/*/books/*".toList⟩, .text ":read".toList]

example : written bookPath =
    "/v1/\x7btitle\x7d/\x7btitle\x7d/\x7bname=shelves/*/books/*\x7d:read".toList := by decide

/-- The operation of reading a book of the library. -/
def readBook : Build (Element × String) :=
  libraryConfig.assemble libraryRegistry ⟨"Library", "ReadBook", "", ""⟩
    ⟨String.ofList (written bookPath), .get, ""⟩ (libraryRegistry.message? ".library.Book") none

/-- The operation of reading a book has parameters for the title, for it again, for the shelf and
for the book. -/
theorem book_path_holds_parameters : ∃ operation path after,
    readBook.Runs ⟨.empty .document, [], [], []⟩ (operation, path) after ∧
    (∃ names, bracedNames? path = some names ∧
      (operation.pathParameters.map (·.text? "name")).Perm (names.map some)) ∧
    ∀ parameter ∈ operation.pathParameters,
      parameter.flag "required" = true ∧ (parameter.one? "schema").isSome = true := by
  have template : IsTemplate bookPath := by decide
  have plain : ∀ message ∈ libraryRegistry.message? ".library.Book", message.HasPlainNames := by
    decide +kernel
  have comes : (readBook.run' ⟨.empty .document, [], [], []⟩).isSome = true := by decide +kernel
  obtain ⟨⟨operation, path⟩, after, runs⟩ := exists_runs_of_isSome comes
  exact ⟨operation, path, after, runs, path_holds_parameters template rfl plain runs⟩

end Config

end ServiceDoc
