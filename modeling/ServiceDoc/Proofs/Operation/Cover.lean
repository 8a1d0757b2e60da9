import ServiceDoc.Proofs.Operation.Path
import ServiceDoc.Proofs.Operation.Fixed

/-!
# What the query holds

A binding takes some fields of its input from the path and one from the body. The query holds the
other fields, each with all of its parameters, as long as no selector names one field by its name
and another by its name in JSON. A selector that leads into a field covers nothing: what it takes
from the path stands in the query as well.
-/

namespace ServiceDoc

open Build Template

/-- The parameters of an operation that stand in the query. -/
def Element.queryParameters (operation : Element) : List Element :=
  (operation.many "parameters").filter fun parameter => parameter.text? "in" = some "query"

namespace Message

/-- A selector names a field: by the name of the field, or by its name in JSON if no field has the
selector for its name. -/
def Selects (message : Message) (selector : String) (field : MessageField) : Prop :=
  field.name = selector ∨
    field.jsonName = selector ∧ ∀ other ∈ message.fields, other.name ≠ selector

instance (message : Message) (selector : String) (field : MessageField) :
    Decidable (message.Selects selector field) :=
  inferInstanceAs (Decidable (_ ∨ _ ∧ ∀ other ∈ message.fields, _))

/-- The fields that no selector names. -/
def unselected (message : Message) (selectors : List String) : List MessageField :=
  message.fields.filter fun field => ∀ selector ∈ selectors, ¬ message.Selects selector field

/-- A selector that is the name in JSON of a field names that field, and not another one. -/
def TellsApart (message : Message) (selectors : List String) : Prop :=
  ∀ selector ∈ selectors, ∀ field ∈ message.fields,
    field.jsonName = selector → message.Selects selector field

instance (message : Message) (selectors : List String) : Decidable (message.TellsApart selectors) :=
  inferInstanceAs (Decidable (∀ selector ∈ selectors, ∀ field ∈ message.fields, _ → _))

end Message

/-- The variables of a path template. -/
def Template.variableNames (pieces : List Piece) : List String :=
  (namesOf pieces ++ (patternsOf pieces).map Pattern.name).map String.ofList

/-- What a rule selects from its input: the variables of its path, and its body if it has one. -/
def Rule.selectors (pieces : List Piece) (body : String) : List String :=
  if body = "" then variableNames pieces else variableNames pieces ++ [body]

namespace Config

variable {config : Config} {registry : Registry} {input : Option Message} {message : Message}
  {pieces : List Piece} {work after : Workspace}

/-- The fields left to the query are those that no selector names. -/
theorem queryFields_eq {selectors : List String} (apart : message.TellsApart selectors) :
    queryFields selectors message = message.unselected selectors := by
  refine List.filter_congr fun field member => ?_
  rw [Bool.eq_iff_iff, Bool.and_eq_true_iff, Bool.not_eq_true', Bool.not_eq_true']
  simp only [List.contains_eq_mem, decide_eq_false_iff_not, decide_eq_true_eq]
  constructor
  · rintro ⟨named, json⟩ selector inside (rfl | ⟨rfl, -⟩)
    · exact named inside
    · exact json inside
  · intro free
    refine ⟨fun inside => free _ inside (.inl rfl), fun inside => free _ inside ?_⟩
    exact apart _ inside field member rfl

/-- Expanding a path template takes its variables from the path. -/
theorem covered_of_expandPath {expanded : ExpandedPath} (template : IsTemplate pieces)
    (plain : ∀ message ∈ input, message.HasPlainNames)
    (runs : (config.expandPath registry (String.ofList (written pieces)) input).Runs work expanded
      after) : expanded.covered = variableNames pieces := by
  have found : simpleNames (String.ofList (written pieces)).length
      (String.ofList (written pieces)).toList = namesOf pieces := by
    rw [String.toList_ofList]
    exact simpleNames_written template.formed template.named (String.length_ofList ▸ le_rfl)
  unfold expandPath at runs
  simp only [found, runs_bind, runs_pure] at runs
  obtain ⟨_, _, _, rfl, rfl⟩ := runs
  -- The pattern is looked for once the names are formatted, which leaves it as it is.
  have start : (namesOf pieces).Perm ([] ++ namesOf pieces) := .refl _
  obtain ⟨replaced, formed, rewritten, -, patterns⟩ :=
    config.formatPlaceholders_written plain template.formed start
  have single := template.single
  rw [String.toList_ofList, ← rewritten]
  unfold expandPattern variableNames
  rw [pattern?_written formed, patterns]
  cases listed : patternsOf pieces with
  | nil => simp
  | cons p rest =>
      rw [listed] at single
      obtain rfl : rest = [] := List.eq_nil_of_length_eq_zero (by simpa using single)
      simp

/-- The parameters of an operation are those of its path, and those that the query holds beside what
the path and the body cover. -/
theorem query_of_assemble {heading : Heading} {rule : Rule} {output : Option Message}
    {operation : Element} {path : String}
    (runs : (config.assemble registry heading rule input output).Runs work (operation, path)
      after) :
    ∃ expanded between query later,
      (config.expandPath registry rule.path input).Runs work expanded between ∧
      (config.queryOf registry rule.body (if rule.body = "" then expanded.covered
        else expanded.covered ++ [rule.body]) input).Runs between query later ∧
      operation.many "parameters" = (expanded.parameters ++ query).map Parameter.toElement := by
  unfold assemble at runs
  simp only [runs_bind, runs_pure, Prod.mk.injEq] at runs
  obtain ⟨expanded, between, in_path, query, later, in_query, _, _, _, _, _, _, _, _, _,
    ⟨rfl, -⟩, -⟩ := runs
  refine ⟨expanded, between, query, later, in_path, in_query, ?_⟩
  unfold Element.many
  simp [Element.get?_setOne?, Element.get?_set]

/-- The parameters that the query holds are those of the fields that nothing covers, each with all
of its own. -/
theorem queryOf_gives {body : String} {covered : List String} {query : List Parameter}
    (partly : body ≠ "*") (structured : message.fullName ≠ WellKnown.httpBody)
    (runs : (config.queryOf registry body covered (some message)).Runs work query after) :
    ∃ contributions, List.Forall₂
        (fun field parameters => (config.queryParameters registry [] field).Gives parameters)
        (queryFields covered message) contributions ∧ query = contributions.flatten := by
  unfold queryOf at runs
  simp only [if_neg partly, if_neg structured, runs_bind, runs_pure] at runs
  obtain ⟨contributions, _, rounds, rfl, -⟩ := runs
  obtain ⟨-, each⟩ := Runs.mapM_relates (fun _ _ => True)
    (fun _ field parameters => (config.queryParameters registry [] field).Gives parameters)
    (fun _ => trivial) (fun _ _ => trivial) (fun _ => id)
    (fun field _ _ _ _ round =>
      ⟨trivial, (config.queryParameters_fixed registry [] field).steady round⟩)
    rounds
  exact ⟨contributions, each, rfl⟩

/-- An operation has in the query the parameters of the fields that no selector of its rule names,
each with all of its own, in the order in which they are declared. -/
theorem query_holds_unselected {heading : Heading} {rule : Rule} {output : Option Message}
    {operation : Element} {path : String} (template : IsTemplate pieces)
    (written_path : rule.path = String.ofList (written pieces)) (plain : message.HasPlainNames)
    (partly : rule.body ≠ "*") (structured : message.fullName ≠ WellKnown.httpBody)
    (apart : message.TellsApart (Rule.selectors pieces rule.body))
    (runs : (config.assemble registry heading rule (some message) output).Runs work
      (operation, path) after) :
    ∃ contributions, List.Forall₂
        (fun field parameters => (config.queryParameters registry [] field).Gives parameters)
        (message.unselected (Rule.selectors pieces rule.body)) contributions ∧
      operation.queryParameters = contributions.flatten.map Parameter.toElement := by
  have plain_input : ∀ given ∈ some message, given.HasPlainNames :=
    fun given member => Option.mem_some.mp member ▸ plain
  obtain ⟨expanded, between, query, later, in_path, in_query, parameters⟩ :=
    query_of_assemble runs
  rw [written_path] at in_path
  have selectors : (if rule.body = "" then expanded.covered else expanded.covered ++ [rule.body]) =
      Rule.selectors pieces rule.body := by
    rw [covered_of_expandPath template plain_input in_path, Rule.selectors]
  rw [selectors] at in_query
  obtain ⟨-, segments⟩ := expandPath_written template plain_input in_path
  have chosen : operation.queryParameters = query.map Parameter.toElement := by
    unfold Element.queryParameters
    rw [parameters, List.filter_map, List.filter_append, List.filter_eq_nil_iff.mpr,
      List.nil_append, List.filter_eq_self.mpr]
    · intro parameter member
      simp [((queryOf_runs in_query).2 parameter member).place, ParameterPlace.word]
    · intro parameter member
      obtain ⟨name, segment⟩ := segments parameter member
      simp [segment.place, ParameterPlace.word]
  obtain ⟨contributions, each, rfl⟩ := queryOf_gives partly structured in_query
  exact ⟨contributions, queryFields_eq apart ▸ each, chosen⟩

/-- A path of books whose variable is the title of the book. -/
def titlePath : List Piece := [.text "/v1/books/".toList, .name "title".toList]

/-- The operation of reading a book by its title. -/
def readTitle : Build (Element × String) :=
  libraryConfig.assemble libraryRegistry ⟨"Library", "ReadTitle", "", ""⟩
    ⟨String.ofList (written titlePath), .get, ""⟩ (libraryRegistry.message? ".library.Book") none

/-- Reading a book by its title takes everything but the title from the query. -/
theorem title_query_holds_rest : ∃ book operation path after,
    libraryRegistry.message? ".library.Book" = some book ∧
    readTitle.Runs ⟨.empty .document, [], [], []⟩ (operation, path) after ∧
    ∃ contributions, List.Forall₂ (fun field parameters =>
        (libraryConfig.queryParameters libraryRegistry [] field).Gives parameters)
        (book.unselected (Rule.selectors titlePath "")) contributions ∧
      operation.queryParameters = contributions.flatten.map Parameter.toElement := by
  have template : IsTemplate titlePath := by decide
  have suited : ∀ book ∈ libraryRegistry.message? ".library.Book", book.HasPlainNames ∧
      book.fullName ≠ WellKnown.httpBody ∧ book.TellsApart (Rule.selectors titlePath "") := by
    decide +kernel
  have known : (libraryRegistry.message? ".library.Book").isSome := by decide
  have comes : (readTitle.run' ⟨.empty .document, [], [], []⟩).isSome = true := by decide +kernel
  obtain ⟨book, found⟩ := Option.isSome_iff_exists.mp known
  obtain ⟨⟨operation, path⟩, after, runs⟩ := exists_runs_of_isSome comes
  obtain ⟨plain, structured, apart⟩ := suited book found
  have made := runs
  unfold readTitle at made
  rw [found] at made
  exact ⟨book, operation, path, after, found, runs,
    query_holds_unselected template rfl plain (by decide) structured apart made⟩

/-- The names of the parameters in the path and in the query of an operation of reading by a path. -/
def parameterNames (config : Config) (registry : Registry) (path typeName : String) :
    Option (List (Option String) × List (Option String)) :=
  let operation := config.assemble registry ⟨"", "", "", ""⟩ ⟨path, .get, ""⟩
    (registry.message? typeName) none
  (operation.run' ⟨.empty .document, [], [], []⟩).map fun made =>
    (made.1.pathParameters.map (·.text? "name"), made.1.queryParameters.map (·.text? "name"))

/-- Messages whose fields have each other's names in JSON. -/
def swapFile : FileDefinition where
  name := "swap.proto"
  messages := [
    { name := "Swap"
      fields := [
        { name := "b", type := .string, jsonName := "c" },
        { name := "a", type := .string, jsonName := "b" }] }]

/-- A variable that leads into a field, with a pattern or without, is taken from the query as well;
and a field whose name in JSON is the name of another field is lost when that one is taken from the
path. -/
theorem variables_double_and_lose :
    (∃ query, libraryConfig.parameterNames libraryRegistry "/v1/\x7bsequel.title\x7d"
        ".library.Book" = some ([some "sequel.title"], query) ∧ some "sequel.title" ∈ query) ∧
    (∃ query, libraryConfig.parameterNames libraryRegistry "/v1/\x7bsequel.title=shelves/*\x7d"
        ".library.Book" = some ([some "shelf"], query) ∧ some "sequel.title" ∈ query) ∧
    libraryConfig.parameterNames (.ofFiles [] [swapFile]) "/v1/\x7bb\x7d" ".Swap" =
      some ([some "b"], []) := by
  let query := [some "title", some "sequel.title", some "sequel.sequel.title",
    some "sequel.sequel.shelf.theme", some "sequel.shelf.theme", some "shelf.theme"]
  refine ⟨⟨query, ?_, ?_⟩, ⟨query, ?_, ?_⟩, ?_⟩ <;> decide +kernel

end Config

end ServiceDoc
