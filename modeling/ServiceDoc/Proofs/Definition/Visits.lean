import ServiceDoc.Proofs.Definition.Path
import ServiceDoc.Definition.Visit
import ServiceDoc.Proofs.Value.Entries

/-!
# What is visited

Visiting a file meets every definition that can hold others once, after what it holds, with the
context of the path that leads to it. The contexts of fields, of values and of methods, which are
made from those, are those of their paths as well.
-/

namespace ServiceDoc

/-! ## The order of paths -/

/-- A place is visited before another one: it stands in it, or comes first where they part. -/
def ComesFirst : List Int → List Int → Prop
  | _ :: _, [] => True
  | [], _ => False
  | step :: path, other :: rest => step < other ∨ step = other ∧ ComesFirst path rest

theorem comesFirst_append {path : List Int} {first second : List Int} :
    ComesFirst (path ++ first) (path ++ second) ↔ ComesFirst first second := by
  induction path with
  | nil => rfl
  | cons step path ih => simp [ComesFirst, ih]

theorem comesFirst_irrefl (path : List Int) : ¬ComesFirst path path := by
  induction path with
  | nil => exact id
  | cons step path ih => simp [ComesFirst, ih]

/-! ## Visits -/

/-- The definition that is visited. -/
def Visit.definition : Visit → Definition
  | enum _ definition => .enum definition
  | message _ _ definition => .message definition
  | service _ definition => .service definition
  | file _ definition => .file definition

/-- What is defined inside what is visited and not visited itself, with the contexts that are made
for it. -/
def Visit.members : Visit → List (Context × Definition)
  | enum context definition => (context.values definition).map fun (inner, value) =>
      (inner, .enumValue value)
  | message context _ definition => (context.fields definition).map fun (inner, field) =>
      (inner, .field field)
  | service context definition => (context.methods definition).map fun (inner, method) =>
      (inner, .method method)
  | file _ _ => []

theorem Visit.isOuter_definition (visit : Visit) : visit.definition.isOuter = true := by
  cases visit <;> rfl

/-- Everything that a file defines, with its contexts. -/
def FileDefinition.places (file : FileDefinition) : List (Context × Definition) :=
  file.visits.flatMap fun visit => (visit.context, visit.definition) :: visit.members

theorem visitMessages_eq (context : Context) (parent : Option TypeName) (position : Nat)
    (definitions : List MessageDefinition) :
    visitMessages context parent position definitions =
      (definitions.zipIdx position).flatMap fun (inner, index) =>
        visitMessage (context.messageAt index inner.name) parent inner := by
  induction definitions generalizing position with
  | nil => rw [visitMessages]; rfl
  | cons first rest ih =>
      rw [visitMessages, ih, List.zipIdx_cons, List.flatMap_cons]

/-- The visits of the messages and enumerations in a definition. -/
def visitTypes (context : Context) (parent : Option TypeName) (messages : List MessageDefinition)
    (enums : List EnumDefinition) : List Visit :=
  visitMessages context parent 0 messages ++ visitEnums context enums

theorem visitMessage_eq (context : Context) (parent : Option TypeName)
    (message : MessageDefinition) : visitMessage context parent message =
      visitTypes context (some ⟨message.name, context.name⟩) message.messages message.enums ++
        [.message context parent message] := by
  cases message
  rw [visitMessage]
  rfl

theorem visits_eq (file : FileDefinition) : file.visits =
    visitTypes (.ofFile file.package) none file.messages file.enums ++
      visitServices (.ofFile file.package) file.services ++ [.file (.ofFile file.package) file] :=
  rfl

theorem Context.map_placed {α β : Type} {make : Nat → String → Context} {name : α → String}
    {items : List α} (change : Context × α → β) : (placed make name items).map change =
      items.zipIdx.map fun (item, position) => change (make position (name item), item) :=
  List.map_map ..

theorem mem_map_zipIdx {α β : Type} {items : List α} {make : α × Nat → β} {made : β} :
    made ∈ items.zipIdx.map make ↔
      ∃ index item, items[index]? = some item ∧ made = make (item, index) := by
  rw [List.mem_map]
  constructor
  · rintro ⟨⟨item, index⟩, member, rfl⟩
    exact ⟨index, item, List.mem_zipIdx_iff_getElem?.mp member, rfl⟩
  · rintro ⟨index, item, stands, rfl⟩
    exact ⟨(item, index), List.mem_zipIdx_iff_getElem?.mpr stands, rfl⟩

section

variable {context : Context} {parent : Option TypeName} {messages : List MessageDefinition}
  {enums : List EnumDefinition} {visit : Visit}

theorem mem_visitMessages : visit ∈ visitMessages context parent 0 messages ↔
    ∃ index inner, messages[index]? = some inner ∧
      visit ∈ visitMessage (context.messageAt index inner.name) parent inner := by
  rw [visitMessages_eq, List.mem_flatMap]
  constructor
  · rintro ⟨⟨inner, index⟩, member, visited⟩
    exact ⟨index, inner, List.mem_zipIdx_iff_getElem?.mp member, visited⟩
  · rintro ⟨index, inner, stands, visited⟩
    exact ⟨(inner, index), List.mem_zipIdx_iff_getElem?.mpr stands, visited⟩

theorem mem_visitEnums : visit ∈ visitEnums context enums ↔
    ∃ index inner, enums[index]? = some inner ∧
      visit = .enum (context.enumAt index inner.name) inner :=
  mem_map_zipIdx

theorem mem_visitServices {services : List ServiceDefinition} :
    visit ∈ visitServices context services ↔ ∃ index inner, services[index]? = some inner ∧
      visit = .service (context.serviceAt index inner.name) inner :=
  mem_map_zipIdx

theorem mem_visitMessage_self (message : MessageDefinition) :
    .message context parent message ∈ visitMessage context parent message := by
  rw [visitMessage_eq]
  exact List.mem_append_right _ (List.mem_singleton_self _)

end

/-- Messages by what is defined in them. -/
theorem MessageDefinition.induction {motive : MessageDefinition → Prop}
    (step : ∀ message, (∀ inner ∈ message.messages, motive inner) → motive message)
    (message : MessageDefinition) : motive message :=
  step message fun inner _ => MessageDefinition.induction step inner
termination_by sizeOf message
decreasing_by
  have smaller := List.sizeOf_lt_of_mem ‹inner ∈ message.messages›
  cases message
  simp only [MessageDefinition.mk.sizeOf_spec] at smaller ⊢
  omega

/-! ## Contexts -/

/-- The message that holds what stands in some definitions, if the first of them is a message. -/
def Definition.outerType? : List Definition → Option TypeName
  | .message inner :: outer => some ⟨inner.name, fullName (.message inner :: outer)⟩
  | _ => none

/-- A context is that of the first of some definitions of a file that stand in each other. -/
structure Context.IsOf (context : Context) (file : FileDefinition) (route : List Definition) :
    Prop where
  leads : (Definition.file file).Leads context.path route
  name : context.name = Definition.fullName route
  kind : ∀ definition ∈ route.head?, context.kind = definition.kind

/-- The context of a visit is that of what is visited, and for a message the visit knows the
message that holds it. -/
structure Visit.IsOf (visit : Visit) (file : FileDefinition) (outer : List Definition) : Prop where
  context : visit.context.IsOf file (visit.definition :: outer)
  parent : ∀ context parent message, visit = .message context parent message →
    parent = Definition.outerType? outer

namespace Context.IsOf

variable {context : Context} {file : FileDefinition} {definition inner : Definition}
  {outer : List Definition} {number : Int} {index : Nat}

theorem ofFile (file : FileDefinition) : (Context.ofFile file.package).IsOf file [.file file] where
  leads := .start
  name := by
    rw [Definition.fullName_cons]
    rfl
  kind := by
    rintro _ ⟨⟩
    rfl

theorem eq (of : context.IsOf file (definition :: outer)) :
    context = ⟨definition.kind, Definition.fullName (definition :: outer), context.path⟩ := by
  rw [← of.name, ← of.kind definition rfl]

/-- The context that is made for an item of a list of a definition. -/
theorem step (of : context.IsOf file (definition :: outer))
    (stands : (definition.listAt number)[index]? = some inner) :
    (context.inner inner.kind number index inner.name).IsOf file (inner :: definition :: outer)
    where
  leads := of.leads.step (Definition.item?_eq_some_iff.mpr ⟨index, rfl, stands⟩)
  name := by
    rw [Definition.fullName_cons, ← of.name]
    rfl
  kind := by
    rintro _ ⟨⟩
    rfl

theorem messageAt {message : MessageDefinition} (of : context.IsOf file (definition :: outer))
    (stands : definition.messages[index]? = some message) :
    (context.messageAt index message.name).IsOf file (.message message :: definition :: outer) := by
  have listed : (definition.listAt (if definition.kind = .file then 4 else 3))[index]? =
      some (.message message) := by
    cases definition with
    | file => exact (List.getElem?_map ..).trans (congrArg _ stands)
    | message => exact (List.getElem?_map ..).trans (congrArg _ stands)
    | _ => exact nomatch stands
  unfold Context.messageAt
  rw [of.kind definition rfl]
  exact of.step listed

theorem enumAt {enum : EnumDefinition} (of : context.IsOf file (definition :: outer))
    (stands : definition.enums[index]? = some enum) :
    (context.enumAt index enum.name).IsOf file (.enum enum :: definition :: outer) := by
  have listed : (definition.listAt (if definition.kind = .file then 5 else 4))[index]? =
      some (.enum enum) := by
    cases definition with
    | file => exact (List.getElem?_map ..).trans (congrArg _ stands)
    | message => exact (List.getElem?_map ..).trans (congrArg _ stands)
    | _ => exact nomatch stands
  unfold Context.enumAt
  rw [of.kind definition rfl]
  exact of.step listed

end Context.IsOf

section

variable {file : FileDefinition} {context : Context} {definition : Definition}
  {outer : List Definition} {visit : Visit}

/-- What is visited in a definition has the contexts of its places, if that holds of each message
there. -/
theorem isOf_of_mem_visitTypes (of : context.IsOf file (definition :: outer))
    (each : ∀ index message, definition.messages[index]? = some message →
      ∀ visit ∈ visitMessage (context.messageAt index message.name)
        (Definition.outerType? (definition :: outer)) message, ∃ others, visit.IsOf file others)
    (visited : visit ∈ visitTypes context (Definition.outerType? (definition :: outer))
      definition.messages definition.enums) : ∃ others, visit.IsOf file others := by
  rcases List.mem_append.mp visited with message | enum
  · obtain ⟨index, inner, stands, visited⟩ := mem_visitMessages.mp message
    exact each index inner stands visit visited
  · obtain ⟨index, inner, stands, rfl⟩ := mem_visitEnums.mp enum
    exact ⟨_, of.enumAt stands, fun _ _ _ same => nomatch same⟩

theorem isOf_of_mem_visitMessage (message : MessageDefinition) :
    ∀ {context outer}, context.IsOf file (.message message :: outer) →
      ∀ visit ∈ visitMessage context (Definition.outerType? outer) message,
        ∃ others, visit.IsOf file others := by
  induction message using MessageDefinition.induction with
  | step message ih =>
      intro context outer of visit visited
      rw [visitMessage_eq, List.mem_append, List.mem_singleton] at visited
      rcases visited with inner | rfl
      · have holder : (some ⟨message.name, context.name⟩ : Option TypeName) =
            Definition.outerType? (.message message :: outer) := by
          rw [of.name]
          rfl
        rw [holder] at inner
        refine isOf_of_mem_visitTypes of ?_ inner
        intro index inner stands
        exact ih inner (List.mem_of_getElem? stands) (of.messageAt stands)
      · refine ⟨outer, of, ?_⟩
        rintro _ _ _ ⟨⟩
        rfl

/-- Every visit of a file has the context of the place of what is visited. -/
theorem isOf_of_mem_visits (visited : visit ∈ file.visits) : ∃ outer, visit.IsOf file outer := by
  rw [visits_eq, List.mem_append, List.mem_append, List.mem_singleton] at visited
  have root := Context.IsOf.ofFile file
  rcases visited with (type | service) | rfl
  · refine isOf_of_mem_visitTypes root ?_ type
    intro index message stands
    exact isOf_of_mem_visitMessage message (root.messageAt stands)
  · obtain ⟨index, inner, stands, rfl⟩ := mem_visitServices.mp service
    have listed : ((Definition.file file).listAt 6)[index]? = some (.service inner) :=
      (List.getElem?_map ..).trans (congrArg _ stands)
    exact ⟨_, root.step listed, fun _ _ _ same => nomatch same⟩
  · exact ⟨[], root, fun _ _ _ same => nomatch same⟩

end

/-! ## Order -/

section

variable {context : Context} {parent : Option TypeName} {messages : List MessageDefinition}
  {enums : List EnumDefinition} {visit : Visit}

/-- What is visited with a message stands in it. -/
theorem exists_path_of_mem_visitMessage (message : MessageDefinition) :
    ∀ {context parent}, ∀ visit ∈ visitMessage context parent message,
      ∃ path, visit.context.path = context.path ++ path := by
  induction message using MessageDefinition.induction with
  | step message ih =>
      intro context parent visit visited
      rw [visitMessage_eq, visitTypes, List.mem_append, List.mem_append, List.mem_singleton]
        at visited
      rcases visited with (inner | enum) | rfl
      · obtain ⟨index, inner, stands, visited⟩ := mem_visitMessages.mp inner
        obtain ⟨path, stands_at⟩ := ih inner (List.mem_of_getElem? stands) visit visited
        exact ⟨_, stands_at.trans (List.append_assoc ..)⟩
      · obtain ⟨index, inner, stands, rfl⟩ := mem_visitEnums.mp enum
        exact ⟨_, rfl⟩
      · exact ⟨[], (List.append_nil _).symm⟩

/-- What is visited in a definition stands in its lists of messages and of enumerations. -/
theorem exists_step_of_mem_visitTypes (visited : visit ∈ visitTypes context parent messages enums) :
    ∃ number path, number < 6 ∧ visit.context.path = context.path ++ number :: path := by
  rcases List.mem_append.mp visited with message | enum
  · obtain ⟨index, inner, stands, visited⟩ := mem_visitMessages.mp message
    obtain ⟨path, stands_at⟩ := exists_path_of_mem_visitMessage inner visit visited
    refine ⟨_, _, ?_, stands_at.trans (List.append_assoc ..)⟩
    split <;> decide
  · obtain ⟨index, inner, stands, rfl⟩ := mem_visitEnums.mp enum
    refine ⟨_, _, ?_, rfl⟩
    split <;> decide

/-- Visits come in the order of their paths. -/
def InOrder (visits : List Visit) : Prop :=
  visits.Pairwise fun visit other => ComesFirst visit.context.path other.context.path

theorem inOrder_visitTypes
    (each : ∀ message ∈ messages, ∀ context parent, InOrder (visitMessage context parent message)) :
    InOrder (visitTypes context parent messages enums) := by
  unfold InOrder visitTypes
  rw [List.pairwise_append]
  refine ⟨?_, ?_, ?_⟩
  · rw [visitMessages_eq, List.pairwise_flatMap]
    refine ⟨fun entry member => each _ (List.fst_mem_of_mem_zipIdx member) _ _, ?_⟩
    refine (pairwise_zipIdx messages).imp ?_
    intro first second before visit visited other visited_too
    obtain ⟨path, stands_at⟩ := exists_path_of_mem_visitMessage first.1 visit visited
    obtain ⟨rest, stands_at_too⟩ := exists_path_of_mem_visitMessage second.1 other visited_too
    rw [stands_at, stands_at_too]
    unfold Context.messageAt Context.inner
    rw [List.append_assoc, List.append_assoc, comesFirst_append]
    exact .inr ⟨rfl, .inl (Int.ofNat_lt.mpr before)⟩
  · unfold visitEnums
    rw [List.pairwise_map]
    refine (pairwise_zipIdx enums).imp ?_
    intro first second before
    exact comesFirst_append.mpr (.inr ⟨rfl, .inl (Int.ofNat_lt.mpr before)⟩)
  · intro visit message other enum
    obtain ⟨index, inner, -, visited⟩ := mem_visitMessages.mp message
    obtain ⟨place, definition, -, rfl⟩ := mem_visitEnums.mp enum
    obtain ⟨path, stands_at⟩ := exists_path_of_mem_visitMessage inner visit visited
    rw [stands_at]
    unfold Visit.context Context.messageAt Context.enumAt Context.inner
    rw [List.append_assoc, comesFirst_append]
    refine .inl ?_
    split <;> decide

theorem inOrder_visitMessage (message : MessageDefinition) :
    ∀ context parent, InOrder (visitMessage context parent message) := by
  induction message using MessageDefinition.induction with
  | step message ih =>
      intro context parent
      rw [visitMessage_eq]
      refine List.pairwise_append.mpr ⟨inOrder_visitTypes ih, List.pairwise_singleton _ _, ?_⟩
      intro visit inner own same
      obtain rfl := List.mem_singleton.mp same
      obtain ⟨number, path, -, stands_at⟩ := exists_step_of_mem_visitTypes inner
      have here : context.path = context.path ++ [] := (List.append_nil _).symm
      rw [stands_at]
      unfold Visit.context
      rw [here, List.append_assoc, comesFirst_append]
      trivial

/-- A file is visited in the order of its paths. -/
theorem inOrder_visits (file : FileDefinition) : InOrder file.visits := by
  unfold InOrder
  rw [visits_eq, List.pairwise_append, List.pairwise_append]
  refine ⟨⟨inOrder_visitTypes fun message _ => inOrder_visitMessage message, ?_, ?_⟩,
    List.pairwise_singleton _ _, ?_⟩
  · unfold visitServices
    rw [List.pairwise_map]
    refine (pairwise_zipIdx file.services).imp ?_
    intro first second before
    exact .inr ⟨rfl, .inl (Int.ofNat_lt.mpr before)⟩
  · intro visit type other service
    obtain ⟨number, path, small, stands_at⟩ := exists_step_of_mem_visitTypes type
    obtain ⟨index, inner, -, rfl⟩ := mem_visitServices.mp service
    rw [stands_at]
    exact .inl small
  · intro visit inner own same
    obtain rfl := List.mem_singleton.mp same
    rcases List.mem_append.mp inner with type | service
    · obtain ⟨number, path, -, stands_at⟩ := exists_step_of_mem_visitTypes type
      rw [stands_at]
      trivial
    · obtain ⟨index, inner, -, rfl⟩ := mem_visitServices.mp service
      trivial

end

/-! ## Completeness -/

namespace Definition

variable {root definition inner : Definition} {outer : List Definition} {path : List Int}
  {number : Int} {index : Nat}

theorem getElem?_map_iff {α : Type} {items : List α} {change : α → Definition} :
    (items.map change)[index]? = some inner ↔
      ∃ item, items[index]? = some item ∧ change item = inner := by
  rw [List.getElem?_map, Option.map_eq_some_iff]

/-- The number of a list is that of the kind of its items in the kind that holds them. -/
theorem listNumber?_of_listAt (stands : (definition.listAt number)[index]? = some inner) :
    inner.kind.listNumber? definition.kind = some number := by
  cases definition with
  | file | message =>
      rw [listAt] at stands
      split_ifs at stands with first second third
      · obtain ⟨_, -, rfl⟩ := getElem?_map_iff.mp stands
        rw [first]
        rfl
      · obtain ⟨_, -, rfl⟩ := getElem?_map_iff.mp stands
        rw [second]
        rfl
      · obtain ⟨_, -, rfl⟩ := getElem?_map_iff.mp stands
        rw [third]
        rfl
      · contradiction
  | enum | service =>
      rw [listAt] at stands
      split_ifs at stands with only
      · obtain ⟨_, -, rfl⟩ := getElem?_map_iff.mp stands
        rw [only]
        rfl
      · contradiction
  | _ => exact nomatch stands

/-- Items of lists that can not hold others are items of the list with the number 2. -/
theorem eq_two_of_listAt (stands : (definition.listAt number)[index]? = some inner)
    (member : inner.isOuter = false) : number = 2 := by
  have numbered := listNumber?_of_listAt stands
  unfold DefinitionKind.listNumber? at numbered
  cases inner with
  | field | enumValue | method =>
      cases definition <;> cases numbered
      rfl
  | _ => contradiction

/-- The items of lists that can hold others are messages, enumerations and services. -/
theorem cases_of_listAt (stands : (definition.listAt number)[index]? = some inner)
    (holds : inner.isOuter = true) :
    (∃ message, definition.messages[index]? = some message ∧ inner = .message message ∧
      number = if definition.kind = .file then 4 else 3) ∨
    (∃ enum, definition.enums[index]? = some enum ∧ inner = .enum enum ∧
      number = if definition.kind = .file then 5 else 4) ∨
    ∃ file service, definition = .file file ∧ file.services[index]? = some service ∧
      inner = .service service ∧ number = 6 := by
  cases definition with
  | file file =>
      rw [listAt] at stands
      split_ifs at stands with messages enums services
      · obtain ⟨message, found, rfl⟩ := getElem?_map_iff.mp stands
        exact .inl ⟨message, found, rfl, messages⟩
      · obtain ⟨enum, found, rfl⟩ := getElem?_map_iff.mp stands
        exact .inr (.inl ⟨enum, found, rfl, enums⟩)
      · obtain ⟨service, found, rfl⟩ := getElem?_map_iff.mp stands
        exact .inr (.inr ⟨file, service, rfl, found, rfl, services⟩)
      · contradiction
  | message message =>
      rw [listAt] at stands
      split_ifs at stands with fields messages enums
      · obtain ⟨field, -, rfl⟩ := getElem?_map_iff.mp stands
        contradiction
      · obtain ⟨inner, found, rfl⟩ := getElem?_map_iff.mp stands
        exact .inl ⟨inner, found, rfl, messages⟩
      · obtain ⟨enum, found, rfl⟩ := getElem?_map_iff.mp stands
        exact .inr (.inl ⟨enum, found, rfl, enums⟩)
      · contradiction
  | enum enum =>
      rw [listAt] at stands
      split_ifs at stands
      · obtain ⟨value, -, rfl⟩ := getElem?_map_iff.mp stands
        contradiction
      · contradiction
  | service service =>
      rw [listAt] at stands
      split_ifs at stands
      · obtain ⟨method, -, rfl⟩ := getElem?_map_iff.mp stands
        contradiction
      · contradiction
  | _ => exact nomatch stands

/-- No list holds a file. -/
theorem Leads.of_file {file : FileDefinition} (leads : root.Leads path (.file file :: outer)) :
    path = [] ∧ root = .file file ∧ outer = [] := by
  cases leads with
  | start => exact ⟨rfl, rfl, rfl⟩
  | step leads found =>
      obtain ⟨index, -, stands⟩ := item?_eq_some_iff.mp found
      obtain ⟨_, -, same, -⟩ | ⟨_, -, same, -⟩ | ⟨_, _, -, -, same, -⟩ := cases_of_listAt stands rfl
      all_goals contradiction

end Definition

section

variable {file : FileDefinition} {definition : Definition} {outer : List Definition}
  {path : List Int}

/-- A path that leads to what can hold others leads to what is visited, together with the messages
and enumerations in it. -/
theorem exists_visit (leads : (Definition.file file).Leads path (definition :: outer))
    (holds : definition.isOuter = true) : ∃ visit ∈ file.visits, visit.context.path = path ∧
      visit.definition = definition ∧ ∃ parent,
        visitTypes visit.context parent definition.messages definition.enums ⊆ file.visits := by
  generalize route_eq : definition :: outer = route at leads
  induction leads generalizing definition outer with
  | start =>
      obtain ⟨rfl, rfl⟩ := List.cons.inj route_eq
      refine ⟨.file (.ofFile file.package) file, ?_, rfl, rfl, none, ?_⟩
      · exact List.mem_append_right _ (List.mem_singleton_self _)
      · rw [visits_eq]
        intro visit visited
        exact List.mem_append_left _ (List.mem_append_left _ visited)
  | @step path holder inner others number position leads found ih =>
      obtain ⟨rfl, rfl⟩ := List.cons.inj route_eq
      obtain ⟨visit, visited, rfl, rfl, parent, inside⟩ := ih
        (Definition.isOuter_of_item? found) rfl
      obtain ⟨others, of⟩ := isOf_of_mem_visits visited
      have kind := of.context.kind _ rfl
      obtain ⟨index, rfl, stands⟩ := Definition.item?_eq_some_iff.mp found
      obtain ⟨message, listed, rfl, rfl⟩ | ⟨enum, listed, rfl, rfl⟩ |
        ⟨whole, service, whole_eq, listed, rfl, rfl⟩ := Definition.cases_of_listAt stands holds
      · have among {other : Visit} (visited : other ∈ visitMessage
            (visit.context.messageAt index message.name) parent message) : other ∈ file.visits :=
          inside (List.mem_append_left _ (mem_visitMessages.mpr ⟨index, message, listed, visited⟩))
        refine ⟨_, among (mem_visitMessage_self message), ?_, rfl,
          some ⟨message.name, (visit.context.messageAt index message.name).name⟩, ?_⟩
        · rw [← kind]
          rfl
        · intro other inner
          refine among ?_
          rw [visitMessage_eq]
          exact List.mem_append_left _ inner
      · refine ⟨.enum (visit.context.enumAt index enum.name) enum, ?_, ?_, rfl, none,
          List.nil_subset _⟩
        · exact inside (List.mem_append_right _ (mem_visitEnums.mpr ⟨index, enum, listed, rfl⟩))
        · rw [← kind]
          rfl
      · rw [whole_eq] at leads
        obtain ⟨root, same, -⟩ := leads.of_file
        obtain rfl := Definition.file.inj same
        refine ⟨.service ((Context.ofFile file.package).serviceAt index service.name) service, ?_,
          ?_, rfl, none, List.nil_subset _⟩
        · rw [visits_eq]
          refine List.mem_append_left _ (List.mem_append_right _ ?_)
          exact mem_visitServices.mpr ⟨index, service, listed, rfl⟩
        · rw [root]
          rfl

/-! ## Places -/

variable {context : Context} {visit : Visit} {place : Context × Definition}

/-- The items of the list with the number 2, where these can not hold others. -/
theorem mem_map_zipIdx_iff {α : Type} {items : List α} {holder : Definition}
    (change : α → Definition) (listed : holder.listAt 2 = items.map change)
    (plain : ∀ item, (change item).isOuter = false) (around : Context) :
    (context, definition) ∈ items.zipIdx.map (fun (item, position) =>
        (around.inner (change item).kind 2 position (change item).name, change item)) ↔
      definition.isOuter = false ∧ ∃ index number,
        (holder.listAt number)[index]? = some definition ∧
          context = around.inner definition.kind number index definition.name := by
  rw [mem_map_zipIdx]
  constructor
  · rintro ⟨index, item, stands, ⟨⟩⟩
    refine ⟨plain item, index, 2, ?_, rfl⟩
    rw [listed]
    exact Definition.getElem?_map_iff.mpr ⟨item, stands, rfl⟩
  · rintro ⟨member, index, number, stands, rfl⟩
    obtain rfl := Definition.eq_two_of_listAt stands member
    rw [listed] at stands
    obtain ⟨item, found, rfl⟩ := Definition.getElem?_map_iff.mp stands
    exact ⟨index, item, found, rfl⟩

/-- The members of what is visited are the items of its lists that can not hold others. -/
theorem mem_members : (context, definition) ∈ visit.members ↔ definition.isOuter = false ∧
    ∃ index number, (visit.definition.listAt number)[index]? = some definition ∧
      context = visit.context.inner definition.kind number index definition.name := by
  cases visit with
  | enum around enum =>
      rw [Visit.members, Context.values, Context.map_placed]
      exact mem_map_zipIdx_iff .enumValue rfl (fun _ => rfl) around
  | message around parent message =>
      rw [Visit.members, Context.fields, Context.map_placed]
      exact mem_map_zipIdx_iff .field rfl (fun _ => rfl) around
  | service around service =>
      rw [Visit.members, Context.methods, Context.map_placed]
      exact mem_map_zipIdx_iff .method rfl (fun _ => rfl) around
  | file around file =>
      refine iff_of_false List.not_mem_nil ?_
      rintro ⟨member, index, number, stands, -⟩
      obtain rfl := Definition.eq_two_of_listAt stands member
      contradiction

theorem mem_places : (context, definition) ∈ file.places ↔ ∃ visit ∈ file.visits,
    context = visit.context ∧ definition = visit.definition ∨
      (context, definition) ∈ visit.members := by
  unfold FileDefinition.places
  rw [List.mem_flatMap]
  simp only [List.mem_cons, Prod.mk.injEq]

/-- Every place has the context of the path that leads there. -/
theorem isOf_of_mem_places (member : (context, definition) ∈ file.places) :
    ∃ outer, context.IsOf file (definition :: outer) := by
  obtain ⟨visit, visited, ⟨rfl, rfl⟩ | inside⟩ := mem_places.mp member
  · obtain ⟨outer, of⟩ := isOf_of_mem_visits visited
    exact ⟨outer, of.context⟩
  · obtain ⟨outer, of⟩ := isOf_of_mem_visits visited
    obtain ⟨-, index, number, stands, rfl⟩ := mem_members.mp inside
    exact ⟨_, of.context.step stands⟩

/-- Every path that leads somewhere leads to a place. -/
theorem exists_place (leads : (Definition.file file).Leads path (definition :: outer)) :
    ∃ context, (context, definition) ∈ file.places ∧ context.path = path := by
  cases holds : definition.isOuter with
  | true =>
      obtain ⟨visit, visited, there, rfl, -⟩ := exists_visit leads holds
      exact ⟨visit.context, mem_places.mpr ⟨visit, visited, .inl ⟨rfl, rfl⟩⟩, there⟩
  | false =>
      cases leads with
      | start => contradiction
      | step leads found =>
          obtain ⟨visit, visited, rfl, rfl, -⟩ :=
            exists_visit leads (Definition.isOuter_of_item? found)
          obtain ⟨index, rfl, stands⟩ := Definition.item?_eq_some_iff.mp found
          have member := mem_members.mpr ⟨holds, index, _, stands, rfl⟩
          exact ⟨_, mem_places.mpr ⟨visit, visited, .inr member⟩, rfl⟩

/-- The context of a place is that of the file, or is made from that of the place around it. -/
theorem extends_of_mem_places (member : (context, definition) ∈ file.places) :
    context = .ofFile file.package ∨ ∃ place ∈ file.places, ∃ index : Nat,
      place.1.inner? definition.kind index definition.name = some context := by
  obtain ⟨outer, of⟩ := isOf_of_mem_places member
  have here := of.eq
  generalize context.path = path at here
  have leads := of.leads
  rw [here] at leads ⊢
  cases leads with
  | start => exact .inl (by rw [Definition.fullName_cons]; rfl)
  | step leads found =>
      obtain ⟨around, inside, rfl⟩ := exists_place leads
      obtain ⟨index, rfl, stands⟩ := Definition.item?_eq_some_iff.mp found
      obtain ⟨others, holder⟩ := isOf_of_mem_places inside
      have kind := holder.kind _ rfl
      refine .inr ⟨_, inside, index, ?_⟩
      rw [Context.inner?, kind, Definition.listNumber?_of_listAt stands, Option.map_some,
        holder.name, holder.leads.unique leads, Definition.fullName_cons definition]
      rfl

theorem path_of_mem_members (member : (context, definition) ∈ visit.members) :
    ∃ number index, context.path = visit.context.path ++ [number, index] := by
  obtain ⟨-, index, number, -, rfl⟩ := mem_members.mp member
  exact ⟨number, index, rfl⟩

theorem pairwise_members (visit : Visit) :
    visit.members.Pairwise fun place other => place.1.path ≠ other.1.path := by
  cases visit with
  | file => exact .nil
  | _ =>
      refine List.pairwise_map.mpr (List.pairwise_map.mpr ((pairwise_zipIdx _).imp ?_))
      intro first second before same
      have positions := List.append_cancel_left same
      simp at positions
      omega

/-- No two places have one path. -/
theorem nodup_places (file : FileDefinition) :
    (file.places.map fun place => place.1.path).Nodup := by
  have alike {first second : Context × Definition} (one : first ∈ file.places)
      (two : second ∈ file.places) (same : first.1.path = second.1.path) : first.2 = second.2 := by
    obtain ⟨outer, of⟩ := isOf_of_mem_places one
    obtain ⟨others, of_too⟩ := isOf_of_mem_places two
    exact (List.cons.inj (of.leads.unique (same ▸ of_too.leads))).1
  -- What is visited can hold others, and its members can not.
  have apart {visit other : Visit} {place : Context × Definition} (visited : visit ∈ file.visits)
      (visited_too : other ∈ file.visits) (member : place ∈ other.members) :
      visit.context.path ≠ place.1.path := by
    intro same
    have here := mem_places.mpr ⟨visit, visited, .inl ⟨rfl, rfl⟩⟩
    have there := mem_places.mpr ⟨other, visited_too, .inr member⟩
    have one_definition : visit.definition = place.2 := alike here there same
    have holds := visit.isOuter_definition
    rw [one_definition, (mem_members.mp member).1] at holds
    contradiction
  rw [List.Nodup, List.pairwise_map, FileDefinition.places, List.pairwise_flatMap]
  constructor
  · intro visit visited
    refine List.pairwise_cons.mpr ⟨?_, pairwise_members visit⟩
    intro place member
    exact apart visited visited member
  · refine (inOrder_visits file).imp_of_mem ?_
    intro visit other visited visited_too before first one second two same
    have differ : visit.context.path ≠ other.context.path := by
      intro equal
      rw [equal] at before
      exact comesFirst_irrefl _ before
    rcases List.mem_cons.mp one with rfl | one
    · rcases List.mem_cons.mp two with rfl | two
      · exact differ same
      · exact apart visited visited_too two same
    · rcases List.mem_cons.mp two with rfl | two
      · exact apart visited_too visited one same.symm
      · obtain ⟨number, index, inside⟩ := path_of_mem_members one
        obtain ⟨number_too, index_too, inside_too⟩ := path_of_mem_members two
        rw [inside, inside_too] at same
        exact differ (List.append_inj_left' same rfl)

/-- Visiting a file meets what it defines in place. -/
structure FileDefinition.VisitsInPlace (file : FileDefinition) : Prop where
  /-- What stands in a definition comes before it, messages before enumerations. -/
  ordered : InOrder file.visits
  /-- Every message, enumeration and service is visited, and the file itself. -/
  visited : ∀ path definition outer, file.follow? path = some (definition :: outer) →
    definition.isOuter = true →
      ∃ visit ∈ file.visits, visit.context.path = path ∧ visit.definition = definition
  /-- A context has the path to its definition, and its full name. -/
  places : ∀ context definition, (context, definition) ∈ file.places →
    ∃ outer, file.follow? context.path = some (definition :: outer) ∧
      context.name = Definition.fullName (definition :: outer) ∧ context.kind = definition.kind
  /-- Contexts are made from each other by the numbers of lists. -/
  extended : ∀ context definition, (context, definition) ∈ file.places →
    context = .ofFile file.package ∨ ∃ place ∈ file.places, ∃ index : Nat,
      place.1.inner? definition.kind index definition.name = some context
  /-- There is a context for every definition. -/
  complete : ∀ path definition outer, file.follow? path = some (definition :: outer) →
    ∃ context, (context, definition) ∈ file.places ∧ context.path = path
  distinct : (file.places.map fun place => place.1.path).Nodup

theorem FileDefinition.visitsInPlace (file : FileDefinition) : file.VisitsInPlace where
  ordered := inOrder_visits file
  visited path definition outer goes holds := by
    obtain ⟨visit, visited, there, same, -⟩ :=
      exists_visit (Definition.follow?_eq_some_iff.mp goes) holds
    exact ⟨visit, visited, there, same⟩
  places context definition member := by
    obtain ⟨outer, of⟩ := isOf_of_mem_places member
    exact ⟨outer, Definition.follow?_eq_some_iff.mpr of.leads, of.name, of.kind _ rfl⟩
  extended context definition member := extends_of_mem_places member
  complete path definition outer goes := exists_place (Definition.follow?_eq_some_iff.mp goes)
  distinct := nodup_places file

end

end ServiceDoc
