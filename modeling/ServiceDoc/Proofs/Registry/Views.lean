import ServiceDoc.Proofs.Definition.Visits
import ServiceDoc.Proofs.Registry.Rearrange

/-!
# What the registry shows

A registry shows the definitions of its files as they stand at their paths. The name and the comment
of each are those of its own path, and so are the names and comments of the fields, the values and
the methods inside. If no two types have one full name, each is found by its own.
-/

namespace ServiceDoc

/-! ## Comments -/

/-- A comment is what stands before the definition at a path: what the last location of the path
says, or nothing if there is no such location. -/
inductive Comment.IsAt (comment : Comment) (file : FileDefinition) (path : List Int) : Prop
  | told {before after : List Location} {location : Location}
      (split : file.locations = before ++ location :: after) (here : location.path = path)
      (last : ∀ other ∈ after, other.path ≠ path)
      (same : comment = ⟨unindented location.leading⟩) : Comment.IsAt comment file path
  | untold (absent : ∀ location ∈ file.locations, location.path ≠ path)
      (same : comment = .empty) : Comment.IsAt comment file path

namespace SourceInfo

variable {locations : List Location} {location : Location} {path : List Int}

theorem location?_eq_none_iff :
    location? locations path = none ↔ ∀ location ∈ locations, location.path ≠ path := by
  unfold location?
  rw [List.find?_eq_none]
  simp only [List.mem_reverse, decide_eq_true_eq]

/-- The last location of a path is found. -/
theorem location?_eq_some_iff : location? locations path = some location ↔
    location.path = path ∧ ∃ before after, locations = before ++ location :: after ∧
      ∀ other ∈ after, other.path ≠ path := by
  unfold location?
  rw [List.find?_eq_some_iff_append, decide_eq_true_eq]
  refine and_congr_right fun _ => ?_
  constructor
  · rintro ⟨after, before, split, others⟩
    refine ⟨before.reverse, after.reverse, ?_, ?_⟩
    · rw [← List.reverse_reverse locations, split]
      simp
    · intro other member
      simpa using others other (List.mem_reverse.mp member)
  · rintro ⟨before, after, rfl, others⟩
    refine ⟨after.reverse, before.reverse, by simp, ?_⟩
    intro other member
    simpa using others other (List.mem_reverse.mp member)

end SourceInfo

/-- The comment at a path is looked up among the locations of a file. -/
theorem Comment.isAt_iff {comment : Comment} {file : FileDefinition} {path : List Int} :
    comment.IsAt file path ↔ comment = SourceInfo.comment file.locations path := by
  unfold SourceInfo.comment
  constructor
  · intro stands
    cases stands with
    | told split here last same =>
        rw [SourceInfo.location?_eq_some_iff.mpr ⟨here, _, _, split, last⟩]
        exact same
    | untold absent same =>
        rw [SourceInfo.location?_eq_none_iff.mpr absent]
        exact same
  · rintro rfl
    cases found : SourceInfo.location? file.locations path with
    | none => exact .untold (SourceInfo.location?_eq_none_iff.mp found) rfl
    | some location =>
        obtain ⟨here, before, after, split, last⟩ := SourceInfo.location?_eq_some_iff.mp found
        exact .told split here last rfl

/-! ## Views -/

/-- A field is shown as it stands at a path inside other definitions. -/
structure MessageField.IsAt (view : MessageField) (file : FileDefinition) (path : List Int)
    (outer : List Definition) : Prop where
  leads : file.follow? path = some (.field view.definition :: outer)
  fullName : view.fullName = Definition.fullName (.field view.definition :: outer)
  containing : view.containing = Definition.fullName outer
  comment : view.comment.IsAt file path

/-- A value of an enumeration is shown as it stands at a path inside other definitions. -/
structure EnumValue.IsAt (view : EnumValue) (file : FileDefinition) (path : List Int)
    (outer : List Definition) : Prop where
  leads : file.follow? path = some (.enumValue ⟨view.name, view.number⟩ :: outer)
  comment : view.comment.IsAt file path

/-- A method is shown as it stands at a path inside other definitions. -/
structure Method.IsAt (view : Method) (file : FileDefinition) (path : List Int)
    (outer : List Definition) : Prop where
  leads : file.follow? path = some (.method view.definition :: outer)
  comment : view.comment.IsAt file path

/-- A message is shown as it stands at a path inside other definitions. -/
structure Message.IsAt (view : Message) (file : FileDefinition) (path : List Int)
    (message : MessageDefinition) (outer : List Definition) : Prop where
  leads : file.follow? path = some (.message message :: outer)
  name : view.name = message.name
  fullName : view.fullName = Definition.fullName (.message message :: outer)
  package : view.package = file.package
  /-- The message right around it, if there is one. -/
  parent : view.parent = Definition.outerType? outer
  comment : view.comment.IsAt file path
  /-- All fields are there, in their order. -/
  fields : view.fields.map MessageField.definition = message.fields
  /-- Each field is shown as it stands at its own path. -/
  field : ∀ (index : Nat) (field : MessageField), view.fields[index]? = some field →
    field.IsAt file (path ++ [2, (index : Int)]) (.message message :: outer)
  messages : view.messages = message.messages.map fun inner =>
    Definition.fullName (.message inner :: .message message :: outer)
  enums : view.enums = message.enums.map fun inner =>
    Definition.fullName (.enum inner :: .message message :: outer)
  isMapEntry : view.isMapEntry = message.isMapEntry

/-- An enumeration is shown as it stands at a path inside other definitions. -/
structure Enumeration.IsAt (view : Enumeration) (file : FileDefinition) (path : List Int)
    (enum : EnumDefinition) (outer : List Definition) : Prop where
  leads : file.follow? path = some (.enum enum :: outer)
  name : view.name = enum.name
  fullName : view.fullName = Definition.fullName (.enum enum :: outer)
  comment : view.comment.IsAt file path
  /-- All values are there, in their order. -/
  values : view.values.map (fun value => ⟨value.name, value.number⟩) = enum.values
  /-- Each value is shown as it stands at its own path. -/
  value : ∀ (index : Nat) (value : EnumValue), view.values[index]? = some value →
    value.IsAt file (path ++ [2, (index : Int)]) (.enum enum :: outer)

/-- A service is shown as it stands at a path inside other definitions. -/
structure Service.IsAt (view : Service) (file : FileDefinition) (path : List Int)
    (service : ServiceDefinition) (outer : List Definition) : Prop where
  leads : file.follow? path = some (.service service :: outer)
  name : view.name = service.name
  fullName : view.fullName = Definition.fullName (.service service :: outer)
  defaultHost : view.defaultHost = service.defaultHost
  comment : view.comment.IsAt file path
  /-- All methods are there, in their order. -/
  methods : view.methods.map Method.definition = service.methods
  /-- Each method is shown as it stands at its own path. -/
  method : ∀ (index : Nat) (method : Method), view.methods[index]? = some method →
    method.IsAt file (path ++ [2, (index : Int)]) (.service service :: outer)

section

variable {file : FileDefinition} {context : Context} {holder : Definition}
  {outer : List Definition} {α β : Type} {items : List α}

theorem Context.getElem?_map_placed {make : Nat → String → Context} {name : α → String}
    {view : Context × α → β} {index : Nat} : ((Context.placed make name items).map view)[index]? =
      items[index]?.map fun item => view (make index (name item), item) := by
  rw [Context.map_placed, List.getElem?_map, List.getElem?_zipIdx, Option.map_map, Nat.zero_add]
  rfl

/-- What is shown for an item of the list with the number 2 is made with the context of its path. -/
theorem Context.IsOf.exists_item (of : context.IsOf file (holder :: outer))
    (change : α → Definition) (listed : holder.listAt 2 = items.map change)
    {kind : DefinitionKind} {name : α → String}
    (kinds : ∀ item, (change item).kind = kind) (names : ∀ item, (change item).name = name item)
    {view : Context × α → β} {index : Nat} {shown : β}
    (found : ((Context.placed (context.inner kind 2) name items).map view)[index]? = some shown) :
    ∃ inner item, view (inner, item) = shown ∧ inner.path = context.path ++ [2, (index : Int)] ∧
      inner.IsOf file (change item :: holder :: outer) := by
  rw [Context.getElem?_map_placed, Option.map_eq_some_iff] at found
  obtain ⟨item, stands, shown⟩ := found
  have inside : (holder.listAt 2)[index]? = some (change item) := by
    rw [listed]
    exact Definition.getElem?_map_iff.mpr ⟨item, stands, rfl⟩
  have step := of.step inside
  rw [kinds, names] at step
  exact ⟨_, item, shown, rfl, step⟩

theorem Context.map_map_placed {make : Nat → String → Context} {name : α → String}
    {view : Context × α → β} {back : β → α} (same : ∀ place, back (view place) = place.2) :
    ((Context.placed make name items).map view).map back = items := by
  rw [Context.map_placed, List.map_map]
  refine Eq.trans ?_ (List.zipIdx_map_fst 0 items)
  apply List.map_congr_left
  rintro ⟨item, position⟩ -
  exact same _

theorem Context.IsOf.follow? (of : context.IsOf file outer) :
    file.follow? context.path = some outer :=
  Definition.follow?_eq_some_iff.mpr of.leads

theorem Context.IsOf.qualified (of : context.IsOf file outer) (inner : Definition) :
    Context.qualified context.name inner.name = Definition.fullName (inner :: outer) := by
  rw [Definition.fullName_cons, of.name]

theorem Message.isAt_ofDefinition {parent : Option TypeName} {message : MessageDefinition}
    (of : (Visit.message context parent message).IsOf file outer) :
    (Message.ofDefinition file.package file.locations context parent message).IsAt file
      context.path message outer where
  leads := of.context.follow?
  name := rfl
  fullName := of.context.name
  package := rfl
  parent := of.parent _ _ _ rfl
  comment := Comment.isAt_iff.mpr rfl
  fields := Context.map_map_placed fun _ => rfl
  field index field shown := by
    obtain ⟨inner, definition, rfl, place, inside⟩ :=
      of.context.exists_item .field rfl (fun _ => rfl) (fun _ => rfl) shown
    exact ⟨place ▸ inside.follow?, inside.name, of.context.name,
      Comment.isAt_iff.mpr (congrArg (SourceInfo.comment file.locations) place)⟩
  messages := List.map_congr_left fun inner _ => of.context.qualified (.message inner)
  enums := List.map_congr_left fun inner _ => of.context.qualified (.enum inner)
  isMapEntry := rfl

theorem Enumeration.isAt_ofDefinition {enum : EnumDefinition}
    (of : (Visit.enum context enum).IsOf file outer) :
    (Enumeration.ofDefinition file.locations context enum).IsAt file context.path enum outer where
  leads := of.context.follow?
  name := rfl
  fullName := of.context.name
  comment := Comment.isAt_iff.mpr rfl
  values := Context.map_map_placed fun _ => rfl
  value index value shown := by
    obtain ⟨inner, definition, rfl, place, inside⟩ :=
      of.context.exists_item .enumValue rfl (fun _ => rfl) (fun _ => rfl) shown
    exact ⟨place ▸ inside.follow?,
      Comment.isAt_iff.mpr (congrArg (SourceInfo.comment file.locations) place)⟩

theorem Service.isAt_ofDefinition {service : ServiceDefinition}
    (of : (Visit.service context service).IsOf file outer) :
    (Service.ofDefinition file.locations context service).IsAt file context.path service outer where
  leads := of.context.follow?
  name := rfl
  fullName := of.context.name
  defaultHost := rfl
  comment := Comment.isAt_iff.mpr rfl
  methods := Context.map_map_placed fun _ => rfl
  method index method shown := by
    obtain ⟨inner, definition, rfl, place, inside⟩ :=
      of.context.exists_item .method rfl (fun _ => rfl) (fun _ => rfl) shown
    exact ⟨place ▸ inside.follow?,
      Comment.isAt_iff.mpr (congrArg (SourceInfo.comment file.locations) place)⟩

end

/-! ## Files -/

/-- Views show the definitions of one kind in a file, each once and in the order of their paths. -/
def FileDefinition.Shows {α δ : Type} (file : FileDefinition) (change : δ → Definition)
    (isAt : α → FileDefinition → List Int → δ → List Definition → Prop) (views : List α) : Prop :=
  ∃ paths : List (List Int), paths.Pairwise ComesFirst ∧
    (∀ path, path ∈ paths ↔ ∃ item outer, file.follow? path = some (change item :: outer)) ∧
    List.Forall₂ (fun view path => ∃ item outer, isAt view file path item outer) views paths

/-- A file is shown with all that it defines. -/
structure SourceFile.IsOf (view : SourceFile) (file : FileDefinition) : Prop where
  name : view.name = file.name
  package : view.package = file.package
  locations : view.locations = file.locations
  messages : file.Shows .message Message.IsAt view.messages
  enums : file.Shows .enum Enumeration.IsAt view.enums
  services : file.Shows .service Service.IsAt view.services
  outerMessages : view.outerMessages = file.messages.map fun message =>
    Definition.fullName [.message message, .file file]
  outerEnums : view.outerEnums = file.enums.map fun enum =>
    Definition.fullName [.enum enum, .file file]

section

variable {file : FileDefinition} {α β δ : Type} {change : δ → Definition}
  {isAt : α → FileDefinition → List Int → δ → List Definition → Prop} {see : Visit → Option α}

theorem forall₂_filterMap {relation : α → β → Prop} {key : Visit → β} {visits : List Visit}
    (each : ∀ visit ∈ visits, ∀ view, see visit = some view → relation view (key visit)) :
    List.Forall₂ relation (visits.filterMap see)
      ((visits.filter fun visit => (see visit).isSome).map key) := by
  induction visits with
  | nil => exact .nil
  | cons visit rest ih =>
      have later := ih fun other member => each other (.tail _ member)
      cases seen : see visit with
      | none =>
          rw [List.filterMap_cons_none seen, List.filter_cons_of_neg (by simp [seen])]
          exact later
      | some view =>
          rw [List.filterMap_cons_some seen, List.filter_cons_of_pos (by simp [seen])]
          exact .cons (each visit (.head _) view seen) later

/-- What is seen of visits shows a kind of definitions if it shows the visits of this kind. -/
theorem shows_filterMap (holds : ∀ item, (change item).isOuter = true)
    (shown : ∀ visit outer item, visit.IsOf file outer → visit.definition = change item →
      ∃ view, see visit = some view ∧ isAt view file visit.context.path item outer)
    (alone : ∀ visit view, see visit = some view → ∃ item, visit.definition = change item) :
    file.Shows change isAt (file.visits.filterMap see) := by
  -- The paths are those of the visits that are shown.
  refine ⟨(file.visits.filter fun visit => (see visit).isSome).map fun visit => visit.context.path,
    ?_, ?_, ?_⟩
  · rw [List.pairwise_map]
    exact (inOrder_visits file).filter _
  · intro path
    rw [List.mem_map]
    constructor
    · rintro ⟨visit, member, rfl⟩
      obtain ⟨visited, some⟩ := List.mem_filter.mp member
      obtain ⟨view, seen⟩ := Option.isSome_iff_exists.mp some
      obtain ⟨outer, of⟩ := isOf_of_mem_visits visited
      obtain ⟨item, same⟩ := alone visit view seen
      exact ⟨item, outer, same ▸ of.context.follow?⟩
    · rintro ⟨item, outer, goes⟩
      obtain ⟨visit, visited, there, same, -⟩ :=
        exists_visit (Definition.follow?_eq_some_iff.mp goes) (holds item)
      obtain ⟨others, of⟩ := isOf_of_mem_visits visited
      obtain ⟨view, seen, -⟩ := shown visit others item of same
      exact ⟨visit, List.mem_filter.mpr ⟨visited, by rw [seen]; rfl⟩, there⟩
  · apply forall₂_filterMap
    intro visit visited view seen
    obtain ⟨outer, of⟩ := isOf_of_mem_visits visited
    obtain ⟨item, same⟩ := alone visit view seen
    obtain ⟨view, seen_too, there⟩ := shown visit outer item of same
    obtain rfl := Option.some.inj (seen.symm.trans seen_too)
    exact ⟨item, outer, there⟩

/-- A definition of a kind that is shown has a view. -/
theorem FileDefinition.Shows.exists_view {views : List α} (shows : file.Shows change isAt views)
    (leads : ∀ {view path item outer}, isAt view file path item outer →
      file.follow? path = some (change item :: outer))
    (injective : Function.Injective change) {path : List Int} {item : δ} {outer : List Definition}
    (goes : file.follow? path = some (change item :: outer)) :
    ∃ view ∈ views, isAt view file path item outer := by
  obtain ⟨paths, -, known, each⟩ := shows
  obtain ⟨view, listed, other, others, there⟩ :=
    exists_of_forall₂ each ((known path).mpr ⟨item, outer, goes⟩)
  obtain ⟨same, rfl⟩ := List.cons.inj (Option.some.inj (goes.symm.trans (leads there)))
  obtain rfl := injective same
  exact ⟨view, listed, there⟩

/-- A file is shown as it is defined. -/
theorem SourceFile.isOf_ofDefinition (generated : List String) (position : Nat)
    (file : FileDefinition) : (SourceFile.ofDefinition generated position file).IsOf file where
  name := rfl
  package := rfl
  locations := rfl
  messages := by
    refine shows_filterMap (fun _ => rfl) ?_ ?_
    · intro visit outer message of same
      cases visit with
      | message context parent definition =>
          obtain rfl := Definition.message.inj same
          exact ⟨_, rfl, Message.isAt_ofDefinition of⟩
      | _ => contradiction
    · intro visit view seen
      cases visit with
      | message context parent definition => exact ⟨definition, rfl⟩
      | _ => contradiction
  enums := by
    refine shows_filterMap (fun _ => rfl) ?_ ?_
    · intro visit outer enum of same
      cases visit with
      | enum context definition =>
          obtain rfl := Definition.enum.inj same
          exact ⟨_, rfl, Enumeration.isAt_ofDefinition of⟩
      | _ => contradiction
    · intro visit view seen
      cases visit with
      | enum context definition => exact ⟨definition, rfl⟩
      | _ => contradiction
  services := by
    refine shows_filterMap (fun _ => rfl) ?_ ?_
    · intro visit outer service of same
      cases visit with
      | service context definition =>
          obtain rfl := Definition.service.inj same
          exact ⟨_, rfl, Service.isAt_ofDefinition of⟩
      | _ => contradiction
    · intro visit view seen
      cases visit with
      | service context definition => exact ⟨definition, rfl⟩
      | _ => contradiction
  outerMessages := List.map_congr_left fun message _ =>
    (Context.IsOf.ofFile file).qualified (.message message)
  outerEnums := List.map_congr_left fun enum _ => (Context.IsOf.ofFile file).qualified (.enum enum)

end

/-! ## The registry -/

/-- A look-up finds an item under its name behind a dot, and under the name alone if that does not
start with a dot itself. -/
def FindsByName {α : Type} (find : String → Option α) (name : String) (item : α) : Prop :=
  find ("." ++ name) = some item ∧ (name.toList.head? ≠ some '.' → find name = some item)

theorem withoutDot_dot (name : String) : withoutDot ("." ++ name) = name := by
  unfold withoutDot
  simp

theorem withoutDot_of_ne {name : String} (plain : name.toList.head? ≠ some '.') :
    withoutDot name = name := by
  unfold withoutDot
  split
  · next rest spelled =>
      rw [spelled] at plain
      contradiction
  · rfl

namespace Registry

variable {generated : List String} {files : List FileDefinition} {file : FileDefinition}
  {outer : List Definition} {path : List Int}

/-- The files of a registry are shown as they are defined, in their order. -/
theorem forall₂_files_ofFiles (generated : List String) (files : List FileDefinition) :
    List.Forall₂ SourceFile.IsOf (ofFiles generated files).files files := by
  induction files using List.reverseRecOn with
  | nil => exact .nil
  | append_singleton earlier file ih =>
      rw [ofFiles_concat]
      exact List.rel_append ih (.cons (SourceFile.isOf_ofDefinition _ _ file) .nil)

theorem exists_message {message : MessageDefinition} (member : file ∈ files)
    (goes : file.follow? path = some (.message message :: outer)) :
    ∃ view ∈ (ofFiles generated files).fileMessages, view.IsAt file path message outer := by
  obtain ⟨shown, inside, of⟩ := exists_of_forall₂ (forall₂_files_ofFiles generated files) member
  obtain ⟨view, listed, there⟩ :=
    of.messages.exists_view Message.IsAt.leads (fun _ _ => Definition.message.inj) goes
  exact ⟨view, List.mem_flatMap.mpr ⟨shown, inside, listed⟩, there⟩

theorem exists_enum {enum : EnumDefinition} (member : file ∈ files)
    (goes : file.follow? path = some (.enum enum :: outer)) :
    ∃ view ∈ (ofFiles generated files).fileEnums, view.IsAt file path enum outer := by
  obtain ⟨shown, inside, of⟩ := exists_of_forall₂ (forall₂_files_ofFiles generated files) member
  obtain ⟨view, listed, there⟩ :=
    of.enums.exists_view Enumeration.IsAt.leads (fun _ _ => Definition.enum.inj) goes
  exact ⟨view, List.mem_flatMap.mpr ⟨shown, inside, listed⟩, there⟩

/-- If no two items have one name, each is found by its own. -/
theorem findsByName {α : Type} {key : α → String} {items : List α} {index : Index α}
    {find : String → Option α} {item : α} {name : String} (holds : index.Of key items)
    (looks : ∀ name, find name = index.lookup (withoutDot name))
    (distinct : (items.map key).Nodup) (member : item ∈ items) (named : key item = name) :
    FindsByName find name item := by
  have found : index.lookup name = some item := by
    rw [holds.lookup_iff]
    · exact ⟨member, named⟩
    · intro first one second two named named_too
      exact List.inj_on_of_nodup_map distinct one two (named.trans named_too.symm)
  constructor
  · rw [looks, withoutDot_dot]
    exact found
  · intro plain
    rw [looks, withoutDot_of_ne plain]
    exact found

/-- Every file is visited in place and shown as it is defined; and if no two messages have one full
name, each is found by its own, shown as it stands at its path; and so are enumerations. -/
theorem finds_definitions_in_place (generated : List String) (files : List FileDefinition) :
    (∀ file ∈ files, file.VisitsInPlace) ∧
    List.Forall₂ SourceFile.IsOf (ofFiles generated files).files files ∧
    (((ofFiles generated files).fileMessages.map Message.fullName).Nodup →
      ∀ file ∈ files, ∀ path message outer,
        file.follow? path = some (.message message :: outer) →
          ∃ view : Message, view.IsAt file path message outer ∧
            FindsByName (ofFiles generated files).message?
              (Definition.fullName (.message message :: outer)) view) ∧
    (((ofFiles generated files).fileEnums.map Enumeration.fullName).Nodup →
      ∀ file ∈ files, ∀ path enum outer, file.follow? path = some (.enum enum :: outer) →
        ∃ view : Enumeration, view.IsAt file path enum outer ∧
          FindsByName (ofFiles generated files).enum?
            (Definition.fullName (.enum enum :: outer)) view) := by
  refine ⟨fun file _ => file.visitsInPlace, forall₂_files_ofFiles generated files, ?_, ?_⟩
  · intro distinct file member path message outer goes
    obtain ⟨view, listed, there⟩ := exists_message member goes
    refine ⟨view, there, ?_⟩
    exact findsByName messages_ofFiles (fun _ => rfl) distinct listed there.fullName
  · intro distinct file member path enum outer goes
    obtain ⟨view, listed, there⟩ := exists_enum member goes
    refine ⟨view, there, ?_⟩
    exact findsByName enums_ofFiles (fun _ => rfl) distinct listed there.fullName

/-- The label of a shelf. -/
def labelMessage : MessageDefinition where
  name := "Label"
  fields := [{ name := "text", type := .string }, { name := "color", type := .string }]

/-- A shelf with a label. -/
def labelledShelf : MessageDefinition where
  name := "Shelf"
  messages := [labelMessage]
  enums := [{ name := "Kind" }]

/-- A library whose shelves have labels. -/
def labelsFile : FileDefinition where
  name := "labels.proto"
  package := "library"
  messages := [labelledShelf]
  locations := [
    { path := [4, 0, 3, 0], leading := " What a shelf holds.\n" },
    { path := [4, 0, 3, 0, 2, 1], leading := " The paint.\n" }]

/-- Labels are found by their full name, with what is said about them and about their color. -/
theorem label_found_in_place : ∃ label color,
    (ofFiles [] [labelsFile]).message? "library.Shelf.Label" = some label ∧
    label.parent = some ⟨"Shelf", "library.Shelf"⟩ ∧
    label.comment = ⟨"What a shelf holds.\n"⟩ ∧
    label.fields[1]? = some color ∧ color.fullName = "library.Shelf.Label.color" ∧
    color.comment = ⟨"The paint.\n"⟩ := by
  have distinct : ((ofFiles [] [labelsFile]).fileMessages.map Message.fullName).Nodup := by decide
  obtain ⟨label, there, found⟩ := (finds_definitions_in_place [] [labelsFile]).2.2.1 distinct
    labelsFile (.head _) [4, 0, 3, 0] labelMessage [.message labelledShelf, .file labelsFile] rfl
  have plain : ("library.Shelf.Label" : String).toList.head? ≠ some '.' := by decide
  have second : label.fields[1]?.map MessageField.definition =
      some { name := "color", type := .string } := by
    rw [← List.getElem?_map, there.fields]
    rfl
  obtain ⟨color, shown, defined⟩ := Option.map_eq_some_iff.mp second
  have painted := there.field 1 color shown
  refine ⟨label, color, found.2 plain, there.parent, ?_, shown, ?_, ?_⟩
  · exact (Comment.isAt_iff.mp there.comment).trans (by decide)
  · rw [painted.fullName, defined]
    decide
  · exact (Comment.isAt_iff.mp painted.comment).trans (by decide)

/-- A package whose name starts with a dot. -/
def draftsFile : FileDefinition where
  package := ".drafts"
  messages := [{ name := "Sketch" }]

/-- What is in such a package is not found by its full name alone. -/
theorem sketch_unfound :
    ((ofFiles [] [draftsFile]).fileMessages.map Message.fullName).Nodup ∧
    draftsFile.follow? [4, 0] = some [.message { name := "Sketch" }, .file draftsFile] ∧
    Definition.fullName [.message { name := "Sketch" }, .file draftsFile] = ".drafts.Sketch" ∧
    (ofFiles [] [draftsFile]).message? ".drafts.Sketch" = none := by
  refine ⟨by decide, rfl, by decide, by decide⟩

end Registry

end ServiceDoc
