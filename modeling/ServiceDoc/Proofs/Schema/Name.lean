import ServiceDoc.Proofs.Registry.Rearrange
import ServiceDoc.Proofs.Schema.Reflect
import ServiceDoc.Proofs.Text.Case

/-!
# Qualified schema names

A qualified schema name holds the package of a message, the name of the message that it is defined
in, and its own name; what is further outside is left out. If names are separable, these parts can
be read off the schema name, so that it stands for one message only among the messages that are
defined in a package itself or in such a message.
-/

namespace ServiceDoc

namespace Text

variable {separator : Char} {before after first last : List Char}

/-- What stands before and behind the first separator can be read off a text. -/
theorem append_cons_inj_of_notMem_left (absent : separator ∉ before)
    (absent_too : separator ∉ first) :
    before ++ separator :: after = first ++ separator :: last ↔ before = first ∧ after = last := by
  refine ⟨fun same => ?_, fun ⟨begins, ends⟩ => by rw [begins, ends]⟩
  induction before generalizing first with
  | nil =>
      cases first with
      | nil => exact ⟨rfl, (List.cons.inj same).2⟩
      | cons c rest => exact (absent_too ((List.cons.inj same).1 ▸ .head _)).elim
  | cons c rest ih =>
      cases first with
      | nil => exact (absent ((List.cons.inj same).1 ▸ .head _)).elim
      | cons d others =>
          obtain ⟨rfl, later⟩ := List.cons.inj same
          obtain ⟨rfl, ends⟩ := ih (fun member => absent (.tail _ member))
            (fun member => absent_too (.tail _ member)) later
          exact ⟨rfl, ends⟩

/-- So can what stands before and behind the last one. -/
theorem append_cons_inj_of_notMem_right (absent : separator ∉ after)
    (absent_too : separator ∉ last) :
    before ++ separator :: after = first ++ separator :: last ↔ before = first ∧ after = last := by
  have turned := @append_cons_inj_of_notMem_left separator after.reverse before.reverse
    last.reverse first.reverse (by rwa [List.mem_reverse]) (by rwa [List.mem_reverse])
  rw [List.reverse_inj, List.reverse_inj] at turned
  rw [and_comm, ← turned, ← List.reverse_inj]
  simp

end Text

/-- A name starts with a capital letter. -/
def IsCapitalized (name : String) : Prop :=
  ∃ first rest, name.toList = first :: rest ∧ first.isUpper = true

instance (name : String) : Decidable (IsCapitalized name) :=
  decidable_of_iff (name.toList.head?.any Char.isUpper = true) (by
    rw [IsCapitalized]
    cases name.toList <;> simp)

namespace Naming

variable {naming : Naming} {name other : String}

/-- A capitalized name of several letters is its own name in JSON, and one of a single letter gets
its lower case. -/
theorem apply_json (capitalized : IsCapitalized name) :
    json.apply name = name ∧ name.toList.length ≠ 1 ∨
      ∃ letter small : Char, letter.isUpper = true ∧ name.toList = [letter] ∧
        Text.lower letter = [small] ∧ json.apply name = String.ofList [small] := by
  obtain ⟨first, rest, spelled, capital⟩ := capitalized
  cases rest with
  | nil =>
      obtain ⟨small, lowered, -⟩ := Text.lower_of_isUpper capital
      exact .inr ⟨first, small, capital, spelled, lowered, by simp [apply, spelled, lowered]⟩
  | cons second rest =>
      refine .inl ⟨?_, by simp [spelled]⟩
      simp only [apply, spelled, Text.upper_of_isUpper capital, List.singleton_append]
      rw [← spelled, String.ofList_toList]

/-- A naming keeps names apart; those in JSON have to be capitalized. -/
theorem eq_of_apply_eq (capitalized : naming = .json → IsCapitalized name ∧ IsCapitalized other)
    (same : naming.apply name = naming.apply other) : name = other := by
  cases naming with
  | proto => exact same
  | json =>
      obtain ⟨first, second⟩ := capitalized rfl
      rcases apply_json first with ⟨kept, long⟩ | ⟨letter, small, capital, single, lowered, given⟩
      · rcases apply_json second with ⟨kept_too, -⟩ | ⟨_, _, -, -, -, given_too⟩
        · rw [← kept, same, kept_too]
        · rw [kept, given_too] at same
          exact (long (by rw [same, String.toList_ofList]; rfl)).elim
      · rcases apply_json second with ⟨kept_too, long⟩ |
          ⟨letter_too, small_too, capital_too, single_too, lowered_too, given_too⟩
        · rw [kept_too, given] at same
          exact (long (by rw [← same, String.toList_ofList]; rfl)).elim
        · rw [given, given_too] at same
          have letters : letter = letter_too := by
            refine Text.eq_of_lower_eq capital capital_too ?_
            rw [lowered, lowered_too, String.ofList_injective same]
          exact String.toList_inj.mp (by rw [single, single_too, letters])

/-- A naming brings no dot into a name. -/
theorem notMem_apply (capitalized : naming = .json → IsCapitalized name)
    (dotless : '.' ∉ name.toList) : '.' ∉ (naming.apply name).toList := by
  cases naming with
  | proto => exact dotless
  | json =>
      rcases apply_json (capitalized rfl) with ⟨kept, -⟩ | ⟨letter, small, capital, -, lowered, given⟩
      · rwa [kept]
      · rw [given, String.toList_ofList, List.mem_singleton]
        rintro rfl
        obtain ⟨moved, lowered_too, value⟩ := Text.lower_of_isUpper capital
        obtain rfl := List.singleton_inj.mp (lowered.symm.trans lowered_too)
        have bounds := Text.isUpper_iff.mp capital
        simp only [Char.reduceVal] at value bounds
        grind

end Naming

namespace MessageIdentity

/-- What the scoped name of a message starts with: the name of the message that it is defined in, or
its own. -/
def start (identity : MessageIdentity) : String := identity.parent.getD identity.name

/-- The parts of the schema name of a message can be told apart: dots stand between the parts of
the package alone, and no underscore stands before the one that joins the names of two messages.
JSON names of single letters could be those of other letters, so they have to be capitalized. -/
structure Separable (naming : Naming) (identity : MessageIdentity) : Prop where
  /-- No name has a dot. -/
  dotless : '.' ∉ identity.name.toList ∧ '.' ∉ identity.start.toList
  joined : '_' ∉ identity.start.toList
  capitalized : naming = .json → IsCapitalized identity.start

instance (naming : Naming) (identity : MessageIdentity) : Decidable (identity.Separable naming) :=
  decidable_of_iff (('.' ∉ identity.name.toList ∧ '.' ∉ identity.start.toList) ∧
      '_' ∉ identity.start.toList ∧ (naming = .json → IsCapitalized identity.start))
    ⟨fun ⟨dotless, joined, capitalized⟩ => ⟨dotless, joined, capitalized⟩,
      fun ⟨dotless, joined, capitalized⟩ => ⟨dotless, joined, capitalized⟩⟩

variable {naming : Naming} {first second : MessageIdentity} {config : Config}

/-- A qualified schema name depends on its parts alone. -/
theorem schemaName_eq_of_parts (qualified : config.qualifiedNames = true)
    (packages : first.package = second.package) (parents : first.parent = second.parent)
    (names : first.name = second.name) : config.schemaName first = config.schemaName second := by
  simp only [Config.schemaName, scopedName, if_pos qualified, packages, parents, names]

/-- The scoped name starts as the names that it is made of. -/
theorem toList_scopedName (identity : MessageIdentity) :
    identity.scopedName.toList = identity.start.toList ∧ identity.parent = none ∨
      identity.scopedName.toList = identity.start.toList ++ '_' :: identity.name.toList ∧
        identity.parent = some identity.start := by
  unfold scopedName start
  cases identity.parent with
  | none => exact .inl ⟨rfl, rfl⟩
  | some parent => exact .inr ⟨by simp, rfl⟩

namespace Separable

theorem notMem_scopedName (separable : first.Separable naming) :
    '.' ∉ first.scopedName.toList := by
  rcases first.toList_scopedName with ⟨spelled, -⟩ | ⟨spelled, -⟩
  · rw [spelled]
    exact separable.dotless.2
  · simp [spelled, separable.dotless]

theorem isCapitalized_scopedName (separable : first.Separable naming) (json : naming = .json) :
    IsCapitalized first.scopedName := by
  obtain ⟨letter, rest, starts, capital⟩ := separable.capitalized json
  rcases first.toList_scopedName with ⟨spelled, -⟩ | ⟨spelled, -⟩
  · exact ⟨letter, rest, spelled.trans starts, capital⟩
  · exact ⟨letter, rest ++ '_' :: first.name.toList, by rw [spelled, starts]; rfl, capital⟩

/-- The names that a scoped name is made of can be read off it. -/
theorem eq_of_scopedName_eq (separable : first.Separable naming)
    (separable_too : second.Separable naming) (same : first.scopedName = second.scopedName) :
    first.parent = second.parent ∧ first.name = second.name := by
  have text : first.scopedName.toList = second.scopedName.toList := congrArg String.toList same
  rcases first.toList_scopedName with ⟨spelled, outer⟩ | ⟨spelled, inner⟩
  · rcases second.toList_scopedName with ⟨spelled_too, outer_too⟩ | ⟨spelled_too, -⟩
    · have starts : first.start = second.start :=
        String.toList_inj.mp (spelled.symm.trans (text.trans spelled_too))
      rw [start, start, outer, outer_too] at starts
      exact ⟨outer.trans outer_too.symm, starts⟩
    · have joined := separable.joined
      rw [← spelled, text, spelled_too] at joined
      simp at joined
  · rcases second.toList_scopedName with ⟨spelled_too, -⟩ | ⟨spelled_too, inner_too⟩
    · have joined := separable_too.joined
      rw [← spelled_too, ← text, spelled] at joined
      simp at joined
    · rw [spelled, spelled_too,
        Text.append_cons_inj_of_notMem_left separable.joined separable_too.joined] at text
      obtain ⟨starts, ends⟩ := text
      rw [inner, inner_too, String.toList_inj.mp starts]
      exact ⟨rfl, String.toList_inj.mp ends⟩

/-- The parts of a qualified schema name can be read off it. -/
theorem eq_of_schemaName_eq (qualified : config.qualifiedNames = true)
    (separable : first.Separable config.naming) (separable_too : second.Separable config.naming)
    (same : config.schemaName first = config.schemaName second) :
    first.package = second.package ∧ first.parent = second.parent ∧ first.name = second.name := by
  simp only [Config.schemaName, qualified, if_true, ← String.toList_inj, String.toList_append,
    List.append_assoc] at same
  obtain ⟨packages, names⟩ := (Text.append_cons_inj_of_notMem_right
    (Naming.notMem_apply separable.isCapitalized_scopedName separable.notMem_scopedName)
    (Naming.notMem_apply separable_too.isCapitalized_scopedName
      separable_too.notMem_scopedName)).mp same
  have together := Naming.eq_of_apply_eq (fun json => ⟨separable.isCapitalized_scopedName json,
    separable_too.isCapitalized_scopedName json⟩) (String.toList_inj.mp names)
  exact ⟨String.toList_inj.mp packages, separable.eq_of_scopedName_eq separable_too together⟩

end Separable

end MessageIdentity

/-! ## Full names -/

open Context

/-- The full name of a message that is visited is its name inside the message that it is defined
in, or inside the package. -/
def Visit.IsNamed (package : String) : Visit → Prop
  | .message context parent definition =>
      context.name = qualified ((parent.map TypeName.fullName).getD package) definition.name
  | _ => True

theorem isNamed_of_mem_visitEnums {package : String} {context : Context}
    {definitions : List EnumDefinition} {visit : Visit}
    (visited : visit ∈ visitEnums context definitions) : visit.IsNamed package := by
  obtain ⟨entry, -, rfl⟩ := List.mem_map.mp visited
  trivial

mutual

theorem isNamed_of_mem_visitMessage {package : String} (context : Context)
    (parent : Option TypeName) (definition : MessageDefinition)
    (named : context.name = qualified ((parent.map TypeName.fullName).getD package)
      definition.name) :
    ∀ visit ∈ visitMessage context parent definition, visit.IsNamed package :=
  match definition with
  | ⟨name, fields, messages, enums, isMapEntry⟩ => by
      intro visit visited
      rw [visitMessage, List.mem_append, List.mem_append, List.mem_singleton] at visited
      rcases visited with (inner | enum) | rfl
      · exact isNamed_of_mem_visitMessages context (some ⟨name, context.name⟩) 0 messages rfl
          visit inner
      · exact isNamed_of_mem_visitEnums enum
      · exact named

theorem isNamed_of_mem_visitMessages {package : String} (context : Context)
    (parent : Option TypeName) (position : Nat) (definitions : List MessageDefinition)
    (holds : (parent.map TypeName.fullName).getD package = context.name) :
    ∀ visit ∈ visitMessages context parent position definitions, visit.IsNamed package :=
  match definitions with
  | [] => by
      intro visit visited
      rw [visitMessages] at visited
      contradiction
  | definition :: later => by
      intro visit visited
      rw [visitMessages, List.mem_append] at visited
      rcases visited with first | other
      · exact isNamed_of_mem_visitMessage _ parent definition (by rw [holds]; rfl) visit first
      · exact isNamed_of_mem_visitMessages context parent (position + 1) later holds visit other

end

/-- The full name of a message that a file defines. -/
theorem fullName_of_mem_described {file : FileDefinition} {message : Message}
    (defined : message ∈ file.described) :
    message.fullName =
      qualified ((message.parent.map TypeName.fullName).getD message.package) message.name := by
  obtain ⟨visit, visited, made⟩ := List.mem_filterMap.mp defined
  have named : visit.IsNamed file.package := by
    simp only [FileDefinition.visits, List.mem_append, List.mem_singleton] at visited
    rcases visited with ((message | enum) | service) | rfl
    · exact isNamed_of_mem_visitMessages _ none 0 file.messages rfl visit message
    · exact isNamed_of_mem_visitEnums enum
    · obtain ⟨entry, -, rfl⟩ := List.mem_map.mp service
      trivial
    · trivial
  cases visit with
  | message context parent definition =>
      obtain rfl := Option.some.inj made
      exact named
  | enum => nomatch made
  | service => nomatch made
  | file => nomatch made

namespace Message

/-- A message is defined in its package itself, or in a message that is. -/
def IsShallow (message : Message) : Prop :=
  ∀ outer ∈ message.parent, outer.fullName = qualified message.package outer.name

instance (message : Message) : Decidable message.IsShallow :=
  inferInstanceAs (Decidable (∀ outer ∈ message.parent, _))

/-- Two messages are defined in different messages of one name. -/
def HaveNamesakeParents (first second : Message) : Prop :=
  ∃ outer ∈ first.parent, ∃ other ∈ second.parent,
    outer.name = other.name ∧ outer.fullName ≠ other.fullName

end Message

namespace Registry

variable {generated : List String} {files : List FileDefinition} {message : Message}

theorem fullName_of_mem_fileMessages (defined : message ∈ (ofFiles generated files).fileMessages) :
    message.fullName =
      qualified ((message.parent.map TypeName.fullName).getD message.package) message.name := by
  rw [fileMessages_ofFiles] at defined
  obtain ⟨file, -, member⟩ := List.mem_flatMap.mp defined
  exact fullName_of_mem_described member

end Registry

/-! ## What a qualified name tells apart -/

namespace Config

open Registry

variable {config : Config} {generated : List String} {files : List FileDefinition}
  {first second : Message}

theorem haveNamesakeParents (defined : first ∈ (ofFiles generated files).fileMessages)
    (defined_too : second ∈ (ofFiles generated files).fileMessages)
    (packages : first.package = second.package) (names : first.name = second.name)
    (parents : first.identity.parent = second.identity.parent)
    (differ : first.fullName ≠ second.fullName) : first.HaveNamesakeParents second := by
  have named := fullName_of_mem_fileMessages defined
  have named_too := fullName_of_mem_fileMessages defined_too
  rw [← packages, ← names] at named_too
  change first.parent.map TypeName.name = second.parent.map TypeName.name at parents
  cases outer : first.parent with
  | none =>
      rw [outer, eq_comm, Option.map_none, Option.map_eq_none_iff] at parents
      rw [outer] at named
      rw [parents] at named_too
      exact (differ (named.trans named_too.symm)).elim
  | some parent =>
      rw [outer, eq_comm, Option.map_some, Option.map_eq_some_iff] at parents
      obtain ⟨other, outer_too, same⟩ := parents
      refine ⟨parent, outer, other, outer_too, same.symm, fun whole => differ ?_⟩
      rw [named, named_too, outer, outer_too, Option.map_some, Option.map_some, whole]

/-- Of separable names, a qualified schema name stands for two messages of a registry exactly if
they have one package and one name and are defined in different messages of one name; so never for
two messages that are defined in a package itself, or in such a message. -/
theorem qualified_names_agree_iff (qualified : config.qualifiedNames = true)
    (defined : first ∈ (ofFiles generated files).fileMessages)
    (defined_too : second ∈ (ofFiles generated files).fileMessages)
    (separable : first.identity.Separable config.naming)
    (separable_too : second.identity.Separable config.naming)
    (differ : first.fullName ≠ second.fullName) :
    (config.messageName first = config.messageName second ↔ first.package = second.package ∧
      first.name = second.name ∧ first.HaveNamesakeParents second) ∧
    (first.IsShallow → second.IsShallow →
      config.messageName first ≠ config.messageName second) := by
  have apart : config.messageName first = config.messageName second →
      first.package = second.package ∧ first.name = second.name ∧
        first.HaveNamesakeParents second := by
    intro same
    obtain ⟨packages, parents, names⟩ := separable.eq_of_schemaName_eq qualified separable_too same
    exact ⟨packages, names, haveNamesakeParents defined defined_too packages names parents differ⟩
  refine ⟨⟨apart, ?_⟩, fun shallow shallow_too same => ?_⟩
  · rintro ⟨packages, names, outer, inside, other, inside_too, namesakes, -⟩
    have parents : first.identity.parent = second.identity.parent := by
      change first.parent.map TypeName.name = second.parent.map TypeName.name
      rw [Option.mem_def.mp inside, Option.mem_def.mp inside_too, Option.map_some, Option.map_some,
        namesakes]
    exact MessageIdentity.schemaName_eq_of_parts qualified packages parents names
  · obtain ⟨packages, -, outer, inside, other, inside_too, namesakes, different⟩ := apart same
    rw [shallow outer inside, shallow_too other inside_too, packages, namesakes] at different
    exact different rfl

/-- A library whose shelves and books have pages of their own. -/
def pagesFile : FileDefinition where
  name := "pages.proto"
  package := "library"
  messages := [
    { name := "Shelf", messages := [{ name := "Page" }] },
    { name := "Book", messages := [{ name := "Page" }] }]

/-- The pages of shelves and of books have different schema names. -/
theorem pages_have_own_names : ∃ first second, first.fullName = "library.Shelf.Page" ∧
    second.fullName = "library.Book.Page" ∧
    { libraryConfig with naming := .json, qualifiedNames := true }.messageName first ≠
      { libraryConfig with naming := .json, qualifiedNames := true }.messageName second := by
  have suited : ∃ first ∈ (ofFiles [] [pagesFile]).fileMessages,
      ∃ second ∈ (ofFiles [] [pagesFile]).fileMessages, first.identity.Separable .json ∧
        second.identity.Separable .json ∧ first.IsShallow ∧ second.IsShallow ∧
          first.fullName = "library.Shelf.Page" ∧ second.fullName = "library.Book.Page" := by
    decide +kernel
  obtain ⟨first, defined, second, defined_too, separable, separable_too, shallow, shallow_too,
    named, named_too⟩ := suited
  refine ⟨first, second, named, named_too, ?_⟩
  refine (qualified_names_agree_iff rfl defined defined_too separable separable_too ?_).2 shallow
    shallow_too
  rw [named, named_too]
  decide

/-- In files that define every message once, a qualified schema name stands for two of them. -/
def Confuses (config : Config) (files : List FileDefinition) : Prop :=
  config.qualifiedNames = true ∧
    ((ofFiles [] files).fileMessages.map Message.fullName).Nodup ∧
    ∃ first ∈ (ofFiles [] files).fileMessages, ∃ second ∈ (ofFiles [] files).fileMessages,
      first.fullName ≠ second.fullName ∧ config.messageName first = config.messageName second

instance (config : Config) (files : List FileDefinition) : Decidable (config.Confuses files) :=
  inferInstanceAs (Decidable (_ ∧ _))

/-- Messages three levels deep, with an underscore, or with a small first letter in JSON, share
qualified schema names with others. -/
theorem qualified_names_confuse :
    { libraryConfig with qualifiedNames := true }.Confuses [
      { package := "p"
        messages := [
          { name := "X", messages := [{ name := "A", messages := [{ name := "B" }] }] },
          { name := "Y", messages := [{ name := "A", messages := [{ name := "B" }] }] }] }] ∧
    { libraryConfig with qualifiedNames := true }.Confuses [
      { package := "p"
        messages := [{ name := "A", messages := [{ name := "B" }] }, { name := "A_B" }] }] ∧
    { libraryConfig with naming := .json, qualifiedNames := true }.Confuses [
      { package := "p", messages := [{ name := "Book" }, { name := "book" }] }] := by
  refine ⟨?_, ?_, ?_⟩ <;> decide +kernel

end Config

end ServiceDoc
