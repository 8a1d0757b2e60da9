import ServiceDoc.Definition.Context
import Mathlib.Data.List.Basic

/-!
# Following paths

A path of numbers and positions leads from a file to a definition in it: each number names a list
of the definition that was reached, and the position behind it an item of that list.
-/

namespace ServiceDoc

/-- A definition of any kind. -/
inductive Definition where
  | file (file : FileDefinition)
  | message (message : MessageDefinition)
  | enum (enum : EnumDefinition)
  | service (service : ServiceDefinition)
  | field (field : FieldDefinition)
  | enumValue (value : EnumValueDefinition)
  | method (method : MethodDefinition)

namespace Definition

/-- What a definition defines. -/
def kind : Definition → DefinitionKind
  | file _ => .file
  | message _ => .message
  | enum _ => .enum
  | service _ => .service
  | field _ => .field
  | enumValue _ => .enumValue
  | method _ => .method

/-- The name of a definition; for a file, its package. -/
def name : Definition → String
  | file definition => definition.package
  | message definition => definition.name
  | enum definition => definition.name
  | service definition => definition.name
  | field definition => definition.name
  | enumValue definition => definition.name
  | method definition => definition.name

/-- Whether a definition can hold others: it is a file, a type or a service. -/
def isOuter : Definition → Bool
  | file _ | message _ | enum _ | service _ => true
  | field _ | enumValue _ | method _ => false

/-- The messages that a definition holds. -/
def messages : Definition → List MessageDefinition
  | file definition => definition.messages
  | message definition => definition.messages
  | _ => []

/-- The enumerations that a definition holds. -/
def enums : Definition → List EnumDefinition
  | file definition => definition.enums
  | message definition => definition.enums
  | _ => []

/-- The list of a number in a definition. -/
def listAt : Definition → Int → List Definition
  | file definition, number =>
    if number = 4 then definition.messages.map message
    else if number = 5 then definition.enums.map enum
    else if number = 6 then definition.services.map service else []
  | message definition, number =>
    if number = 2 then definition.fields.map field
    else if number = 3 then definition.messages.map message
    else if number = 4 then definition.enums.map enum else []
  | enum definition, number => if number = 2 then definition.values.map enumValue else []
  | service definition, number => if number = 2 then definition.methods.map method else []
  | _, _ => []

/-- The item at a position in the list of a number. -/
def item? (definition : Definition) (number position : Int) : Option Definition :=
  if position < 0 then none else (definition.listAt number)[position.toNat]?

/-- The definition that a path leads to from another one, before those that hold it. -/
def follow? (definition : Definition) (outer : List Definition) :
    List Int → Option (List Definition)
  | [] => some (definition :: outer)
  | [_] => none
  | number :: position :: path =>
    (definition.item? number position).bind fun inner => inner.follow? (definition :: outer) path

/-- The name of the first of definitions that stand in each other: the names from that of the
package on, joined with dots. Empty names in front are left out. -/
def fullName (route : List Definition) : String :=
  ".".intercalate ((route.reverse.map name).dropWhile (· = ""))

variable {root definition inner : Definition} {outer others route : List Definition}
  {path more : List Int} {number position : Int}

theorem item?_eq_some_iff : definition.item? number position = some inner ↔
    ∃ index : Nat, position = index ∧ (definition.listAt number)[index]? = some inner := by
  unfold item?
  constructor
  · intro found
    split at found
    · contradiction
    · next natural => exact ⟨position.toNat, by omega, found⟩
  · rintro ⟨index, rfl, found⟩
    rw [if_neg (by omega)]
    exact found

/-- Only what can hold other definitions has lists of them. -/
theorem isOuter_of_item? (found : definition.item? number position = some inner) :
    definition.isOuter = true := by
  obtain ⟨index, -, found⟩ := item?_eq_some_iff.mp found
  cases definition with
  | field => exact nomatch found
  | enumValue => exact nomatch found
  | method => exact nomatch found
  | _ => rfl

/-! ## Names -/

theorem fullName_cons (definition : Definition) (outer : List Definition) :
    fullName (definition :: outer) = Context.qualified (fullName outer) definition.name := by
  unfold fullName Context.qualified
  rw [List.reverse_cons, List.map_append, List.map_singleton, List.dropWhile_append]
  generalize given : (outer.reverse.map name).dropWhile (· = "") = names
  cases names with
  | nil =>
      rw [List.isEmpty_nil, if_pos rfl, String.intercalate_nil, if_pos rfl]
      by_cases empty : definition.name = "" <;> simp [empty]
  | cons first rest =>
      have unempty : first ≠ "" := by
        have stops := List.head?_dropWhile_not (· = "") (outer.reverse.map name)
        rw [given] at stops
        simpa using stops
      have told : ".".intercalate (first :: rest) ≠ "" := by
        cases rest with
        | nil => simpa using unempty
        | cons second rest => simp [String.intercalate_cons_cons, unempty]
      rw [List.isEmpty_cons, if_neg Bool.false_ne_true, if_neg told,
        String.intercalate_append_of_ne_nil (List.cons_ne_nil _ _) (List.cons_ne_nil _ _),
        String.intercalate_singleton]

/-! ## The way along a path -/

/-- A path leads from a definition to another one, through those that hold it. -/
inductive Leads (root : Definition) : List Int → List Definition → Prop
  | start : Leads root [] [root]
  /-- A step to an item of a list of what was reached. -/
  | step {path : List Int} {definition inner : Definition} {outer : List Definition}
      {number position : Int} (leads : Leads root path (definition :: outer))
      (found : definition.item? number position = some inner) :
      Leads root (path ++ [number, position]) (inner :: definition :: outer)

theorem follow?_append (goes : definition.follow? outer path = some (inner :: others)) :
    definition.follow? outer (path ++ more) = inner.follow? others more := by
  fun_induction follow? definition outer path with
  | case1 =>
      obtain ⟨rfl, rfl⟩ := List.cons.inj (Option.some.inj goes)
      rfl
  | case2 => contradiction
  | case3 definition outer number position path ih =>
      obtain ⟨next, found, goes⟩ := Option.bind_eq_some_iff.mp goes
      rw [List.cons_append, List.cons_append, follow?, found]
      exact ih next goes

theorem leads_of_follow? {before : List Int} (leads : root.Leads before (definition :: outer))
    (goes : definition.follow? outer path = some route) : root.Leads (before ++ path) route := by
  fun_induction follow? definition outer path generalizing before with
  | case1 =>
      rw [List.append_nil, ← Option.some.inj goes]
      exact leads
  | case2 => contradiction
  | case3 definition outer number position path ih =>
      obtain ⟨next, found, goes⟩ := Option.bind_eq_some_iff.mp goes
      have later := ih next (leads.step found) goes
      rwa [List.append_assoc] at later

theorem follow?_eq_some_iff : root.follow? [] path = some route ↔ root.Leads path route := by
  constructor
  · intro goes
    exact leads_of_follow? .start goes
  · intro leads
    induction leads with
    | start => rfl
    | step leads found ih =>
        rw [follow?_append ih, follow?, found]
        rfl

theorem Leads.unique (leads : root.Leads path route) (again : root.Leads path others) :
    route = others :=
  Option.some.inj ((follow?_eq_some_iff.mpr leads).symm.trans (follow?_eq_some_iff.mpr again))

end Definition

/-- The definition that a path leads to from a file, before those that hold it. -/
def FileDefinition.follow? (file : FileDefinition) (path : List Int) : Option (List Definition) :=
  (Definition.file file).follow? [] path

end ServiceDoc
