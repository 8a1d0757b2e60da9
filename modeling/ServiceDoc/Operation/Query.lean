import ServiceDoc.Operation.Parameter
import ServiceDoc.Schema.Reflect

/-!
# Query parameters

A field of an input message is one query parameter, or, if it holds a message, one for each field of
that message in turn, named by the way to it. On one way a field is expanded a limited number of
times, so that messages that hold themselves come to an end.
-/

namespace ServiceDoc

/-- How often the fields on a way are being expanded; a field that starts below zero can be expanded
so much more often. -/
abbrev Depths := List (String × Int)

namespace Depths

/-- How often a field is being expanded. -/
def count (depths : Depths) (field : String) : Int := (depths.lookup field).getD 0

/-- Expand a field once more. -/
def enter (depths : Depths) (field : String) : Depths := (field, depths.count field + 1) :: depths

/-- How far below zero the counts start. -/
def slack (depths : Depths) : Nat := depths.foldl (fun most entry => max most (-entry.2).toNat) 0

/-- Entering a field counts it. -/
theorem count_enter_self (depths : Depths) (field : String) :
    (depths.enter field).count field = depths.count field + 1 := by
  simp [enter, count]

/-- Entering a field counts no other. -/
theorem count_enter_of_ne (depths : Depths) {field other : String} (differ : other ≠ field) :
    (depths.enter field).count other = depths.count other := by
  simp [enter, count, List.lookup_cons, beq_eq_false_iff_ne.mpr differ]

end Depths

namespace Config

variable (config : Config) (registry : Registry)

/-- The parameter of a field that is not expanded. -/
def leafParameter (field : MessageField) : Build Parameter := do
  let (description, preset) := Parameter.summary (← Build.comment field.description)
  let schema ← config.schemaOfField registry field
  return { name := config.fieldName field, place := .query, description, required := false
           schema, preset }

/-- A parameter of an inner field, named by the way from an outer field and described by that field
if it has no description of its own. -/
def within (outer description : String) (parameter : Parameter) : Parameter :=
  { parameter with
    name := outer ++ "." ++ parameter.name
    description := if parameter.description = "" then description else parameter.description }

/-- The query parameters of a field. The fuel bounds the length of a way. -/
def expandField : (fuel : Nat) → Depths → MessageField → Build (List Parameter)
  | 0, _, _ => return []
  | fuel + 1, depths, field => do
    if registry.isMap field then return []
    if !field.isMessage then return [← config.leafParameter registry field]
    match registry.messageOf? field with
    | none => do
      Build.report (.unresolvedParameter field.definition.typeName field.fullName)
      return []
    | some message =>
      if field.isRepeated then do
        Build.report (.repeatedParameter field.fullName)
        return []
      else if WellKnown.isQueryLeaf message.fullName then
        return [← config.leafParameter registry field]
      else do
        let (description, _) := Parameter.summary (← Build.comment field.description)
        let expanded ← message.fields.mapM fun inner => do
          if config.depth ≤ depths.count inner.fullName then return []
          let parameters ← expandField fuel (depths.enter inner.fullName) inner
          return parameters.map (within (config.fieldName field) description)
        return expanded.flatten

/-- The number of fields that messages of a registry have. -/
def fieldCount : Nat :=
  registry.messages.foldr (fun message total => message.2.fields.length + total) 0

/-- The query parameters of a field, when some fields are being expanded already. Every step on a
way expands some field once more, so no way is longer than the product of fields and of the times
that one of them can be expanded. -/
def queryParameters (depths : Depths) (field : MessageField) : Build (List Parameter) :=
  config.expandField registry ((config.depth + depths.slack) * fieldCount registry + 1) depths field

end Config

end ServiceDoc
