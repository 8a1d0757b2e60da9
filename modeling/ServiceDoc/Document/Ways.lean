import ServiceDoc.Document.Assemble

/-!
# Long ways

The query parameters of a binding follow ways through messages. A way through messages that hold
themselves can be long, and there is a limit to its length.
-/

namespace ServiceDoc

/-- The most steps of a way. -/
def mostSteps : Nat := 980

namespace Config

variable (config : Config) (registry : Registry)

/-- Whether a field is expanded along a way of more than some steps. -/
def isLong : (steps : Nat) → Depths → MessageField → Bool
  | 0, _, _ => true
  | steps + 1, depths, field =>
    match registry.messageOf? field with
    | none => false
    | some message =>
      !registry.isMap field && field.isMessage && !field.isRepeated &&
        !WellKnown.isQueryLeaf message.fullName &&
        message.fields.any fun inner =>
          depths.count inner.fullName < config.depth &&
            isLong steps (depths.enter inner.fullName) inner

/-- The query parameters of a field, unless one is at the end of a long way. -/
def limitedQuery (depths : Depths) (field : MessageField) : Build (List Parameter) :=
  if config.isLong registry mostSteps depths field then Build.fail .endless
  else config.queryParameters registry depths field

/-- Whether a binding has a long way. -/
def isLongBinding (binding : Binding) : Bool :=
  binding.rule.verb.isSupported && binding.rule.body != "*" &&
    match registry.message? binding.method.definition.input with
    | none => false
    | some input =>
      input.fullName != WellKnown.httpBody && input.fields.any (config.isLong registry mostSteps [])

/-- Whether a binding of some files has a long way. -/
def hasLongWay (files : List SourceFile) : Bool :=
  files.any fun file => file.services.any fun service =>
    config.admits service && (bindings [] service).any (config.isLongBinding registry)

end Config

end ServiceDoc
