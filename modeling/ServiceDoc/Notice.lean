import ServiceDoc.OpenApi.Kind
import ServiceDoc.Value.Shown

/-!
# Notices

What a run reports beside its result: what it skipped or replaced, and why it stopped. Computations
that only read keep their notices beside their outcome, whether they succeed or not.
-/

namespace ServiceDoc

/-- How much a notice matters. -/
inductive Level where
  | debug
  | info
  /-- Something was left out or replaced. -/
  | warning
  | error
  deriving DecidableEq, Repr

/-- The word for a level. -/
def Level.word : Level → String
  | debug => "DEBUG"
  | info => "INFO"
  | warning => "WARNING"
  | error => "ERROR"

/-- The levels that a run can be asked for, by the words for them. -/
def Level.choices : List (String × Level) :=
  [("debug", debug), ("info", info), ("warn", warning), ("error", error)]

/-- The number of a level; notices below a threshold are not shown. -/
def Level.number : Level → Nat
  | debug => 10
  | info => 20
  | warning => 30
  | error => 40

/-- Something worth reporting. -/
inductive Notice where
  /-- An element has a key that its kind does not know. -/
  | unknownKey (kind : Kind) (key : Scalar)
  /-- A service is not among those to describe. -/
  | filteredService (service : String)
  /-- A binding has a verb that no operation can have. -/
  | unsupportedVerb (verb method : String)
  /-- The input type of a method is not defined. -/
  | unresolvedInput (method type : String)
  /-- A later binding replaced the operation of a verb and path. -/
  | replacedOperation (verb path : String)
  /-- The output type of a method is not defined. -/
  | unresolvedOutput
  /-- The message type of a field is not defined, met while making its schema. -/
  | unresolvedMessage (type field : String)
  /-- The enumeration of a field is not defined. -/
  | unresolvedEnum (type field : String)
  /-- A field has a type without a schema. -/
  | unsupportedField (kind field : String)
  /-- The message type of a field is not defined, met while expanding it. -/
  | unresolvedParameter (type field : String)
  /-- A repeated message can not be expanded into parameters. -/
  | repeatedParameter (field : String)
  /-- The field that a body selects does not exist. -/
  | missingBodyField (field message : String)
  /-- The field that a body selects has a type without a body. -/
  | unsupportedBodyField (kind field : String)
  | started (files : List String)
  | generationFailed (message : List Nat)
  | commandFailed (message : String)
  /-- The command was given bytes that are no request. -/
  | malformedRequest
  deriving DecidableEq, Repr

namespace Notice

/-- How much a notice matters. -/
def level : Notice → Level
  | filteredService _ | repeatedParameter _ | started _ => .debug
  | generationFailed _ | commandFailed _ | malformedRequest => .error
  | _ => .warning

/-- The code points of the wording of a notice. -/
def message : Notice → List Nat
  | unknownKey kind key =>
    Text.codes ("Skipping unknown " ++ kind.name ++ " key: ") ++ key.plain
  | filteredService service => Text.codes ("Skipping filtered service " ++ service)
  | unsupportedVerb verb method =>
    Text.codes ("Skipping unsupported " ++ verb ++ " HTTP rule of " ++ method)
  | unresolvedInput method type =>
    Text.codes ("Skipping " ++ method ++ ", unresolved input type " ++ type)
  | replacedOperation verb path =>
    Text.codes ("Replacing " ++ String.ofList (verb.toList.map Char.toUpper) ++ " operation of " ++
      path)
  | unresolvedOutput => Text.codes "Unresolved response type, the response has no content"
  | unresolvedMessage type field =>
    Text.codes ("Unresolved message type " ++ type ++ " of " ++ field)
  | unresolvedEnum type field => Text.codes ("Unresolved enum type " ++ type ++ " of " ++ field)
  | unsupportedField kind field =>
    Text.codes ("Unsupported field type " ++ kind ++ " of " ++ field)
  | unresolvedParameter type field =>
    Text.codes ("Unresolved message type " ++ type ++ " of " ++ field)
  | repeatedParameter field =>
    Text.codes ("Skipping repeated message query parameter " ++ field)
  | missingBodyField field message =>
    Text.codes ("Body field " ++ field ++ " not found in " ++ message)
  | unsupportedBodyField kind field =>
    Text.codes ("Unsupported body field type " ++ kind ++ " of " ++ field)
  | started files => Text.codes ("Generating OpenAPI for " ++ Text.join ", " files)
  | generationFailed message => message
  | commandFailed message => Text.codes message
  | malformedRequest => Text.codes "The request is malformed"

/-- The part of the program that gives a notice. -/
def source : Notice → String
  | unknownKey _ _ => "protoc_gen_openapi.openapi.model"
  | filteredService _ | unsupportedVerb _ _ | unresolvedInput _ _ | replacedOperation _ _ =>
    "protoc_gen_openapi.openapi.document"
  | unresolvedOutput => "protoc_gen_openapi.openapi.operation"
  | unresolvedMessage _ _ | unresolvedEnum _ _ | unsupportedField _ _ =>
    "protoc_gen_openapi.openapi.reflector"
  | unresolvedParameter _ _ | repeatedParameter _ | missingBodyField _ _ |
    unsupportedBodyField _ _ => "protoc_gen_openapi.openapi.paths"
  | generationFailed _ => "protoc_gen_openapi.api_proto_plugin.plugin"
  | started _ | commandFailed _ | malformedRequest => "protoc_gen_openapi"

/-- The line that shows a notice: its source, its level and its wording. -/
def line (notice : Notice) : String :=
  notice.source ++ " " ++ notice.level.word ++ " " ++ Text.spelled notice.message

end Notice

/-- An outcome and the notices given on the way to it. -/
structure Reported (ε α : Type) where
  outcome : Except ε α
  notices : List Notice

namespace Reported

variable {ε α β : Type}

/-- An outcome without notices. -/
def ofExcept (outcome : Except ε α) : Reported ε α := ⟨outcome, []⟩

/-- Stop. -/
def fail (error : ε) : Reported ε α := ⟨.error error, []⟩

/-- Give a notice. -/
def report (notice : Notice) : Reported ε Unit := ⟨.ok (), [notice]⟩

/-- Go on after a success; the notices of both parts are kept. -/
def andThen (first : Reported ε α) (next : α → Reported ε β) : Reported ε β :=
  match first.outcome with
  | .error error => ⟨.error error, first.notices⟩
  | .ok value => ⟨(next value).outcome, first.notices ++ (next value).notices⟩

instance : Monad (Reported ε) where
  pure value := ⟨.ok value, []⟩
  bind := andThen

@[simp] theorem outcome_pure (value : α) : (pure value : Reported ε α).outcome = .ok value := rfl

@[simp] theorem outcome_fail (error : ε) :
    (fail error : Reported ε α).outcome = .error error := rfl

@[simp] theorem outcome_report (notice : Notice) :
    (report notice : Reported ε Unit).outcome = .ok () := rfl

/-- The outcome of a sequence does not depend on the notices. -/
@[simp] theorem outcome_bind (first : Reported ε α) (next : α → Reported ε β) :
    (first >>= next).outcome = first.outcome >>= fun value => (next value).outcome := by
  change (andThen first next).outcome = _
  unfold andThen
  cases first.outcome <;> rfl

end Reported

end ServiceDoc
