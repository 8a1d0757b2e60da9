import ServiceDoc.Operation.Host
import ServiceDoc.Operation.Query
import ServiceDoc.Operation.Rule
import ServiceDoc.Operation.Template

/-!
# Operations

The operation of a binding: its parameters from the path and the query, the body of its request,
its responses and its server.
-/

namespace ServiceDoc

namespace Config

variable (config : Config) (registry : Registry)

/-- The schema of the part of a message that a body selects, if it has one. -/
def bodySchema (body : String) (message : Message) : Build (Option Element) :=
  if body = "*" then config.schemaOfMessage message
  else match message.field? body with
    | none => do
      Build.report (.missingBodyField body message.fullName)
      return none
    | some field =>
      if field.type = .string then return some Schema.string
      else match registry.messageOf? field with
        | some inner => config.schemaOfMessage inner
        | none => do
          Build.report (.unsupportedBodyField field.type.word field.fullName)
          return none

/-- The body of a request; without a selector there is none. -/
def requestBody (body : String) (message : Option Message) : Build (Option Element) := do
  if body = "" then return none
  match message with
  | none => Build.fail .noMessage
  | some message =>
    let schema ← config.bodySchema registry body message
    return some (((Element.empty .requestBody).setFlag "required" true).set "content"
      (.table (WellKnown.jsonContent schema)))

/-- A response of a description and content. -/
def response (description : String) (content : Entries Element) : Element :=
  ((Element.empty .response).setText "description" description).set "content" (.table content)

/-- The responses of an operation, to success and, if the configuration asks for it, to errors. -/
def responses (output : Option Message) : Build (Entries Element) := do
  let success ← match output with
    | none => do
      Build.report .unresolvedOutput
      pure ("200", response "OK" [])
    | some message => do
      let (code, content) ← config.responseContent message
      pure (code, response "OK" content)
  let entries : Entries Element := [(.string success.1, success.2)]
  if config.defaultResponse then do
    let anyName := config.schemaName anyIdentity
    let _ ← Build.addSchema anyName WellKnown.anySchema
    let statusName := config.schemaName statusIdentity
    let _ ← Build.addSchema statusName (WellKnown.statusSchema anyName)
    let failure := response "Default error response"
      (WellKnown.jsonContent (some (Schema.reference statusName)))
    return Entries.put entries (.string "default") failure
  else return entries

/-- The servers on a host: one, or none. -/
def servers (host : String) : Build (List Element) :=
  if host = "" then return []
  else match Host.serverUrl? host with
    | none => Build.fail (.malformedHost host)
    | some none => return []
    | some (some url) => return [(Element.empty .server).setText "url" url]

/-- The fields of an input message that the query can hold: those that neither the path nor the
body covers. -/
def queryFields (covered : List String) (message : Message) : List MessageField :=
  message.fields.filter fun field =>
    !covered.contains field.name && !covered.contains field.jsonName

/-- The parameters that the query holds. -/
def queryOf (body : String) (covered : List String) (message : Option Message) :
    Build (List Parameter) := do
  if body = "*" then return []
  match message with
  | none => Build.fail .noMessage
  | some message =>
    if message.fullName = WellKnown.httpBody then return []
    let parameters ← (queryFields covered message).mapM (config.queryParameters registry [])
    return parameters.flatten

/-- What of an operation is decided by more than its binding. -/
structure Heading where
  tag : String
  id : String
  description : String
  /-- The host that serves the operation. -/
  host : String

/-- The operation of a binding, and the path that it is found under. -/
def assemble (heading : Heading) (rule : Rule) (input output : Option Message) :
    Build (Element × String) := do
  let expanded ← config.expandPath registry rule.path input
  let covered := if rule.body = "" then expanded.covered else expanded.covered ++ [rule.body]
  let query ← config.queryOf registry rule.body covered input
  let responses ← config.responses output
  let servers ← servers heading.host
  let body ← config.requestBody registry rule.body input
  let parameters := (expanded.parameters ++ query).map Parameter.toElement
  let described := ((Element.empty .operation).set "tags" (.list [.string heading.tag])).setText
    "description" heading.description
  let named := described.setText "operationId" heading.id
  let taking := named.set "parameters" (.many parameters)
  let answering := (taking.set "responses" (.table responses)).set "servers" (.many servers)
  return (answering.setOne? "requestBody" body, expanded.path)

end Config

end ServiceDoc
