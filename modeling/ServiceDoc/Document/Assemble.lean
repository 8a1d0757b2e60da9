import ServiceDoc.Document.Order
import ServiceDoc.Document.Servers
import ServiceDoc.Document.Title
import ServiceDoc.OpenApi.Depth
import ServiceDoc.Operation.Assemble
import ServiceDoc.Operation.Share

/-!
# Assembling a document

A document is built from the services of some files. First come the operations of all bindings,
which refer to component schemas by name; then the schemas of all messages whose names are referred
to, until no new name turns up; last, title, servers and order are settled.

What files, services and methods say in annotations may go only so deep; the annotations of schemas
are loaded at any depth.
-/

namespace ServiceDoc

/-- The document that a build starts from: what the configuration says about the document, and a
base document laid over it. -/
def initialDocument (config : Config) (base : Option Element) : Element :=
  let info := (((Element.empty .info).setText "title" config.title).setText "version"
    config.version).setText "description" config.description
  let document := Element.create .document [("info", .one info)] []
  match base with
  | some base => document.mergeAt [1] base
  | none => document

/-- A schema with loaded data laid over it; a reference replaces it. -/
def overlaySchema (schema loaded : Element) : Element :=
  if loaded.kind = .reference then loaded else schema.merge loaded

/-- Lay the annotation of a definition over its schema. -/
def annotateSchema (place : String) (entries : Option (Entries Value)) (schema : Element) :
    Build Element :=
  match entries with
  | none => return schema
  | some entries => do
    let loaded ← Build.annotated place (Element.load .schema entries)
    return overlaySchema schema loaded

/-- Say about a property what its field says: its description, unless the schema has its own, who
holds it, and whether it should no longer be used. -/
def describeProperty (field : MessageField) (description : String) (schema : Element) : Element :=
  let described :=
    if Title.isSet schema "description" then schema else Schema.described schema description
  let held := (described.setFlag "readOnly" field.isOutputOnly).setFlag "writeOnly"
    field.isInputOnly
  if field.definition.deprecated then held.setFlag "deprecated" true else held

/-- The schema of a property. A reference that has to say more is wrapped, since it can not carry
other keys. -/
def propertySchema (field : MessageField) (schema : Element) : Build Element := do
  let entries ← Build.comment (field.comment.payload? .property)
  let description ← Build.comment field.description
  let saysMore := field.isOutputOnly || field.isInputOnly || description != "" ||
    field.definition.deprecated || entries.any fun entries => !entries.isEmpty
  if schema.kind = .reference then
    if saysMore then
      let wrapped := (Element.empty .schema).set "allOf" (.many [schema])
      annotateSchema field.fullName entries (describeProperty field description wrapped)
    else return schema
  else annotateSchema field.fullName entries (describeProperty field description schema)

/-- The properties of a message so far. -/
structure Properties where
  schemas : Entries Element := []
  /-- The names of those that must be set. -/
  required : List Value := []

namespace Config

variable (config : Config) (registry : Registry)

/-- Add the property of a field, if the field has a schema. -/
def addProperty (properties : Properties) (field : MessageField) : Build Properties := do
  match ← config.schemaOfField registry field with
  | none => return properties
  | some schema =>
    let name := config.fieldName field
    let property ← propertySchema field schema
    return {
      schemas := properties.schemas.put (.string name) property
      required :=
        if field.isRequired then properties.required ++ [.string name] else properties.required }

/-- The component schema of an ordinary message. -/
def messageSchema (message : Message) : Build Element := do
  let properties ← message.fields.foldlM (config.addProperty registry) {}
  let description ← Build.comment message.description
  let schema := ((Schema.described (Schema.ofType "object") description).set "properties"
    (.table properties.schemas)).set "required" (.list properties.required)
  let entries ← Build.comment (message.comment.payload? .schema)
  annotateSchema message.fullName entries schema

/-- Add the component schema of a message if its name is referred to and not done. An error brings
the schema of any message with it. -/
def addMessageSchema (message : Message) : Build Unit := do
  let name := config.messageName message
  if (← get).isPending name then
    if message.fullName = WellKnown.valueMessage then
      discard (Build.addSchema name WellKnown.valueSchema)
    else if message.fullName = WellKnown.anyMessage then
      discard (Build.addSchema name WellKnown.anySchema)
    else if message.fullName = WellKnown.statusMessage then
      let anyName := config.schemaName anyIdentity
      discard (Build.addSchema anyName WellKnown.anySchema)
      discard (Build.addSchema name (WellKnown.statusSchema anyName))
    else
      let schema ← config.messageSchema registry message
      discard (Build.addSchema name schema)

/-- Go once through the messages of all files. -/
def resolvePass : Build Unit :=
  registry.files.forM fun file => file.messages.forM (config.addMessageSchema registry)

/-- Go through all messages until no new name is referred to. -/
def resolveLoop : (fuel : Nat) → Build Unit
  | 0 => return
  | fuel + 1 => do
    let before := (← get).required.length
    config.resolvePass registry
    if (← get).required.length ≠ before then resolveLoop fuel

/-- Add the component schemas of all messages that are referred to. Every pass but the last adds the
name of another message, so the number of messages bounds that of passes. -/
def resolveSchemas : Build Unit := config.resolveLoop registry (registry.messages.length + 2)

/-- Put an operation under its path and verb, where a later one replaces an earlier one. -/
def addOperation (path : String) (verb : Verb) (operation : Element) : Build Unit := do
  let document := (← get).document
  let paths := document.table "paths"
  let item := (paths.get? (.string path)).getD (.empty .pathItem)
  if !verb.isSupported then
    Build.modifyDocument fun _ => document.set "paths" (.table (paths.put (.string path) item))
    Build.fail (.unsupportedVerb verb.word)
  if (item.one? verb.word).isSome then Build.report (.replacedOperation verb.word path)
  Build.modifyDocument fun _ => document.set "paths"
    (.table (paths.put (.string path) (item.set verb.word (.one operation))))

/-- A method of a service and where both stand. -/
structure Binding where
  /-- The position of the file, of the service in it, of the method in that, and of the rule. -/
  way : List Nat
  service : Service
  method : Method
  /-- The binding of the method. -/
  rule : Rule

/-- The name of the bound method in messages. -/
def Binding.place (binding : Binding) : String :=
  binding.service.fullName ++ "." ++ binding.method.definition.name

/-- The operation of a binding with what its service and its own annotation add, and its path. -/
def boundOperation (binding : Binding) (shared : Option Element) (input : Message) :
    Build (Element × String) := do
  let method := binding.method
  let description ← Build.comment method.comment.description
  let heading : Heading := {
    tag := binding.service.name
    id := binding.service.name ++ "_" ++ method.definition.name
    description
    host := binding.service.defaultHost }
  let output := registry.message? method.definition.output
  let (operation, path) ← config.assemble registry heading binding.rule (some input) output
  let extended := match shared with
    | some shared => Operation.share (binding.way ++ [0]) shared operation
    | none => operation
  let annotated ← match ← Build.comment (method.comment.payload? .operation) with
    | none => pure extended
    | some entries => do
      let marked := Value.markedEntries (0 :: binding.way.dropLast) 0 entries
      let loaded ← Build.annotated binding.place (Element.load .operation marked).limited
      pure (extended.mergeAt (binding.way ++ [1]) loaded)
  match Operation.separateTags (Operation.completeHeaders annotated) with
  | (finished, none) => return (finished, path)
  | (_, some failure) => Build.fail failure

/-- Add the operation of a binding, and say whether there is one. -/
def addBinding (shared : Option Element) (binding : Binding) : Build Bool := do
  if !binding.rule.verb.isSupported then
    Build.report (.unsupportedVerb binding.rule.verb.word binding.place)
    return false
  match registry.message? binding.method.definition.input with
  | none =>
    Build.report (.unresolvedInput binding.place binding.method.definition.input)
    return false
  | some input =>
    let (operation, path) ← config.boundOperation registry binding shared input
    addOperation (config.pathPrefix ++ path) binding.rule.verb operation
    return true

/-- The bindings of a service at a way. -/
def bindings (way : List Nat) (service : Service) : List Binding :=
  service.methods.zipIdx.flatMap fun (method, position) =>
    method.definition.rules.zipIdx.map fun (rule, index) =>
      { way := way ++ [position + 1, index], service, method, rule := .ofDefinition rule }

/-- What the annotation of a service says about its operations. -/
def sharedData (way : List Nat) (service : Service) : Build (Option Element) := do
  match ← Build.comment (service.comment.payload? .service) with
  | none => return none
  | some entries =>
    let marked := Value.markedEntries (0 :: (way ++ [0])) 0 entries
    let loaded ← Build.annotated service.fullName (Element.load .serviceExtension marked).limited
    return some loaded

/-- The tag of a service. -/
def serviceTag (service : Service) (description : String) : Element :=
  ((Element.empty .tag).setText "name" service.name).setText "description" description

/-- Add the operations of a service, and its tag if there are any. -/
def addService (way : List Nat) (service : Service) : Build Unit := do
  let shared ← sharedData way service
  let added ← (bindings way service).mapM (config.addBinding registry shared)
  if added.contains true then
    let description ← Build.comment service.comment.description
    Build.modifyDocument fun document =>
      document.set "tags" (.many (document.many "tags" ++ [serviceTag service description]))

/-- Whether a service is to be described. -/
def admits (service : Service) : Bool :=
  config.services.isEmpty || config.services.contains service.fullName

/-- Add what a file says about the document, and the operations of its services. -/
def addFile (file : SourceFile) : Build Unit := do
  match file.payload? .document with
  | .error error => Build.fail (.ofFileComment error)
  | .ok none => pure ()
  | .ok (some entries) =>
    if !entries.isEmpty then
      let loaded ← Build.annotated file.name (Element.load .document entries).limited
      Build.modifyDocument fun document => document.merge loaded
  file.services.zipIdx.forM fun (service, position) => do
    if config.admits service then config.addService registry [file.position, position] service
    else Build.report (.filteredService service.fullName)

/-- Build the document of some files. -/
def buildSteps (files : List SourceFile) : Build Unit := do
  files.forM (config.addFile registry)
  config.resolveSchemas registry
  Build.changeDocument Title.promote
  Build.changeDocument Servers.hoistChecked
  Order.sort

/-- The document of some files, or why there is none, and the notices on the way. -/
def buildDocument (files : List SourceFile) (base : Option Element) : Reported Failure Element :=
  match (config.buildSteps registry files).run { document := initialDocument config base } with
  | .ok () work => ⟨.ok work.document, work.notices⟩
  | .error failure work => ⟨.error failure, work.notices⟩

end Config

end ServiceDoc
