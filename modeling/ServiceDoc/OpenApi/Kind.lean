/-!
# Kinds of elements

An OpenAPI document is a tree of elements. Each kind of element has a table of fields in the order
in which they are written, and each field a shape that says what it can hold.
-/

namespace ServiceDoc

/-- A kind of element of an OpenAPI document. -/
inductive Kind where
  | reference
  /-- A link to documentation. -/
  | externalDocs
  | contact
  | license
  /-- What the document says about itself. -/
  | info
  | server
  | tag
  | schema
  /-- A body in one format. -/
  | mediaType
  | parameter
  | requestBody
  | response
  | operation
  /-- What all operations of a service share. -/
  | serviceExtension
  | pathItem
  /-- Parts that are referred to by name. -/
  | components
  | document
  deriving DecidableEq, Repr

/-- What a field can hold. -/
inductive FieldShape where
  | value
  /-- A truth value that is false unless set. -/
  | flag
  /-- A sequence of any values. -/
  | list
  /-- A mapping to any values. -/
  | map
  | one (kind : Kind)
  /-- A sequence of elements. -/
  | many (kind : Kind)
  /-- A mapping to elements. -/
  | table (kind : Kind)
  /-- A truth value or an element. -/
  | boolOrOne (kind : Kind)
  deriving DecidableEq, Repr

/-- A field of a kind of element. -/
structure Field where
  /-- The key under which the field is written. -/
  key : String
  /-- What the field holds. -/
  shape : FieldShape
  deriving DecidableEq, Repr

namespace Kind

/-- The name of a kind. -/
def name : Kind → String
  | reference => "Reference"
  | externalDocs => "ExternalDocs"
  | contact => "Contact"
  | license => "License"
  | info => "Info"
  | server => "Server"
  | tag => "Tag"
  | schema => "Schema"
  | mediaType => "MediaType"
  | parameter => "Parameter"
  | requestBody => "RequestBody"
  | response => "Response"
  | operation => "Operation"
  | serviceExtension => "ServiceExtension"
  | pathItem => "PathItem"
  | components => "Components"
  | document => "Document"

/-- All kinds. -/
def all : List Kind := [
  reference, externalDocs, contact, license, info, server, tag, schema, mediaType, parameter,
  requestBody, response, operation, serviceExtension, pathItem, components, document]

/-- The verbs of a path in the order in which they are written. -/
def verbs : List String := ["get", "put", "post", "delete", "options", "head", "patch", "trace"]

/-- The fields of a kind in the order in which they are written. -/
def fields : Kind → List Field
  | reference => [⟨"$ref", .value⟩, ⟨"summary", .value⟩, ⟨"description", .value⟩]
  | externalDocs => [⟨"description", .value⟩, ⟨"url", .value⟩]
  | contact => [⟨"name", .value⟩, ⟨"url", .value⟩, ⟨"email", .value⟩]
  | license => [⟨"name", .value⟩, ⟨"url", .value⟩]
  | info => [
      ⟨"title", .value⟩, ⟨"description", .value⟩, ⟨"termsOfService", .value⟩,
      ⟨"contact", .one .contact⟩, ⟨"license", .one .license⟩, ⟨"version", .value⟩]
  | server => [⟨"url", .value⟩, ⟨"description", .value⟩, ⟨"variables", .map⟩]
  | tag => [⟨"name", .value⟩, ⟨"description", .value⟩, ⟨"externalDocs", .one .externalDocs⟩]
  | schema => [
      ⟨"nullable", .flag⟩, ⟨"discriminator", .map⟩, ⟨"readOnly", .flag⟩, ⟨"writeOnly", .flag⟩,
      ⟨"externalDocs", .one .externalDocs⟩, ⟨"example", .value⟩, ⟨"deprecated", .flag⟩,
      ⟨"title", .value⟩, ⟨"multipleOf", .value⟩, ⟨"maximum", .value⟩, ⟨"exclusiveMaximum", .flag⟩,
      ⟨"minimum", .value⟩, ⟨"exclusiveMinimum", .flag⟩, ⟨"maxLength", .value⟩,
      ⟨"minLength", .value⟩, ⟨"pattern", .value⟩, ⟨"maxItems", .value⟩, ⟨"minItems", .value⟩,
      ⟨"uniqueItems", .flag⟩, ⟨"maxProperties", .value⟩, ⟨"minProperties", .value⟩,
      ⟨"required", .list⟩, ⟨"enum", .list⟩, ⟨"type", .value⟩, ⟨"allOf", .many .schema⟩,
      ⟨"oneOf", .many .schema⟩, ⟨"anyOf", .many .schema⟩, ⟨"not", .one .schema⟩,
      ⟨"items", .one .schema⟩, ⟨"properties", .table .schema⟩,
      ⟨"additionalProperties", .boolOrOne .schema⟩, ⟨"default", .value⟩, ⟨"description", .value⟩,
      ⟨"format", .value⟩]
  | mediaType => [
      ⟨"schema", .one .schema⟩, ⟨"example", .value⟩, ⟨"examples", .map⟩, ⟨"encoding", .map⟩]
  | parameter => [
      ⟨"name", .value⟩, ⟨"in", .value⟩, ⟨"description", .value⟩, ⟨"required", .flag⟩,
      ⟨"deprecated", .flag⟩, ⟨"allowEmptyValue", .flag⟩, ⟨"style", .value⟩, ⟨"explode", .flag⟩,
      ⟨"allowReserved", .flag⟩, ⟨"schema", .one .schema⟩, ⟨"example", .value⟩]
  | requestBody => [
      ⟨"description", .value⟩, ⟨"content", .table .mediaType⟩, ⟨"required", .flag⟩]
  | response => [
      ⟨"description", .value⟩, ⟨"headers", .map⟩, ⟨"content", .table .mediaType⟩, ⟨"links", .map⟩]
  | operation => [
      ⟨"tags", .list⟩, ⟨"summary", .value⟩, ⟨"description", .value⟩,
      ⟨"externalDocs", .one .externalDocs⟩, ⟨"operationId", .value⟩,
      ⟨"parameters", .many .parameter⟩, ⟨"requestBody", .one .requestBody⟩,
      ⟨"responses", .table .response⟩, ⟨"callbacks", .map⟩, ⟨"deprecated", .flag⟩,
      ⟨"security", .list⟩, ⟨"servers", .many .server⟩]
  | serviceExtension => [
      ⟨"tags", .list⟩, ⟨"externalDocs", .one .externalDocs⟩, ⟨"parameters", .many .parameter⟩,
      ⟨"security", .list⟩, ⟨"servers", .many .server⟩]
  | pathItem => [
      ⟨"summary", .value⟩, ⟨"description", .value⟩, ⟨"get", .one .operation⟩,
      ⟨"put", .one .operation⟩, ⟨"post", .one .operation⟩, ⟨"delete", .one .operation⟩,
      ⟨"options", .one .operation⟩, ⟨"head", .one .operation⟩, ⟨"patch", .one .operation⟩,
      ⟨"trace", .one .operation⟩, ⟨"servers", .many .server⟩, ⟨"parameters", .many .parameter⟩]
  | components => [
      ⟨"schemas", .table .schema⟩, ⟨"responses", .map⟩, ⟨"parameters", .map⟩, ⟨"examples", .map⟩,
      ⟨"requestBodies", .map⟩, ⟨"headers", .map⟩, ⟨"securitySchemes", .map⟩, ⟨"links", .map⟩,
      ⟨"callbacks", .map⟩]
  | document => [
      ⟨"openapi", .value⟩, ⟨"info", .one .info⟩, ⟨"servers", .many .server⟩,
      ⟨"paths", .table .pathItem⟩, ⟨"components", .one .components⟩, ⟨"security", .list⟩,
      ⟨"tags", .many .tag⟩, ⟨"externalDocs", .one .externalDocs⟩]

/-- The field of a key. -/
def field? (kind : Kind) (key : String) : Option Field :=
  kind.fields.find? fun field => field.key == key

/-- No kind has two fields of one key. -/
theorem fields_nodup (kind : Kind) : (kind.fields.map Field.key).Nodup := by
  cases kind <;> decide

/-- No field has the key of an extension. -/
theorem fields_not_extension (kind : Kind) :
    ∀ field ∈ kind.fields, field.key.toList.take 2 ≠ ['x', '-'] := by
  cases kind <;> decide

end Kind

end ServiceDoc
