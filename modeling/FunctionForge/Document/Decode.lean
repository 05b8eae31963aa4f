import FunctionForge.Document.Basic
import FunctionForge.Markup.Reading

/-!
# Reading API documents

Turns marked-up documents into API documents. Where a reference may stand in the place of something,
the place is read as a tree first: a mapping whose `$ref` is one text is a reference, whatever else
it holds, and everything else is read as the thing itself.
-/

namespace FunctionForge.Document

open Markup (Place Reading Record Tree)

/-! ### Schemas -/

/-- The reference that a tree writes. -/
def refOfTree? : Tree → Option String
  | .mapping entries => do
    let record ← (Tree.mapping entries).record? ["$ref"]
    record.required "$ref" Tree.text?
  | _ => none

/-- The types that a tree writes. -/
def TypeSet.ofTree? (tree : Tree) : Option TypeSet :=
  match tree.word? SchemaType.byName with
  | some type => some (.single type)
  | none => (tree.list? fun item => item.word? SchemaType.byName).map .several

/-- The discriminator that a tree writes. -/
def Discriminator.ofTree? (tree : Tree) : Option Discriminator := do
  let record ← tree.record? ["propertyName", "mapping"]
  return {
    propertyName := ← record.required "propertyName" Tree.text?
    mapping := ← record.defaulted "mapping" [] (Tree.fields? Tree.text?) }

/-- What a tree says of further properties, the schemas in it being read by `read`. -/
def AdditionalProperties.ofTree? (read : Tree → Option SchemaOrRef) (tree : Tree) :
    Option AdditionalProperties :=
  match tree.bool? with
  | some b => some (.allowed b)
  | none => (read tree).map .values

/-- The parts of a schema. -/
def Schema.parts : List String :=
  ["type", "format", "description", "default", "nullable", "properties", "required",
    "additionalProperties", "items", "allOf", "oneOf", "anyOf", "discriminator", "enum"]

/-- The schema that a tree writes, the schemas in it being read by `read`. -/
def Schema.ofTree? (read : Tree → Option SchemaOrRef) (tree : Tree) : Option Schema := do
  let record ← tree.record? Schema.parts
  return {
    types := ← record.optional "type" (Tree.optional? TypeSet.ofTree?)
    format := ← record.optional "format" (Tree.optional? Tree.text?)
    description := ← record.optional "description" (Tree.optional? Tree.text?)
    defaultValue := ← record.optional "default" (Tree.optional? Tree.value?)
    nullable := ← record.optional "nullable" (Tree.optional? Tree.bool?)
    properties := ← record.defaulted "properties" [] (Tree.fields? read)
    required := ← record.defaulted "required" [] (Tree.list? Tree.text?)
    additionalProperties := ←
      record.optional "additionalProperties" (Tree.optional? (AdditionalProperties.ofTree? read))
    items := ← record.optional "items" (Tree.optional? read)
    allOf := ← record.defaulted "allOf" [] (Tree.list? read)
    oneOf := ← record.defaulted "oneOf" [] (Tree.list? read)
    anyOf := ← record.defaulted "anyOf" [] (Tree.list? read)
    discriminator := ← record.optional "discriminator" (Tree.optional? Discriminator.ofTree?)
    enumeration := ← record.defaulted "enum" [] (Tree.list? Tree.value?) }

/-- What a tree of at most so many levels writes in the place of a schema. -/
def SchemaOrRef.within? : Nat → Tree → Option SchemaOrRef
  | 0, _ => none
  | depth + 1, tree =>
    match refOfTree? tree with
    | some path => some (.ref path)
    | none => (Schema.ofTree? (SchemaOrRef.within? depth) tree).map .inline

/-- What a tree writes in the place of a schema. -/
def SchemaOrRef.ofTree? (tree : Tree) : Option SchemaOrRef :=
  SchemaOrRef.within? tree.depth tree

/-! ### Parameters, bodies and responses -/

/-- What a tree writes where a reference may stand. -/
def Referable.ofTree? {α : Type} (read : Tree → Option α) (tree : Tree) : Option (Referable α) :=
  match refOfTree? tree with
  | some path => some (.ref path)
  | none => (read tree).map .inline

/-- The media type that a tree writes. -/
def MediaType.ofTree? (tree : Tree) : Option MediaType := do
  let record ← tree.record? ["schema"]
  return { schema := ← record.optional "schema" (Tree.optional? SchemaOrRef.ofTree?) }

/-- The parameter that a tree writes. -/
def Parameter.ofTree? (tree : Tree) : Option Parameter := do
  let record ← tree.record? ["name", "in", "description", "required", "schema"]
  return {
    name := ← record.required "name" Tree.text?
    location := ← record.required "in" (Tree.word? ParameterLocation.byName)
    description := ← record.optional "description" (Tree.optional? Tree.text?)
    required := ← record.defaulted "required" false Tree.bool?
    schema := ← record.optional "schema" (Tree.optional? SchemaOrRef.ofTree?) }

/-- The request body that a tree writes. -/
def RequestBody.ofTree? (tree : Tree) : Option RequestBody := do
  let record ← tree.record? ["description", "content", "required"]
  return {
    description := ← record.optional "description" (Tree.optional? Tree.text?)
    content := ← record.defaulted "content" [] (Tree.fields? MediaType.ofTree?)
    required := ← record.defaulted "required" false Tree.bool? }

/-- The response that a tree writes. -/
def Response.ofTree? (tree : Tree) : Option Response := do
  let record ← tree.record? ["description", "content"]
  return {
    description := ← record.defaulted "description" "" Tree.text?
    content := ← record.defaulted "content" [] (Tree.fields? MediaType.ofTree?) }

/-! ### Documents -/

namespace Decode

/-- A schema, or a reference to one. -/
def schemaOrRef (place : Place) : Reading SchemaOrRef :=
  place.decided SchemaOrRef.ofTree?

/-- A parameter, or a reference to one. -/
def parameter (place : Place) : Reading (Referable Parameter) :=
  place.decided (Referable.ofTree? Parameter.ofTree?)

/-- A request body, or a reference to one. -/
def requestBody (place : Place) : Reading (Referable RequestBody) :=
  place.decided (Referable.ofTree? RequestBody.ofTree?)

/-- A response, or a reference to one. -/
def response (place : Place) : Reading (Referable Response) :=
  place.decided (Referable.ofTree? Response.ofTree?)

/-- A media type outside of bodies and responses. -/
def mediaType (place : Place) : Reading MediaType := do
  let record ← place.record ["schema"]
  return { schema := ← record.optional "schema" (Place.optional schemaOrRef) }

/-- An operation. -/
def operation (place : Place) : Reading Operation := do
  let record ← place.record
    ["operationId", "summary", "description", "parameters", "requestBody", "responses"]
  return {
    operationId := ← record.optional "operationId" (Place.optional Place.text)
    summary := ← record.optional "summary" (Place.optional Place.text)
    description := ← record.optional "description" (Place.optional Place.text)
    parameters := ← record.defaulted "parameters" [] (Place.list parameter)
    requestBody := ← record.optional "requestBody" (Place.optional requestBody)
    responses := ← record.defaulted "responses" [] (Place.fields response) }

/-- What a key of a path holds. -/
def pathEntry (key : String) (place : Place) : Reading PathItem.Entry :=
  match HttpMethod.ofKey? key with
  | some method => .operation method <$> operation place
  | none =>
    if key = "summary" then .summary <$> place.optional Place.text
    else if key = "description" then .description <$> place.optional Place.text
    else if key = "parameters" then .parameters <$> place.list parameter
    else pure .other

/-- A path with its operations. -/
def pathItem (place : Place) : Reading PathItem := do
  let entries ← (← place.entries).mapM fun (key, value) => pathEntry key value
  Reading.ofOption (PathItem.ofEntries? entries)

/-- The components of a document. -/
def components (place : Place) : Reading Components := do
  let record ← place.record ["schemas", "responses", "parameters", "requestBodies"]
  return {
    schemas := ← record.defaulted "schemas" [] (Place.fields schemaOrRef)
    responses := ← record.defaulted "responses" [] (Place.fields response)
    parameters := ← record.defaulted "parameters" [] (Place.fields parameter)
    requestBodies := ← record.defaulted "requestBodies" [] (Place.fields requestBody) }

/-- What a document says of its API. -/
def info (place : Place) : Reading Info := do
  let record ← place.record ["title", "description", "version"]
  return {
    title := ← record.required "title" Place.text
    description := ← record.optional "description" (Place.optional Place.text)
    version := ← record.required "version" Place.text }

/-- A document. -/
def apiDocument (place : Place) : Reading ApiDocument := do
  let record ← place.record ["openapi", "info", "paths", "components"]
  return {
    openapi := ← record.required "openapi" Place.text
    info := ← record.required "info" info
    paths := ← record.optional "paths" (Place.optional (Place.fields pathItem))
    components := ← record.optional "components" (Place.optional components) }

end Decode

end FunctionForge.Document
