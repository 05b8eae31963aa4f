import FunctionForge.Document.Basic

/-!
# Traversing documents

Changes all schemas of a document: those of the components first, then those of the paths. Among
the components the order is schemas, parameters, request bodies, responses; on a path the shared
parameters come first, then the operations with their parameters, body and responses.
-/

namespace FunctionForge.Document

variable {m : Type → Type} [Monad m]

/-- Changes what is given in place. -/
def Referable.mapM {α : Type} (f : α → m α) : Referable α → m (Referable α)
  | .ref path => pure (.ref path)
  | .inline value => do return .inline (← f value)

/-- Changes the schemas of a content. -/
def mapContentM (f : SchemaOrRef → m SchemaOrRef) (content : Fields MediaType) :
    m (Fields MediaType) :=
  content.mapValuesM fun media =>
    match media.schema with
    | none => pure media
    | some schema => do return { media with schema := some (← f schema) }

/-- Changes the schema of a parameter. -/
def Parameter.mapSchemaM (f : SchemaOrRef → m SchemaOrRef) (parameter : Parameter) :
    m Parameter :=
  match parameter.schema with
  | none => pure parameter
  | some schema => do return { parameter with schema := some (← f schema) }

/-- Changes the schemas of a request body. -/
def RequestBody.mapSchemasM (f : SchemaOrRef → m SchemaOrRef) (body : RequestBody) :
    m RequestBody := do
  return { body with content := ← mapContentM f body.content }

/-- Changes the schemas of a response. -/
def Response.mapSchemasM (f : SchemaOrRef → m SchemaOrRef) (response : Response) :
    m Response := do
  return { response with content := ← mapContentM f response.content }

/-- Changes the schemas of an operation. -/
def Operation.mapSchemasM (f : SchemaOrRef → m SchemaOrRef) (operation : Operation) :
    m Operation := do
  let parameters ← operation.parameters.mapM (Referable.mapM (Parameter.mapSchemaM f))
  let requestBody ←
    match operation.requestBody with
    | none => pure none
    | some body => some <$> body.mapM (RequestBody.mapSchemasM f)
  let responses ← operation.responses.mapValuesM (Referable.mapM (Response.mapSchemasM f))
  return { operation with parameters, requestBody, responses }

/-- Changes the schemas of a path. -/
def PathItem.mapSchemasM (f : SchemaOrRef → m SchemaOrRef) (item : PathItem) : m PathItem := do
  let parameters ← item.parameters.mapM (Referable.mapM (Parameter.mapSchemaM f))
  let operations ← item.operations.mapM fun (method, operation) => do
    return (method, ← operation.mapSchemasM f)
  return { item with parameters, operations }

/-- Changes the schemas of the components. -/
def Components.mapSchemasM (f : SchemaOrRef → m SchemaOrRef) (components : Components) :
    m Components := do
  let schemas ← components.schemas.mapValuesM f
  let parameters ← components.parameters.mapValuesM (Referable.mapM (Parameter.mapSchemaM f))
  let requestBodies ←
    components.requestBodies.mapValuesM (Referable.mapM (RequestBody.mapSchemasM f))
  let responses ← components.responses.mapValuesM (Referable.mapM (Response.mapSchemasM f))
  return { schemas, responses, parameters, requestBodies }

/-- Changes the schemas of a document. -/
def ApiDocument.mapSchemasM (f : SchemaOrRef → m SchemaOrRef) (document : ApiDocument) :
    m ApiDocument := do
  let components ←
    match document.components with
    | none => pure none
    | some components => some <$> components.mapSchemasM f
  let paths ←
    match document.paths with
    | none => pure none
    | some paths => some <$> paths.mapValuesM (PathItem.mapSchemasM f)
  return { document with components, paths }

end FunctionForge.Document
