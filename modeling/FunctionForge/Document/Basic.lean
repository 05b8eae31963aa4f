import FunctionForge.Document.HttpMethod
import FunctionForge.Document.Schema
import FunctionForge.Fields

/-!
# API documents

The description of an API: what it is called, the operations on its paths, and the components that
they share. Parameters, request bodies and responses are given in place or by a reference to a
component.
-/

namespace FunctionForge.Document

/-- Something given in place or by a reference. -/
inductive Referable (α : Type) where
  | ref (path : String)
  | inline (value : α)

/-- What is given in place. -/
def Referable.inline? {α : Type} : Referable α → Option α
  | .ref _ => none
  | .inline value => some value

/-- The content of a body in one media type. -/
structure MediaType where
  schema : Option SchemaOrRef

/-- Where a parameter is passed. -/
inductive ParameterLocation where
  | query
  | header
  | path
  | cookie
  deriving Repr, DecidableEq

/-- The locations with their names. -/
def ParameterLocation.byName : List (String × ParameterLocation) :=
  [("query", .query), ("header", .header), ("path", .path), ("cookie", .cookie)]

/-- The name of a location. -/
def ParameterLocation.text : ParameterLocation → String
  | .query => "query"
  | .header => "header"
  | .path => "path"
  | .cookie => "cookie"

/-- A parameter of an operation. -/
structure Parameter where
  name : String
  location : ParameterLocation
  description : Option String
  required : Bool
  schema : Option SchemaOrRef

/-- The body of a request. -/
structure RequestBody where
  description : Option String
  content : Fields MediaType
  required : Bool

/-- A response. -/
structure Response where
  description : String
  content : Fields MediaType

/-- An operation. -/
structure Operation where
  operationId : Option String
  summary : Option String
  description : Option String
  parameters : List (Referable Parameter)
  requestBody : Option (Referable RequestBody)
  /-- The responses by their status. -/
  responses : Fields (Referable Response)

/-- A path with its operations, in the order in which they are declared. -/
structure PathItem where
  summary : Option String
  description : Option String
  /-- The parameters of all operations of the path. -/
  parameters : List (Referable Parameter)
  operations : List (HttpMethod × Operation)

/-- The parts of a document that others refer to. -/
structure Components where
  schemas : Fields SchemaOrRef
  responses : Fields (Referable Response)
  parameters : Fields (Referable Parameter)
  requestBodies : Fields (Referable RequestBody)

/-- No components. -/
def Components.none : Components := ⟨[], [], [], []⟩

/-- What a document says of its API. -/
structure Info where
  title : String
  description : Option String
  version : String

/-- The description of an API. -/
structure ApiDocument where
  openapi : String
  info : Info
  /-- The paths; none if the document has no such section, which is not the same as an empty one. -/
  paths : Option (Fields PathItem)
  components : Option Components

/-- The schemas of a document that others refer to. -/
def ApiDocument.schemas (document : ApiDocument) : Fields SchemaOrRef :=
  (document.components.map Components.schemas).getD []

/-! ### Path items -/

namespace PathItem

/-- A path of which nothing is declared. -/
def blank : PathItem := ⟨none, none, [], []⟩

/-- What a key of a path holds. -/
inductive Entry where
  | operation (method : HttpMethod) (operation : Operation)
  | summary (text : Option String)
  | description (text : Option String)
  | parameters (parameters : List (Referable Parameter))
  | other

/-- The operation of a method. -/
def operation? (item : PathItem) (method : HttpMethod) : Option Operation :=
  item.operations.lookup method

/-- Adds what one more key holds. An operation cannot be given twice; of the other parts the last
one counts. -/
def add? (item : PathItem) : Entry → Option PathItem
  | .operation method operation =>
    if (item.operation? method).isSome then none
    else some { item with operations := item.operations ++ [(method, operation)] }
  | .summary text => some { item with summary := text }
  | .description text => some { item with description := text }
  | .parameters parameters => some { item with parameters }
  | .other => some item

/-- The path whose keys hold these entries. -/
def ofEntries? (entries : List Entry) : Option PathItem :=
  entries.foldlM add? blank

end PathItem

end FunctionForge.Document
