import FunctionForge.Document.Basic
import FunctionForge.Endpoint.Basic
import FunctionForge.Model.Property
import FunctionForge.Union

/-!
# Content of bodies

The type of what is sent or given back. A content has to be in one media type, and that JSON. Its
schema has to be a reference, a primitive, or a list of either; the body of a request may also be a
union with a discriminator, given in place or by a reference.
-/

namespace FunctionForge.Endpoint

open Document (Discriminator MediaType Schema SchemaOrRef)

/-- The media type of JSON. -/
def jsonMediaType : String := "application/json"

/-- The schema of a content. An empty content has none. -/
def jsonSchema? : Fields MediaType → Except Cause (Option SchemaOrRef)
  | [] => .ok none
  | [(mediaType, media)] =>
    if Text.sameIgnoringCase mediaType jsonMediaType then .ok media.schema
    else .error (.foreignMediaType mediaType)
  | content => .error (.severalMediaTypes content.keys)

/-- The type of a schema in a content. -/
def elementOfSchema (known : KnownTypes) (schema : Schema) : Except Cause TypeRef :=
  if schema.isPrimitive then (ScalarType.ofSchema schema).map .plain
  else if schema.primaryType = some .array then
    match schema.items.bind (Model.elementType? known false) with
    | some item => .ok (.list item)
    | none => .error .shapelessBody
  else .error .shapelessBody

/-- The type of a schema or of a reference in a content. -/
def resolveElement (known : KnownTypes) : SchemaOrRef → Except Cause TypeRef
  | .ref path =>
    match known.resolve path with
    | .entity name => .ok (.entity name)
    | .alias body => elementOfSchema known body
  | .inline schema => elementOfSchema known schema

/-- The type of a content. -/
def resolveContentType (known : KnownTypes) (content : Fields MediaType) :
    Except Cause (Option TypeRef) := do
  match ← jsonSchema? content with
  | some schema => return some (← resolveElement known schema)
  | none => return none

/-! ### Bodies of requests -/

/-- The schema of a union, given in place or by a reference. -/
def unionSchema? (schemas : Fields SchemaOrRef) (schema : SchemaOrRef) : Option Schema :=
  let found :=
    match schema with
    | .ref path => (schemas.get? (Naming.refName path)).bind SchemaOrRef.schema?
    | .inline schema => some schema
  found.filter fun schema => !schema.oneOf.isEmpty

/-- The members of a union with the values that select them. Members that do nothing but require
properties are passed over. -/
def unionCases (known : KnownTypes) (discriminator : Discriminator) :
    List SchemaOrRef → Except Cause (List (String × String))
  | [] => .ok []
  | .ref path :: rest =>
    match known.resolve path with
    | .alias _ => .error (.bodyWithAlias path)
    | .entity candidate =>
      let value := Union.selectingValue discriminator.mapping (Naming.refName path)
      (unionCases known discriminator rest).map ((value, candidate) :: ·)
  | .inline schema :: rest =>
    if schema.isRequiredOnly then unionCases known discriminator rest
    else .error .bodyWithInline

/-- The summary of a union. -/
def resolveUnion (known : KnownTypes) (schema : Schema) : Except Cause BodySummary := do
  let some discriminator := schema.discriminator | throw .bodyWithoutDiscriminator
  let cases ← unionCases known discriminator schema.oneOf
  return .union (cases.map Prod.snd) (Fields.ofList cases) discriminator.propertyName

/-- The summary of a request's body. -/
def resolveBody (known : KnownTypes) (schemas : Fields SchemaOrRef)
    (content : Fields MediaType) : Except Cause (Option BodySummary) := do
  match ← jsonSchema? content with
  | none => return none
  | some schema =>
    match unionSchema? schemas schema with
    | some union => return some (← resolveUnion known union)
    | none => return some (.simple (← resolveElement known schema))

end FunctionForge.Endpoint
