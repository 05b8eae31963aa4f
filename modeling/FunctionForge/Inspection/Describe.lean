import FunctionForge.Endpoint.Basic
import FunctionForge.Model.Basic
import FunctionForge.Value

/-!
# Descriptions

Models and endpoints as values. A thing that is one of several kinds has its kind as the first
member; the others come in the order of its parts.
-/

namespace FunctionForge.Inspection

open Endpoint (BodySummary PathParameter ResponseInfo ResponseSummary)
open Model (Capability Entity EnumConstant EnumTable InterfaceModel ObjectModel Property)

/-- Something that may be absent. -/
def optional {α : Type} (describe : α → Value) : Option α → Value
  | some a => describe a
  | none => .null

/-- A list of texts. -/
def texts (items : List String) : Value :=
  .array (items.map .string)

/-- A map from texts to texts. -/
def textFields (fields : Fields String) : Value :=
  .object (fields.mapValues .string)

/-- A status code or a list of such. -/
def code (n : Nat) : Value :=
  .integer n

/-- An object with a kind. -/
def ofKind (kind : String) (members : List (String × Value)) : Value :=
  .object (("kind", .string kind) :: members)

/-! ### Types -/

/-- The name of a scalar type in a description. -/
def scalarText : ScalarType → String
  | .guid => "Guid"
  | .dateTime => "DateTime"
  | .long => "Long"
  | .ulong => "ULong"
  | .uint => "UInt"
  | .int => "Int"
  | .double => "Double"
  | .bool => "Bool"
  | .string => "String"

/-- A type. -/
def typeRef : TypeRef → Value
  | .scalar type nullable =>
    ofKind "scalar"
      [("of", .object [("scalar", .string (scalarText type)), ("nullable", .bool nullable)])]
  | .entity name => ofKind "entity" [("of", .string name)]
  | .list item => ofKind "list" [("of", typeRef item)]
  | .map value => ofKind "map" [("of", typeRef value)]

/-- What a property starts with. -/
def defaultValue : DefaultValue → Value
  | .literal text => ofKind "literal" [("value", .string text)]
  | .null => ofKind "null" []
  | .newInstance => ofKind "new_instance" []
  | .emptyList => ofKind "empty_list" []
  | .emptyMap => ofKind "empty_map" []

/-! ### Models -/

/-- A named constant. -/
def enumConstant (constant : EnumConstant) : Value :=
  .object [("name", .string constant.name), ("literal", .string constant.literal)]

/-- The named constants of a property. -/
def enumTable (table : EnumTable) : Value :=
  .object
    [ ("constants", .array (table.constants.map enumConstant)),
      ("allowed_values_name", .string table.allowedValuesName) ]

/-- A property. -/
def property (property : Property) : Value :=
  .object
    [ ("name", .string property.name),
      ("type_ref", typeRef property.typeRef),
      ("is_list", .bool property.isList),
      ("is_required", .bool property.isRequired),
      ("nullable", .bool property.nullable),
      ("is_date", .bool property.isDate),
      ("is_basic_type", .bool property.isBasicType),
      ("default", optional defaultValue property.defaultValue),
      ("enum_table", optional enumTable property.enumTable),
      ("description", optional .string property.description) ]

/-- The name of a capability. -/
def capabilityText : Capability → String
  | .collections => "collections"
  | .immutable => "immutable"
  | .dateConverter => "date_converter"

/-- A class. -/
def objectModel (model : ObjectModel) : Value :=
  ofKind "object"
    [ ("raw_name", .string model.rawName),
      ("name", .string model.name),
      ("description", optional .string model.description),
      ("properties", .array (model.properties.map property)),
      ("parent", optional .string model.parent),
      ("interfaces", texts model.interfaces),
      ("capabilities", texts (model.capabilities.map capabilityText)) ]

/-- An interface. -/
def interfaceModel (model : InterfaceModel) : Value :=
  ofKind "interface"
    [ ("raw_name", .string model.rawName),
      ("name", .string model.name),
      ("description", optional .string model.description),
      ("children", texts model.children),
      ("discriminator", .string model.discriminator),
      ("mapping", textFields model.mapping) ]

/-- A model. -/
def entity : Entity → Value
  | .object model => objectModel model
  | .interface model => interfaceModel model

/-! ### Endpoints -/

/-- A parameter in the path. -/
def pathParameter (parameter : PathParameter) : Value :=
  .object
    [ ("name", .string parameter.name),
      ("type_ref", typeRef parameter.typeRef),
      ("description", optional .string parameter.description) ]

/-- A response. -/
def responseInfo (response : ResponseInfo) : Value :=
  .object
    [ ("code", code response.code),
      ("description", .string response.description),
      ("content", optional typeRef response.content) ]

/-- What an operation gives back. -/
def responseSummary : ResponseSummary → Value
  | .untyped => ofKind "untyped" []
  | .single content status =>
    ofKind "single" [("content", optional typeRef content), ("code", code status)]
  | .multiCode content codes wrapper =>
    ofKind "multi_code"
      [ ("content", optional typeRef content),
        ("codes", .array (codes.map code)),
        ("wrapper", optional .string wrapper) ]

/-- The body of a request. -/
def bodySummary : BodySummary → Value
  | .simple type => ofKind "simple" [("type_ref", typeRef type)]
  | .union candidates mapping discriminator =>
    ofKind "discriminated_union"
      [ ("candidates", texts candidates),
        ("mapping", textFields mapping),
        ("discriminator", .string discriminator) ]

/-- An endpoint. -/
def endpoint (endpoint : Endpoint) : Value :=
  .object
    [ ("operation_id", .string endpoint.operationId),
      ("name", .string endpoint.name),
      ("method", .string endpoint.method.text),
      ("path", .string endpoint.path),
      ("documentation", texts endpoint.documentation),
      ("parameters", .array (endpoint.parameters.map pathParameter)),
      ("needs_request_body", .bool endpoint.needsRequestBody),
      ("responses", .array (endpoint.responses.map responseInfo)),
      ("response_summary", responseSummary endpoint.responseSummary),
      ("body_summary", optional bodySummary endpoint.bodySummary) ]

end FunctionForge.Inspection
