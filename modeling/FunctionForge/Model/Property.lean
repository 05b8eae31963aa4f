import FunctionForge.KnownTypes
import FunctionForge.Model.Basic
import FunctionForge.Model.Literal

/-!
# Properties

Makes a property of a schema. A reference to an alias gives a property of the alias's body, any
other reference one of a class. A schema that wraps a single reference in `anyOf` or `allOf` gives
what the reference gives, with the description and the nullability of the schema. Everything else is
a list, a map or a scalar.
-/

namespace FunctionForge.Model

open Document (AdditionalProperties Schema SchemaOrRef)

/-! ### Elements of collections -/

/-- The type of the elements of a list or map: that of a reference or of a primitive. -/
def elementType? (known : KnownTypes) (nullable : Bool) (schema : SchemaOrRef) : Option TypeRef :=
  let ofSchema (schema : Schema) : Option TypeRef :=
    if schema.isPrimitive then
      (ScalarType.ofSchema schema).toOption.map (TypeRef.scalar · nullable)
    else none
  match schema with
  | .ref path =>
    match known.resolve path with
    | .entity name => some (.entity name)
    | .alias body => ofSchema body
  | .inline schema => ofSchema schema

/-! ### Defaults and enumerated values -/

/-- What a property with a declared default starts with. -/
def declaredDefault : Value → Except Cause DefaultValue
  | .null => .ok .null
  | .array _ => .error .structuredDefault
  | .object _ => .error .structuredDefault
  | value => .ok (.literal (literal value))

/-- What a scalar property starts with. -/
def scalarDefault (required nullable : Bool) (declared : Option Value) :
    Except Cause (Option DefaultValue) :=
  match declared with
  | some value => (declaredDefault value).map some
  | none => .ok (if nullable || !required then some .null else none)

/-- How a value is called in the name of its constant. -/
def constantSegment : Value → String
  | .null => "Null"
  | .string s => Naming.capitalize s
  | value => Naming.capitalize value.compact

/-- The constant for a value of a property. -/
def constant (property : String) (value : Value) : EnumConstant where
  name := Naming.sanitize (Naming.identifier property ++ constantSegment value ++ "Value")
  literal := literal value

/-- Adds a constant to others; two constants cannot have one name. -/
def addConstant (constants : List EnumConstant) (constant : EnumConstant) :
    Except Cause (List EnumConstant) :=
  match constants.find? fun other => other.name == constant.name with
  | some clash => .error (.clashingConstants clash.literal constant.literal constant.name)
  | none => .ok (constants ++ [constant])

/-- The constants for the values of a property. -/
def enumTable (property : String) (values : List Value) : Except Cause EnumTable := do
  let constants ← (values.map (constant property)).foldlM addConstant []
  return { constants, allowedValuesName := "AllowedValuesFor" ++ Naming.identifier property }

/-- The constants for the values of a property of a scalar type, if it has enumerated values. -/
def enumTable? (property : String) (type : ScalarType) (values : List Value) :
    Except Cause (Option EnumTable) :=
  if values.isEmpty || !type.supportsEnum then .ok none
  else (enumTable property values).map some

/-! ### Properties -/

/-- Where a property is declared. -/
structure PropertySite where
  /-- The name in payloads. -/
  name : String
  required : Bool
  /-- Whether a schema around it is nullable. -/
  nullable : Bool
  /-- The description of a schema around it. -/
  description : Option String
  deriving Repr, DecidableEq

namespace Property

/-- A property with an own class as its type. -/
def ofEntity (site : PropertySite) (className : String) : Property where
  name := site.name
  typeRef := .entity className
  isList := false
  isRequired := site.required
  nullable := !site.required || site.nullable
  isDate := false
  isBasicType := false
  defaultValue := some (if site.required then .newInstance else .null)
  enumTable := none
  description := site.description

/-- A list property. -/
def ofList (known : KnownTypes) (site : PropertySite) (schema : Schema) :
    Except Cause Property := do
  let some items := schema.items | throw .listWithoutItems
  let nullable := site.nullable || schema.isNullable
  let some item := elementType? known nullable items | throw .listOfOthers
  return {
    name := site.name
    typeRef := .list item
    isList := true
    isRequired := site.required
    nullable
    isDate := false
    isBasicType := item.isScalar
    defaultValue := some .emptyList
    enumTable := none
    description := site.description.or schema.description }

/-- A map property. -/
def ofMap (known : KnownTypes) (site : PropertySite) (schema : Schema) :
    Except Cause Property := do
  if !schema.properties.isEmpty then throw .nestedProperties
  let some (AdditionalProperties.values values) := schema.additionalProperties
    | throw .mapWithoutValues
  let nullable := site.nullable || schema.isNullable
  let some value := elementType? known nullable values | throw .mapOfOthers
  return {
    name := site.name
    typeRef := .map value
    isList := false
    isRequired := site.required
    nullable
    isDate := false
    isBasicType := value.isScalar
    defaultValue := some .emptyMap
    enumTable := none
    description := site.description.or schema.description }

/-- A scalar property. -/
def ofScalar (site : PropertySite) (schema : Schema) : Except Cause Property := do
  if !schema.properties.isEmpty then throw .nestedProperties
  let type ← ScalarType.ofSchema schema
  let nullable := site.nullable || schema.isNullable
  let defaultValue ← scalarDefault site.required nullable schema.defaultValue
  let enumTable ← enumTable? site.name type schema.enumeration
  return {
    name := site.name
    typeRef := .scalar type (nullable && defaultValue == some .null)
    isList := false
    isRequired := site.required
    nullable
    isDate := schema.isDate
    isBasicType := true
    defaultValue
    enumTable
    description := site.description.or schema.description }

/-- The property of a schema that wraps no reference. -/
def ofSchema (known : KnownTypes) (site : PropertySite) (schema : Schema) :
    Except Cause Property :=
  match schema.primaryType with
  | some .array => ofList known site schema
  | some .object => ofMap known site schema
  | _ => ofScalar site schema

/-- The property of a reference. -/
def ofRef (known : KnownTypes) (site : PropertySite) (path : String) : Except Cause Property :=
  match known.resolve path with
  | .alias body => ofSchema known site body
  | .entity className => .ok (ofEntity site className)

/-- The property of a schema or of a reference. -/
def resolve (known : KnownTypes) (name : String) (required : Bool) :
    SchemaOrRef → Except Cause Property
  | .ref path => ofRef known ⟨name, required, false, none⟩ path
  | .inline schema =>
    match schema.anyOf, schema.allOf, schema.oneOf with
    | [], [], [] => ofSchema known ⟨name, required, false, none⟩ schema
    | [], [], _ :: _ => .error .nestedUnion
    | [], [.ref path], _ =>
      ofRef known ⟨name, required, schema.isNullable, schema.description⟩ path
    | [], _ :: _, _ => .error .nestedIntersection
    | [.ref path], _, _ =>
      ofRef known ⟨name, required, schema.isNullable, schema.description⟩ path
    | _ :: _, _, _ => .error .severalAlternatives

end Property

end FunctionForge.Model
