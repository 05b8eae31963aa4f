import FunctionForge.Value

/-!
# Schemas

The part of a schema that code is generated from. A schema stands either on its own or in the place
where it is used; in the second case it may be a reference to another one.

`Schema.mapReferencesM` changes all references in a schema, in a fixed order: those of the
properties, of the items, of the additional properties, and of the members of `allOf`, `oneOf` and
`anyOf`.
-/

namespace FunctionForge.Document

/-- The type of a value. -/
inductive SchemaType where
  | string
  | number
  | integer
  | boolean
  | array
  | object
  | null
  deriving Repr, DecidableEq

/-- The types with their names. -/
def SchemaType.byName : List (String × SchemaType) :=
  [("string", .string), ("number", .number), ("integer", .integer), ("boolean", .boolean),
    ("array", .array), ("object", .object), ("null", .null)]

/-- The name of a type. -/
def SchemaType.text : SchemaType → String
  | .string => "string"
  | .number => "number"
  | .integer => "integer"
  | .boolean => "boolean"
  | .array => "array"
  | .object => "object"
  | .null => "null"

/-- The types that a schema allows: one, or those of a list. -/
inductive TypeSet where
  | single (type : SchemaType)
  | several (types : List SchemaType)
  deriving Repr, DecidableEq

/-- How the member of a union is told from a payload: by the value of a property. -/
structure Discriminator where
  propertyName : String
  /-- References to members by the values that select them. -/
  mapping : Fields String
  deriving Repr, DecidableEq

mutual

/-- A schema in the place where it is used. -/
inductive SchemaOrRef where
  | ref (path : String)
  | inline (schema : Schema)

/-- What a schema says of properties that it does not name. -/
inductive AdditionalProperties where
  | allowed (allowed : Bool)
  | values (schema : SchemaOrRef)

/-- A schema. -/
structure Schema where
  types : Option TypeSet
  format : Option String
  description : Option String
  defaultValue : Option Value
  nullable : Option Bool
  properties : List (String × SchemaOrRef)
  required : List String
  additionalProperties : Option AdditionalProperties
  items : Option SchemaOrRef
  allOf : List SchemaOrRef
  oneOf : List SchemaOrRef
  anyOf : List SchemaOrRef
  discriminator : Option Discriminator
  enumeration : List Value

end

/-- The schema that stands in its place itself. -/
def SchemaOrRef.schema? : SchemaOrRef → Option Schema
  | .ref _ => none
  | .inline schema => some schema

namespace Schema

/-- A schema that says nothing. -/
def blank : Schema where
  types := none
  format := none
  description := none
  defaultValue := none
  nullable := none
  properties := []
  required := []
  additionalProperties := none
  items := none
  allOf := []
  oneOf := []
  anyOf := []
  discriminator := none
  enumeration := []

instance : Inhabited Schema := ⟨blank⟩
instance : Inhabited SchemaOrRef := ⟨.inline blank⟩

/-- The first type of a schema that is not null. -/
def primaryType (schema : Schema) : Option SchemaType :=
  match schema.types with
  | some (.single type) => some type
  | some (.several types) => types.find? (· ≠ .null)
  | none => none

/-- Whether a schema allows null: by its own word or by a list of types with null in it. -/
def isNullable (schema : Schema) : Bool :=
  schema.nullable == some true ||
    match schema.types with
    | some (.several types) => types.contains .null
    | _ => false

/-- Whether a schema requires a property. -/
def requires (schema : Schema) (property : String) : Bool :=
  schema.required.contains property

/-- Whether a schema does nothing but require properties. -/
def isRequiredOnly (schema : Schema) : Bool :=
  !schema.required.isEmpty && schema.types.isNone && schema.properties.isEmpty &&
    schema.allOf.isEmpty && schema.oneOf.isEmpty && schema.anyOf.isEmpty && schema.items.isNone

/-- Whether a schema is of a type that has no parts. -/
def isScalarTyped (schema : Schema) : Bool :=
  match schema.primaryType with
  | some .string | some .integer | some .number | some .boolean => true
  | _ => false

/-- Whether a schema is a bare primitive: a type without parts, and no properties. -/
def isPrimitive (schema : Schema) : Bool :=
  schema.isScalarTyped && schema.properties.isEmpty

/-- Whether a schema is a date without a time. -/
def isDate (schema : Schema) : Bool :=
  schema.primaryType == some .string && schema.format == some "date"

end Schema

/-! ### References -/

variable {m : Type → Type} [Monad m]

mutual

/-- Changes all references in the place of a schema. -/
def SchemaOrRef.mapReferencesM (f : String → m String) : SchemaOrRef → m SchemaOrRef
  | .ref path => do return .ref (← f path)
  | .inline schema => do return .inline (← schema.mapReferencesM f)

/-- Changes all references in what a schema says of further properties. -/
def AdditionalProperties.mapReferencesM (f : String → m String) :
    AdditionalProperties → m AdditionalProperties
  | .allowed b => pure (.allowed b)
  | .values schema => do return .values (← schema.mapReferencesM f)

/-- Changes all references in a schema. -/
def Schema.mapReferencesM (f : String → m String) : Schema → m Schema
  | ⟨types, format, description, defaultValue, nullable, properties, required,
      additionalProperties, items, allOf, oneOf, anyOf, discriminator, enumeration⟩ => do
    let properties ← mapReferencesInFields f properties
    let items ← mapReferencesInOption f items
    let additionalProperties ← match additionalProperties with
      | none => pure none
      | some additional => some <$> additional.mapReferencesM f
    let allOf ← mapReferencesInList f allOf
    let oneOf ← mapReferencesInList f oneOf
    let anyOf ← mapReferencesInList f anyOf
    return ⟨types, format, description, defaultValue, nullable, properties, required,
      additionalProperties, items, allOf, oneOf, anyOf, discriminator, enumeration⟩

/-- Changes all references in the properties of a schema. -/
def mapReferencesInFields (f : String → m String) :
    List (String × SchemaOrRef) → m (List (String × SchemaOrRef))
  | [] => pure []
  | (name, schema) :: rest => do
    let schema ← schema.mapReferencesM f
    return (name, schema) :: (← mapReferencesInFields f rest)

/-- Changes all references in the items of a schema. -/
def mapReferencesInOption (f : String → m String) : Option SchemaOrRef → m (Option SchemaOrRef)
  | none => pure none
  | some schema => do return some (← schema.mapReferencesM f)

/-- Changes all references in the members of a union or an intersection. -/
def mapReferencesInList (f : String → m String) : List SchemaOrRef → m (List SchemaOrRef)
  | [] => pure []
  | schema :: rest => do
    let schema ← schema.mapReferencesM f
    return schema :: (← mapReferencesInList f rest)

end

end FunctionForge.Document
