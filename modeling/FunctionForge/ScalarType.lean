import FunctionForge.Definition

/-!
# Scalar types

The types of values without parts, and the scalar type of a schema: its type and format together.
A format that is not known leaves the type what it is without one.
-/

namespace FunctionForge

open Document (Schema SchemaType)

/-- The type of a value without parts. -/
inductive ScalarType where
  | guid
  | dateTime
  | long
  | ulong
  | uint
  | int
  | double
  | bool
  | string
  deriving Repr, DecidableEq

namespace ScalarType

/-- The name of a scalar type. -/
def text : ScalarType → String
  | .guid => "Guid"
  | .dateTime => "DateTime"
  | .long => "long"
  | .ulong => "ulong"
  | .uint => "uint"
  | .int => "int"
  | .double => "double"
  | .bool => "bool"
  | .string => "string"

/-- Whether a type can be marked as nullable. Texts can always be null and have no mark. -/
def acceptsNullMark (type : ScalarType) : Bool :=
  type != .string

/-- The name of a scalar type, with a question mark if it is marked as nullable. -/
def render (type : ScalarType) (nullable : Bool) : String :=
  if nullable && type.acceptsNullMark then type.text ++ "?" else type.text

/-- Whether the values of a type can be enumerated. -/
def supportsEnum : ScalarType → Bool
  | .string | .int | .long | .double => true
  | _ => false

/-- The scalar type of a type with a format. -/
def ofType (type : Option SchemaType) (format : Option String) : Except Cause ScalarType :=
  match type with
  | some .string =>
    .ok <|
      if format = some "uuid" then .guid
      else if format = some "date" ∨ format = some "date-time" then .dateTime
      else .string
  | some .integer =>
    .ok <|
      if format = some "int64" then .long
      else if format = some "uint64" then .ulong
      else if format = some "uint32" then .uint
      else .int
  | some .number => .ok .double
  | some .boolean => .ok .bool
  | some type => .error (.noScalarType type)
  | none => .error .noType

/-- The scalar type of a schema. -/
def ofSchema (schema : Schema) : Except Cause ScalarType :=
  ofType schema.primaryType schema.format

end ScalarType

end FunctionForge
