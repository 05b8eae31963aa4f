import FunctionForge.Endpoint.Basic
import FunctionForge.Model.Basic

/-!
# C# types

How types are written in C#, what properties are initialised with and copied by, and what the
methods of a service return.
-/

namespace FunctionForge.CSharp

open Endpoint (ResponseSummary)
open Model (Property)

/-- A scalar type in C#. -/
def scalarName (type : ScalarType) (nullable : Bool) : String :=
  let base :=
    match type with
    | .guid => "System.Guid"
    | .dateTime => "System.DateTime"
    | type => type.text
  if nullable && type.acceptsNullMark then base ++ "?" else base

/-- A type in C#. -/
def typeName : TypeRef → String
  | .scalar type nullable => scalarName type nullable
  | .entity name => name
  | .list item => "ICollection<" ++ typeName item ++ ">"
  | .map value => "Dictionary<string, " ++ typeName value ++ ">"

/-- What makes a new value of a type. -/
def newValue (type : TypeRef) : String :=
  "new " ++ typeName type ++ "()"

/-- What a property is initialised with. A type that cannot be null keeps its own default where the
property starts with null. -/
def initializer? (property : Property) : Option String :=
  property.defaultValue.bind fun defaultValue =>
    match defaultValue with
    | .literal text => some text
    | .null =>
      match property.typeRef with
      | .scalar type nullable =>
        if type.acceptsNullMark && !nullable then none else some "null"
      | _ => some "null"
    | .newInstance => some (newValue property.typeRef)
    | .emptyList =>
      match property.typeRef with
      | .list item => some ("new List<" ++ typeName item ++ ">()")
      | type => some (newValue type)
    | .emptyMap => some (newValue property.typeRef)

/-- What is appended to the value of a property to copy it. -/
def copySuffix (property : Property) : String :=
  match property.typeRef with
  | .list _ => if property.isBasicType then "?.ToList()" else ""
  | .entity name => (if property.nullable then "?" else "") ++ ".To" ++ name ++ "()"
  | _ => ""

/-- The statement that copies a property into the member `memberName`. -/
def updateStatement (memberName : String) (property : Property) : String :=
  memberName ++ " = other." ++ memberName ++ copySuffix property ++ ";"

/-- What a method of the service returns. -/
def resultType : ResponseSummary → String
  | .untyped => "Task<IActionResult>"
  | .single none _ => "Task"
  | .single (some content) _ => "Task<" ++ typeName content ++ ">"
  | .multiCode _ _ (some wrapper) => "Task<" ++ wrapper ++ ">"
  | .multiCode _ _ none => "Task<int>"

end FunctionForge.CSharp
