import FunctionForge.Naming.Identifier
import FunctionForge.ScalarType

/-!
# Types in generated code

The type of a property, a parameter or a body: a scalar, a generated class, or a list or a map of
such. `stem` names what is generated for a type, and `DefaultValue` is what a property of it starts
with.
-/

namespace FunctionForge

/-- A type in generated code. -/
inductive TypeRef where
  | scalar (type : ScalarType) (nullable : Bool)
  /-- The generated class of this name. -/
  | entity (name : String)
  | list (item : TypeRef)
  /-- A map from texts. -/
  | map (value : TypeRef)
  deriving Repr, DecidableEq

namespace TypeRef

/-- A scalar without the mark of a nullable one. -/
def plain (type : ScalarType) : TypeRef :=
  .scalar type false

/-- Whether a type is a scalar. -/
def isScalar : TypeRef → Bool
  | .scalar _ _ => true
  | _ => false

/-- Whether a type is a map. -/
def isMap : TypeRef → Bool
  | .map _ => true
  | _ => false

/-- The class that a type is made of, through lists and maps. -/
def entityName? : TypeRef → Option String
  | .entity name => some name
  | .list item => item.entityName?
  | .map value => value.entityName?
  | .scalar _ _ => none

/-- What the names of things generated for a type start with. -/
def stem : TypeRef → String
  | .scalar type _ => Naming.capitalize type.text
  | .entity name => name
  | .list item => item.stem ++ "List"
  | .map value => value.stem ++ "Map"

end TypeRef

/-- What a property starts with. -/
inductive DefaultValue where
  /-- A declared default, written as a literal. -/
  | literal (text : String)
  | null
  /-- A new instance of the property's class. -/
  | newInstance
  | emptyList
  | emptyMap
  deriving Repr, DecidableEq

end FunctionForge
