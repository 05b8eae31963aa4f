import FunctionForge.TypeRef

/-!
# Models

What is generated for the schemas of a document: classes with properties, which may have a parent,
and interfaces for the unions that classes are members of.
-/

namespace FunctionForge.Model

/-- A named constant for one value of a property. -/
structure EnumConstant where
  name : String
  literal : String
  deriving Repr, DecidableEq

/-- The named constants for the values that a property can have. -/
structure EnumTable where
  constants : List EnumConstant
  /-- The name of the list of all of them. -/
  allowedValuesName : String
  deriving Repr, DecidableEq

/-- A property of a class. -/
structure Property where
  /-- The name in payloads. -/
  name : String
  typeRef : TypeRef
  isList : Bool
  isRequired : Bool
  nullable : Bool
  isDate : Bool
  /-- Whether it is a scalar or a collection of scalars, which is copied by value. -/
  isBasicType : Bool
  defaultValue : Option DefaultValue
  enumTable : Option EnumTable
  description : Option String
  deriving Repr, DecidableEq

/-- Something that a class needs beyond what every class needs. -/
inductive Capability where
  | collections
  | immutable
  | dateConverter
  deriving Repr, DecidableEq

namespace Capability

/-- The capabilities in order. -/
def all : List Capability := [.collections, .immutable, .dateConverter]

/-- Whether a property needs a capability. -/
def neededBy (property : Property) : Capability → Bool
  | .collections => property.isList || property.typeRef.isMap
  | .immutable => property.enumTable.isSome
  | .dateConverter => property.isDate

/-- The capabilities that properties need. -/
def ofProperties (properties : List Property) : List Capability :=
  all.filter fun capability => properties.any (neededBy · capability)

end Capability

/-- A class. -/
structure ObjectModel where
  /-- The name of the schema. -/
  rawName : String
  name : String
  description : Option String
  properties : List Property
  parent : Option String
  /-- The interfaces of the unions that the class is a member of. -/
  interfaces : List String
  capabilities : List Capability
  deriving Repr, DecidableEq

/-- An interface for the members of a union. -/
structure InterfaceModel where
  /-- The name of the schema. -/
  rawName : String
  name : String
  description : Option String
  children : List String
  /-- The member that tells which child it is. -/
  discriminator : String
  /-- The children by the values that select them. -/
  mapping : Fields String
  deriving Repr, DecidableEq

/-- What is generated for a schema. -/
inductive Entity where
  | object (model : ObjectModel)
  | interface (model : InterfaceModel)
  deriving Repr, DecidableEq

namespace Entity

/-- The name of the generated class or interface. -/
def name : Entity → String
  | .object model => model.name
  | .interface model => model.name

/-- The name of the schema. -/
def rawName : Entity → String
  | .object model => model.rawName
  | .interface model => model.rawName

/-- The class, if it is one. -/
def object? : Entity → Option ObjectModel
  | .object model => some model
  | .interface _ => none

/-- The interface, if it is one. -/
def interface? : Entity → Option InterfaceModel
  | .object _ => none
  | .interface model => some model

end Entity

end FunctionForge.Model
