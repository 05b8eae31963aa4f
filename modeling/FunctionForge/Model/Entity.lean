import FunctionForge.Model.Property
import FunctionForge.Notice
import FunctionForge.Union

/-!
# Models of schemas

Makes a model of each schema of a document. A schema with `oneOf` becomes an interface with the
members of the union as children; any other schema becomes a class, which takes its parent from the
reference in `allOf` and its properties from the schema given in place there.

Schemas that are filtered out, references, bare primitives and lists get no model. Of two schemas
with the same class name the second one fails. `resolveModels` also gives every class the interfaces
that it is a child of.
-/

namespace FunctionForge.Model

open Document (Discriminator Schema SchemaOrRef)

/-! ### Interfaces -/

/-- The members of a union: their class names, and the class names by selecting values. -/
structure Members where
  children : List String
  mapping : Fields String
  deriving Repr, DecidableEq

/-- Adds a member of a union to an interface. Members that do nothing but require properties are
passed over. -/
def addChild (known : KnownTypes) (discriminator : Discriminator) (members : Members) :
    SchemaOrRef → Except Cause Members
  | .ref path =>
    match known.resolve path with
    | .alias _ => .error (.unionWithAlias path)
    | .entity child =>
      let value := Union.selectingValue discriminator.mapping (Naming.refName path)
      .ok ⟨members.children ++ [child], members.mapping.insert value child⟩
  | .inline schema => if schema.isRequiredOnly then .ok members else .error .unionWithInline

/-- The interface of a union. -/
def resolveInterface (known : KnownTypes) (rawName : String) (schema : Schema) :
    Except Cause InterfaceModel := do
  let some discriminator := schema.discriminator | throw .unionWithoutDiscriminator
  let members ← schema.oneOf.foldlM (addChild known discriminator) ⟨[], []⟩
  return {
    rawName
    name := known.naming.className rawName
    description := schema.description
    children := members.children
    discriminator := Naming.identifier discriminator.propertyName
    mapping := members.mapping }

/-! ### Classes -/

/-- What a class takes from the members of `allOf`. -/
structure Inheritance where
  parent : Option String
  /-- The schema that is given in place. -/
  body : Option Schema

/-- Adds a member of `allOf`. A schema in place that has neither a type nor properties is passed
over. -/
def addInherited (known : KnownTypes) (inherited : Inheritance) :
    SchemaOrRef → Except Cause Inheritance
  | .ref path =>
    if inherited.parent.isSome then .error .severalParents
    else
      match known.resolve path with
      | .entity name => .ok { inherited with parent := some name }
      | .alias _ => .error (.parentIsAlias path)
  | .inline schema =>
    if schema.types.isSome || !schema.properties.isEmpty then
      if inherited.body.isSome then .error .severalBodies
      else .ok { inherited with body := some schema }
    else .ok inherited

/-- What a class takes from its schema: a parent, and the schema with its properties. -/
def inheritance (known : KnownTypes) (schema : Schema) : Except Cause Inheritance :=
  if schema.allOf.isEmpty then .ok ⟨none, some schema⟩
  else schema.allOf.foldlM (addInherited known) ⟨none, none⟩

/-- The properties of a class. -/
def resolveProperties (known : KnownTypes) (rawName : String) (body : Schema) :
    Fields SchemaOrRef → Except DefinitionError (List Property)
  | [] => .ok []
  | (name, schema) :: rest =>
    match Property.resolve known name (body.requires name) schema with
    | .error cause => .error ⟨rawName ++ "." ++ name, cause⟩
    | .ok property => (resolveProperties known rawName body rest).map (property :: ·)

/-- The class of a schema. -/
def resolveObject (known : KnownTypes) (rawName : String) (schema : Schema) :
    Except DefinitionError ObjectModel := do
  let inherited ←
    match inheritance known schema with
    | .ok inherited => Except.ok inherited
    | .error cause => .error ⟨rawName, cause⟩
  let body := inherited.body.getD .blank
  let properties ← resolveProperties known rawName body body.properties
  return {
    rawName
    name := known.naming.className rawName
    description := schema.description.or body.description
    properties
    parent := inherited.parent
    interfaces := []
    capabilities := Capability.ofProperties properties }

/-- The model of a schema. -/
def resolveEntity (known : KnownTypes) (rawName : String) (schema : Schema) :
    Except DefinitionError Entity :=
  if schema.oneOf.isEmpty then (resolveObject known rawName schema).map .object
  else
    match resolveInterface known rawName schema with
    | .ok interface => .ok (.interface interface)
    | .error cause => .error ⟨rawName, cause⟩

/-! ### Documents -/

/-- Which schemas get models, and how the classes are named. -/
structure Options where
  naming : Naming.ClassNaming
  excludes : List String
  /-- If there are any, only these schemas get models. -/
  includes : List String
  deriving Repr, DecidableEq

namespace Options

/-- Every schema gets a model, named as it is. -/
def plain : Options := ⟨.plain, [], []⟩

/-- Whether a schema may get a model. -/
def admits (options : Options) (name : String) : Bool :=
  !options.excludes.contains name &&
    (options.includes.isEmpty || options.includes.contains name)

end Options

/-- The schema for which a model is made, if it is one of those that get models. -/
def eligible? (options : Options) (entry : String × SchemaOrRef) : Option Schema :=
  match entry.2 with
  | .ref _ => none
  | .inline schema =>
    if options.admits entry.1 && !schema.isPrimitive && schema.primaryType != some .array then
      some schema
    else none

/-- Adds a model. A second one of the same name fails. -/
def addEntity (models : Resolution Entity) (entity : Entity) : Resolution Entity :=
  match models.items.find? fun other => other.name == entity.name with
  | some first =>
    { models with
      failures := models.failures ++
        [⟨entity.rawName, .nameCollision entity.name first.rawName⟩] }
  | none => { models with items := models.items ++ [entity] }

/-- Adds the model of a schema, if it gets one. -/
def addSchema (known : KnownTypes) (options : Options) (models : Resolution Entity)
    (entry : String × SchemaOrRef) : Resolution Entity :=
  match eligible? options entry with
  | none => models
  | some schema =>
    match resolveEntity known entry.1 schema with
    | .ok entity => addEntity models entity
    | .error failure => { models with failures := models.failures ++ [failure] }

/-- Gives a class the interfaces that it is a child of. -/
def linkInterfaces (entities : List Entity) : Entity → Entity
  | .interface model => .interface model
  | .object model =>
    let interfaces := (entities.filterMap Entity.interface?).filter fun interface =>
      interface.children.contains model.name
    .object { model with interfaces := interfaces.map InterfaceModel.name }

/-- The models of a document, and the table that references were resolved with. -/
structure ModelResolution where
  known : KnownTypes
  models : Resolution Entity

/-- The models of the schemas of a document. -/
def resolveModels (schemas : Fields SchemaOrRef) (options : Options) : ModelResolution :=
  let known := KnownTypes.scan schemas options.naming options.admits
  let models := List.foldl (addSchema known options) .none schemas
  { known, models := { models with items := models.items.map (linkInterfaces models.items) } }

/-! ### Notices -/

/-- What is reported of the class of a schema. -/
def objectNotices (known : KnownTypes) (rawName : String) (schema : Schema) : List Notice :=
  if schema.allOf.isEmpty || !schema.oneOf.isEmpty then []
  else
    match inheritance known schema with
    | .error _ => []
    | .ok inherited =>
      (if schema.properties.isEmpty then [] else [.ignoredProperties rawName]) ++
        (if inherited.body.isSome then [] else [.bodilessIntersection rawName])

/-- What is reported of a schema. -/
def schemaNotices (known : KnownTypes) (options : Options) (entry : String × SchemaOrRef) :
    List Notice :=
  match eligible? options entry, entry.2 with
  | some schema, _ => objectNotices known entry.1 schema
  | none, .inline schema =>
    if options.admits entry.1 && schema.primaryType == some .array then
      [.listWithoutModel entry.1]
    else []
  | none, .ref _ => []

/-- What is reported of the schemas of a document. -/
def modelNotices (schemas : Fields SchemaOrRef) (options : Options) : List Notice :=
  let known := KnownTypes.scan schemas options.naming options.admits
  List.flatMap (schemaNotices known options) schemas

end FunctionForge.Model
