import FunctionForge.Proofs.Model.Causes
import FunctionForge.Proofs.Renaming.Basic

/-!
# Renaming the classes of models

The models of a document with a naming are its models with plain names, renamed
(`resolveModels_rename`): each step of making a model gives the renamed result when references stand
for renamed classes.  Models are also compared by name, where two have the same name and where a
class is a child of an interface; since the renaming keeps names apart, those comparisons come out
the same.
-/

namespace FunctionForge

open Document (Discriminator Schema SchemaOrRef)
open Naming (ClassNaming)

/-! ### Renamed models -/

/-- A cause with the class that it names renamed. -/
def Cause.rename (f : String → String) : Cause → Cause
  | .nameCollision name first => .nameCollision (f name) first
  | cause => cause

/-- An error with the class that it names renamed. -/
def DefinitionError.rename (f : String → String) (error : DefinitionError) : DefinitionError :=
  { error with cause := error.cause.rename f }

/-- Only a collision names classes. -/
theorem Cause.rename_of_kind {cause : Cause} (f : String → String)
    (h : cause.kind ≠ .nameCollision) : cause.rename f = cause := by
  unfold Cause.rename
  split
  · exact absurd rfl h
  · rfl

namespace Model

variable (f : String → String)

/-- A property with the class of its type renamed. -/
def Property.rename (property : Property) : Property :=
  { property with typeRef := property.typeRef.rename f }

/-- A class with all names of classes renamed. -/
def ObjectModel.rename (model : ObjectModel) : ObjectModel :=
  { model with
    name := f model.name
    properties := model.properties.map (Property.rename f)
    parent := model.parent.map f
    interfaces := model.interfaces.map f }

/-- An interface with all names of classes renamed. -/
def InterfaceModel.rename (model : InterfaceModel) : InterfaceModel :=
  { model with
    name := f model.name
    children := model.children.map f
    mapping := model.mapping.mapValues f }

/-- A model with all names of classes renamed. -/
def Entity.rename : Entity → Entity
  | .object model => .object (model.rename f)
  | .interface model => .interface (model.rename f)

/-- What a class takes from the members of `allOf`, with its parent renamed. -/
def Inheritance.rename (inherited : Inheritance) : Inheritance :=
  { inherited with parent := inherited.parent.map f }

/-- The members of a union with their classes renamed. -/
def Members.rename (members : Members) : Members :=
  ⟨members.children.map f, members.mapping.mapValues f⟩

@[simp]
theorem Entity.name_rename (entity : Entity) : (entity.rename f).name = f entity.name := by
  cases entity with
  | object model => rfl
  | interface model => rfl

@[simp]
theorem Entity.rawName_rename (entity : Entity) : (entity.rename f).rawName = entity.rawName := by
  cases entity with
  | object model => rfl
  | interface model => rfl

variable {f} {known known' : KnownTypes}

/-! ### Properties -/

/-- The type of an element is renamed where it stands for a class. -/
theorem elementType?_rename (h : Renames f known known') (nullable : Bool) (schema : SchemaOrRef) :
    elementType? known' nullable schema =
      (elementType? known nullable schema).map (TypeRef.rename f) := by
  -- A scalar names no class, so it is the same under either table.
  have hprimitive (schema : Schema) :
      (if schema.isPrimitive = true then
        (ScalarType.ofSchema schema).toOption.map (TypeRef.scalar · nullable) else none) =
      Option.map (TypeRef.rename f) (if schema.isPrimitive = true then
        (ScalarType.ofSchema schema).toOption.map (TypeRef.scalar · nullable) else none) := by
    split_ifs
    · rw [Option.map_map]
      rfl
    · rfl
  unfold elementType?
  cases schema with
  | inline schema => exact hprimitive schema
  | ref path =>
    simp only [h.resolve]
    rcases known.resolve path with body | name
    · exact hprimitive body
    · rfl

theorem ofList_rename (h : Renames f known known') (site : PropertySite) (schema : Schema) :
    Property.ofList known' site schema =
      (Property.ofList known site schema).map (Property.rename f) := by
  unfold Property.ofList
  cases schema.items with
  | none => rfl
  | some items =>
    simp only [elementType?_rename h]
    cases elementType? known (site.nullable || schema.isNullable) items with
    | none => rfl
    | some item =>
      simp only [Option.map_some, TypeRef.isScalar_rename]
      rfl

theorem ofMap_rename (h : Renames f known known') (site : PropertySite) (schema : Schema) :
    Property.ofMap known' site schema =
      (Property.ofMap known site schema).map (Property.rename f) := by
  unfold Property.ofMap
  split_ifs
  · rfl
  · cases schema.additionalProperties with
    | none => rfl
    | some additional =>
      cases additional with
      | allowed _ => rfl
      | values values =>
        simp only [elementType?_rename h]
        cases elementType? known (site.nullable || schema.isNullable) values with
        | none => rfl
        | some value =>
          simp only [Option.map_some, TypeRef.isScalar_rename]
          rfl

/-- A scalar property has no class to be renamed. -/
theorem ofScalar_rename (site : PropertySite) (schema : Schema) :
    (Property.ofScalar site schema).map (Property.rename f) = Property.ofScalar site schema := by
  -- No step asks the table, and what comes out has a scalar type.
  unfold Property.ofScalar
  split_ifs
  · rfl
  · cases ScalarType.ofSchema schema with
    | error cause => rfl
    | ok type =>
      simp only [bind, Except.bind]
      cases scalarDefault site.required (site.nullable || schema.isNullable)
          schema.defaultValue with
      | error cause => rfl
      | ok defaultValue =>
        simp only
        cases enumTable? site.name type schema.enumeration with
        | error cause => rfl
        | ok table => rfl

theorem ofSchema_rename (h : Renames f known known') (site : PropertySite) (schema : Schema) :
    Property.ofSchema known' site schema =
      (Property.ofSchema known site schema).map (Property.rename f) := by
  unfold Property.ofSchema
  split
  · exact ofList_rename h site schema
  · exact ofMap_rename h site schema
  · exact (ofScalar_rename site schema).symm

theorem ofRef_rename (h : Renames f known known') (site : PropertySite) (path : String) :
    Property.ofRef known' site path =
      (Property.ofRef known site path).map (Property.rename f) := by
  unfold Property.ofRef
  rw [h.resolve]
  rcases known.resolve path with body | name
  · exact ofSchema_rename h site body
  · rfl

/-- A property has the renamed type, and all else of it is as it was. -/
theorem resolveProperty_rename (h : Renames f known known') (name : String) (required : Bool)
    (schema : SchemaOrRef) : Property.resolve known' name required schema =
      (Property.resolve known name required schema).map (Property.rename f) := by
  cases schema with
  | ref path => exact ofRef_rename h _ path
  | inline schema =>
    simp only [Property.resolve]
    split
    · exact ofSchema_rename h _ schema
    · rfl
    · exact ofRef_rename h _ _
    · rfl
    · exact ofRef_rename h _ _
    · rfl

theorem resolveProperties_rename (h : Renames f known known') (rawName : String) (body : Schema)
    (fields : Fields SchemaOrRef) : resolveProperties known' rawName body fields =
      (resolveProperties known rawName body fields).map (List.map (Property.rename f)) := by
  induction fields with
  | nil => rfl
  | cons field rest ih =>
    obtain ⟨name, schema⟩ := field
    rw [resolveProperties, resolveProperties, resolveProperty_rename h, ih]
    cases Property.resolve known name (body.requires name) schema with
    | error cause => rfl
    | ok property =>
      cases resolveProperties known rawName body rest with
      | error failure => rfl
      | ok others => rfl

/-- What a class needs does not depend on the names of other classes. -/
theorem capabilities_rename (properties : List Property) :
    Capability.ofProperties (properties.map (Property.rename f)) =
      Capability.ofProperties properties := by
  have hneeded (property : Property) (capability : Capability) :
      capability.neededBy (property.rename f) = capability.neededBy property := by
    cases capability with
    | collections =>
      change (property.isList || (property.typeRef.rename f).isMap) = _
      rw [TypeRef.isMap_rename]
      rfl
    | immutable => rfl
    | dateConverter => rfl
  simp only [Capability.ofProperties, List.any_map, Function.comp_def, hneeded]

/-! ### Classes -/

/-- A member of an object adds the renamed parent, or the same body. -/
theorem addInherited_rename (h : Renames f known known') (inherited : Inheritance)
    (member : SchemaOrRef) : addInherited known' (inherited.rename f) member =
      (addInherited known inherited member).map (Inheritance.rename f) := by
  cases member with
  | ref path =>
    have hparent : (inherited.rename f).parent.isSome = inherited.parent.isSome := by
      simp [Inheritance.rename]
    simp only [addInherited, hparent, h.resolve]
    split_ifs
    · rfl
    · rcases known.resolve path with body | name
      · rfl
      · rfl
  | inline schema =>
    have hbody : (inherited.rename f).body = inherited.body := rfl
    simp only [addInherited, hbody]
    split_ifs
    · rfl
    · rfl
    · rfl

theorem inheritance_rename (h : Renames f known known') (schema : Schema) :
    inheritance known' schema = (inheritance known schema).map (Inheritance.rename f) := by
  unfold inheritance
  split_ifs
  · rfl
  · exact foldlM_map (addInherited_rename h) schema.allOf ⟨none, none⟩

/-- A class has its own renamed name, the renamed parent and renamed properties. -/
theorem resolveObject_rename (h : Renames f known known') (rawName : String) (schema : Schema) :
    resolveObject known' rawName schema =
      (resolveObject known rawName schema).map (ObjectModel.rename f) := by
  unfold resolveObject
  rw [inheritance_rename h]
  cases inheritance known schema with
  | error cause => rfl
  | ok inherited =>
    have hbody : (inherited.rename f).body = inherited.body := rfl
    simp only [Except.map, bind, Except.bind, hbody, resolveProperties_rename h, h.className]
    cases resolveProperties known rawName (inherited.body.getD .blank)
        (inherited.body.getD .blank).properties with
    | error failure => rfl
    | ok properties =>
      simp only [capabilities_rename]
      rfl

/-! ### Interfaces -/

/-- A member of an interface adds the renamed child under the same value. -/
theorem addChild_rename (h : Renames f known known') (discriminator : Discriminator)
    (members : Members) (member : SchemaOrRef) :
    addChild known' discriminator (members.rename f) member =
      (addChild known discriminator members member).map (Members.rename f) := by
  cases member with
  | ref path =>
    simp only [addChild, h.resolve]
    rcases known.resolve path with body | child
    · rfl
    · simp only [ResolvedRef.rename, Members.rename, Except.map, List.map_append,
        List.map_singleton, Fields.mapValues_insert]
  | inline schema =>
    simp only [addChild]
    split_ifs
    · rfl
    · rfl

theorem resolveInterface_rename (h : Renames f known known') (rawName : String) (schema : Schema) :
    resolveInterface known' rawName schema =
      (resolveInterface known rawName schema).map (InterfaceModel.rename f) := by
  unfold resolveInterface
  cases schema.discriminator with
  | none => rfl
  | some discriminator =>
    have hfold := foldlM_map (addChild_rename h discriminator) schema.oneOf ⟨[], []⟩
    change schema.oneOf.foldlM (addChild known' discriminator) ⟨[], []⟩ = _ at hfold
    simp only [hfold, h.className]
    cases schema.oneOf.foldlM (addChild known discriminator) ⟨[], []⟩ with
    | error cause => rfl
    | ok members => rfl

/-! ### Models of documents -/

theorem resolveEntity_rename (h : Renames f known known') (rawName : String) (schema : Schema) :
    resolveEntity known' rawName schema =
      (resolveEntity known rawName schema).map (Entity.rename f) := by
  unfold resolveEntity
  rw [resolveObject_rename h, resolveInterface_rename h]
  split_ifs
  · cases resolveObject known rawName schema with
    | error failure => rfl
    | ok model => rfl
  · cases resolveInterface known rawName schema with
    | error cause => rfl
    | ok model => rfl

/-- Models and failures with all names of classes renamed. -/
def renameModels (f : String → String) (models : Resolution Entity) : Resolution Entity :=
  ⟨models.items.map (Entity.rename f), models.failures.map (DefinitionError.rename f)⟩

section

variable (hf : Function.Injective f)
include hf

/-- Two models have the same name after renaming exactly if they have the same name. -/
theorem find?_rename (entities : List Entity) (name : String) :
    ((entities.map (Entity.rename f)).find? fun other => other.name == f name) =
      (entities.find? fun other => other.name == name).map (Entity.rename f) := by
  have hname : ((fun other : Entity => other.name == f name) ∘ Entity.rename f) =
      fun other => other.name == name := by
    funext other
    rw [Function.comp_apply, Entity.name_rename, Bool.eq_iff_iff]
    simp only [beq_iff_eq, hf.eq_iff]
  rw [List.find?_map, hname]

/-- Two models have one name exactly if they have one after the renaming. -/
theorem addEntity_rename (models : Resolution Entity) (entity : Entity) :
    addEntity (renameModels f models) (entity.rename f) =
      renameModels f (addEntity models entity) := by
  simp only [addEntity, renameModels, Entity.name_rename, find?_rename hf]
  cases models.items.find? fun other => other.name == entity.name with
  | none => simp
  | some first => simp [DefinitionError.rename, Cause.rename]

theorem addSchema_rename (h : Renames f known known') (options : Options)
    (models : Resolution Entity) (entry : String × SchemaOrRef) :
    addSchema known' options (renameModels f models) entry =
      renameModels f (addSchema known options models entry) := by
  unfold addSchema
  cases eligible? options entry with
  | none => rfl
  | some schema =>
    simp only [resolveEntity_rename h]
    cases hr : resolveEntity known entry.1 schema with
    | ok entity => exact addEntity_rename hf models entity
    | error failure =>
      -- What fails on its own is no collision, so no class is named in it.
      have hsame : failure.rename f = failure := by
        rw [DefinitionError.rename, Cause.rename_of_kind f (not_collision_of_resolveEntity hr)]
      simp [renameModels, Except.map, hsame]

theorem contains_rename (names : List String) (name : String) :
    (names.map f).contains (f name) = names.contains name := by
  rw [Bool.eq_iff_iff, List.contains_iff_mem, List.contains_iff_mem, List.mem_map_of_injective hf]

/-- A class is a child of the same interfaces after the renaming. -/
theorem linkInterfaces_rename (entities : List Entity) (entity : Entity) :
    linkInterfaces (entities.map (Entity.rename f)) (entity.rename f) =
      (linkInterfaces entities entity).rename f := by
  cases entity with
  | interface model => rfl
  | object model =>
    have hinterfaces : (entities.map (Entity.rename f)).filterMap Entity.interface? =
        (entities.filterMap Entity.interface?).map (InterfaceModel.rename f) := by
      rw [List.filterMap_map, List.map_filterMap]
      congr 1
      funext other
      cases other with
      | object _ => rfl
      | interface _ => rfl
    -- A name is among the children before the renaming exactly if it is so after it.
    have hchild : (fun interface : InterfaceModel => interface.children.contains (f model.name)) ∘
        InterfaceModel.rename f = fun interface => interface.children.contains model.name := by
      funext interface
      exact contains_rename hf interface.children model.name
    simp only [Entity.rename, linkInterfaces, hinterfaces, ObjectModel.rename]
    rw [List.filter_map, hchild, List.map_map, List.map_map]
    rfl

theorem foldl_addSchema_rename (h : Renames f known known') (options : Options)
    (entries : Fields SchemaOrRef) (models : Resolution Entity) :
    List.foldl (addSchema known' options) (renameModels f models) entries =
      renameModels f (List.foldl (addSchema known options) models entries) := by
  induction entries generalizing models with
  | nil => rfl
  | cons entry rest ih =>
    rw [List.foldl_cons, List.foldl_cons, addSchema_rename hf h]
    exact ih _

theorem map_linkInterfaces_rename (entities : List Entity) :
    (entities.map (Entity.rename f)).map (linkInterfaces (entities.map (Entity.rename f))) =
      (entities.map (linkInterfaces entities)).map (Entity.rename f) := by
  rw [List.map_map, List.map_map]
  exact List.map_congr_left fun entity _ => linkInterfaces_rename hf entities entity

end

/-- The table and the models of a document with another naming. -/
def ModelResolution.rename (naming : ClassNaming) (resolution : ModelResolution) :
    ModelResolution :=
  ⟨resolution.known.rename naming, renameModels naming.decorate resolution.models⟩

/-- The models of a document with a naming are those with plain names, renamed. -/
theorem resolveModels_rename (schemas : Fields SchemaOrRef) (options : Options) :
    resolveModels schemas options =
      (resolveModels schemas { options with naming := .plain }).rename options.naming := by
  have hf := options.naming.decorate_injective
  have hrenames := KnownTypes.renames_rename
    (@KnownTypes.naming_scan schemas .plain options.admits) options.naming
  -- Which schemas get models does not depend on the naming.
  have hmodels := foldl_addSchema_rename hf hrenames options schemas .none
  rw [← KnownTypes.scan_rename] at hmodels
  change List.foldl _ Resolution.none schemas = _ at hmodels
  simp only [resolveModels, hmodels, renameModels, map_linkInterfaces_rename hf]
  rw [KnownTypes.scan_rename]
  rfl

end Model

end FunctionForge
