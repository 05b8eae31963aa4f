import FunctionForge.Model.Entity
import FunctionForge.Proofs.Result

/-!
# What keeps a schema from having a model

Whether a class name is taken is only asked when the models of a document are put together.  The
model of a single schema may fail for other causes, but never for a collision of names
(`not_collision_of_resolveEntity`).  The proof goes through the steps of making a model: each of
them either comes to a result or fails with a cause of another kind (`NoCollision`).
-/

namespace FunctionForge

open Document (AdditionalProperties Discriminator Schema SchemaOrRef)

/-- If a step fails, then not because a name is taken. -/
abbrev NoCollision {α : Type} (step : Except Cause α) : Prop :=
  FailsOnly (fun cause => cause.kind ≠ .nameCollision) step

theorem noCollision_ofSchema (schema : Schema) : NoCollision (ScalarType.ofSchema schema) := by
  unfold ScalarType.ofSchema ScalarType.ofType
  split
  · exact .ok _
  · exact .ok _
  · exact .ok _
  · exact .ok _
  · exact .error nofun
  · exact .error nofun

namespace Model

variable {known : KnownTypes}

/-! ### Properties -/

theorem noCollision_scalarDefault (required nullable : Bool) (declared : Option Value) :
    NoCollision (scalarDefault required nullable declared) := by
  unfold scalarDefault
  cases declared with
  | none => exact .ok _
  | some value =>
    refine .map ?_ _
    cases value with
    | array _ | object _ => exact .error nofun
    | null | bool _ | number _ | string _ => exact .ok _

theorem noCollision_enumTable? (property : String) (type : ScalarType) (values : List Value) :
    NoCollision (enumTable? property type values) := by
  unfold enumTable?
  split_ifs
  · exact .ok _
  · refine .map (.bind (.foldlM ?_ _ _) fun _ => .ok _) _
    intro constants constant
    unfold addConstant
    split
    · exact .error nofun
    · exact .ok _

theorem noCollision_ofList (site : PropertySite) (schema : Schema) :
    NoCollision (Property.ofList known site schema) := by
  unfold Property.ofList
  cases schema.items with
  | none => exact .error nofun
  | some items =>
    simp only
    split
    · exact .ok _
    · exact .error nofun

theorem noCollision_ofMap (site : PropertySite) (schema : Schema) :
    NoCollision (Property.ofMap known site schema) := by
  unfold Property.ofMap
  split_ifs
  · exact .error nofun
  · simp only
    split
    · split
      · exact .ok _
      · exact .error nofun
    · exact .error nofun

theorem noCollision_ofScalar (site : PropertySite) (schema : Schema) :
    NoCollision (Property.ofScalar site schema) := by
  unfold Property.ofScalar
  split_ifs
  · exact .error nofun
  · refine (noCollision_ofSchema schema).bind fun type => ?_
    refine (noCollision_scalarDefault _ _ _).bind fun defaultValue => ?_
    exact (noCollision_enumTable? _ _ _).bind fun enumTable => .ok _

theorem noCollision_ofPlainSchema (site : PropertySite) (schema : Schema) :
    NoCollision (Property.ofSchema known site schema) := by
  unfold Property.ofSchema
  split
  · exact noCollision_ofList site schema
  · exact noCollision_ofMap site schema
  · exact noCollision_ofScalar site schema

theorem noCollision_ofRef (site : PropertySite) (path : String) :
    NoCollision (Property.ofRef known site path) := by
  unfold Property.ofRef
  split
  · exact noCollision_ofPlainSchema site _
  · exact .ok _

/-- A property fails for causes of its own schema. -/
theorem noCollision_resolve (name : String) (required : Bool) (schema : SchemaOrRef) :
    NoCollision (Property.resolve known name required schema) := by
  cases schema with
  | ref path => exact noCollision_ofRef _ path
  | inline schema =>
    simp only [Property.resolve]
    split
    · exact noCollision_ofPlainSchema _ schema
    · exact .error nofun
    · exact noCollision_ofRef _ _
    · exact .error nofun
    · exact noCollision_ofRef _ _
    · exact .error nofun

/-! ### Classes and interfaces -/

/-- The members of an object are at fault, and never the name of its class. -/
theorem noCollision_inheritance (schema : Schema) : NoCollision (inheritance known schema) := by
  unfold inheritance
  split_ifs
  · exact .ok _
  · refine .foldlM ?_ _ _
    intro inherited member
    unfold addInherited
    split
    · split_ifs
      · exact .error nofun
      · split
        · exact .ok _
        · exact .error nofun
    · split_ifs
      · exact .error nofun
      · exact .ok _
      · exact .ok _

/-- An interface fails for its discriminator or its members. -/
theorem noCollision_resolveInterface (rawName : String) (schema : Schema) :
    NoCollision (resolveInterface known rawName schema) := by
  unfold resolveInterface
  cases schema.discriminator with
  | none => exact .error nofun
  | some discriminator =>
    refine .bind (.foldlM ?_ _ _) fun _ => .ok _
    intro members member
    unfold addChild
    split
    · split
      · exact .error nofun
      · exact .ok _
    · split_ifs
      · exact .ok _
      · exact .error nofun

/-- Of several properties, the first one that fails does so for causes of its own. -/
theorem not_collision_of_resolveProperties {rawName : String} {body : Schema}
    {fields : Fields SchemaOrRef} {failure : DefinitionError}
    (h : resolveProperties known rawName body fields = .error failure) :
    failure.cause.kind ≠ .nameCollision := by
  induction fields with
  | nil => exact absurd h nofun
  | cons field rest ih =>
    obtain ⟨name, schema⟩ := field
    rw [resolveProperties] at h
    cases hr : Property.resolve known name (body.requires name) schema with
    | error cause =>
      rw [hr] at h
      obtain rfl := Except.error.inj h
      exact noCollision_resolve name _ schema cause hr
    | ok property =>
      rw [hr] at h
      cases ho : resolveProperties known rawName body rest with
      | error other =>
        rw [ho] at h
        obtain rfl := Except.error.inj h
        exact ih ho
      | ok others =>
        rw [ho] at h
        exact absurd h nofun

theorem not_collision_of_resolveObject {rawName : String} {schema : Schema}
    {failure : DefinitionError} (h : resolveObject known rawName schema = .error failure) :
    failure.cause.kind ≠ .nameCollision := by
  unfold resolveObject at h
  -- An object fails for what it inherits, or for a property.
  cases hi : inheritance known schema with
  | error cause =>
    rw [hi] at h
    obtain rfl := Except.error.inj h
    exact noCollision_inheritance schema cause hi
  | ok inherited =>
    simp only [hi] at h
    cases hp : resolveProperties known rawName (inherited.body.getD .blank)
        (inherited.body.getD .blank).properties with
    | ok properties =>
      simp only [bind, Except.bind, hp] at h
      exact absurd h nofun
    | error other =>
      simp only [bind, Except.bind, hp] at h
      obtain rfl := Except.error.inj h
      exact not_collision_of_resolveProperties hp

/-- A single schema does not fail because a name is taken. -/
theorem not_collision_of_resolveEntity {rawName : String} {schema : Schema}
    {failure : DefinitionError} (h : resolveEntity known rawName schema = .error failure) :
    failure.cause.kind ≠ .nameCollision := by
  unfold resolveEntity at h
  split_ifs at h
  · cases ho : resolveObject known rawName schema with
    | ok model =>
      rw [ho] at h
      exact absurd h nofun
    | error other =>
      rw [ho] at h
      obtain rfl := Except.error.inj h
      exact not_collision_of_resolveObject ho
  · split at h
    · exact absurd h nofun
    · rename_i cause hc
      obtain rfl := Except.error.inj h
      exact noCollision_resolveInterface rawName schema cause hc

end Model

end FunctionForge
