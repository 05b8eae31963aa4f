import FunctionForge.Proofs.Model.Coverage
import FunctionForge.Proofs.Union

/-!
# Interfaces and unions in bodies

A union is made into an interface of the models and into the body of a request, each by a loop of
its own over the members.  Both come to a result for the same schemas
(`exists_interface_iff_exists_union`), and then the children and the candidates are the same, and so
are the mappings.  So a body that refers to a component with an interface is dispatched over the
children of that interface (`interface_agrees_with_union`).
-/

namespace FunctionForge

open Document (Schema SchemaOrRef)
open Endpoint (jsonMediaType jsonSchema? resolveBody resolveElement resolveUnion unionSchema?)
open FunctionForge.Union
open Model (InterfaceModel Options resolveEntity resolveInterface resolveModels)
open Naming (refName)

variable {known : KnownTypes} {schema : Schema} {schemas : Fields SchemaOrRef} {options : Options}
  {rawName path : String} {model : InterfaceModel}

/-! ### One schema -/

/-- A schema gives an interface exactly if it gives a union. -/
theorem exists_interface_iff_exists_union :
    (∃ model, resolveInterface known rawName schema = .ok model) ↔
      ∃ summary, resolveUnion known schema = .ok summary := by
  simp only [Model.resolveInterface_eq_ok_iff, Endpoint.resolveUnion_eq_ok_iff]
  constructor
  · rintro ⟨_, discriminator, hd, hall, -⟩
    exact ⟨_, discriminator, hd, hall, rfl⟩
  · rintro ⟨_, discriminator, hd, hall, -⟩
    exact ⟨_, discriminator, hd, hall, rfl⟩

/-- The union of a schema has the children of its interface, in their order, and its mapping. -/
theorem exists_union_of_resolveInterface (h : resolveInterface known rawName schema = .ok model) :
    ∃ discriminator, resolveUnion known schema =
        .ok (.union model.children model.mapping discriminator) ∧
      model.discriminator = Naming.identifier discriminator := by
  obtain ⟨discriminator, hd, hall, rfl⟩ := Model.resolveInterface_eq_ok_iff.mp h
  exact ⟨_, Endpoint.resolveUnion_eq_ok_iff.mpr ⟨discriminator, hd, hall, rfl⟩, rfl⟩

theorem values_mapping_subset_children (h : resolveInterface known rawName schema = .ok model) :
    model.mapping.values ⊆ model.children := by
  obtain ⟨discriminator, -, -, rfl⟩ := Model.resolveInterface_eq_ok_iff.mp h
  exact Fields.values_ofList_subset _

theorem not_isAlias_of_mem_children (h : resolveInterface known rawName schema = .ok model) :
    ∀ child ∈ model.children, known.isAlias child = false := by
  obtain ⟨discriminator, -, hall, rfl⟩ := Model.resolveInterface_eq_ok_iff.mp h
  exact not_isAlias_of_admissible hall

/-! ### Documents -/

/-- A schema gets an interface exactly if it has members of which one can be made. -/
theorem resolveEntity_eq_interface_iff :
    resolveEntity known rawName schema = .ok (.interface model) ↔
      schema.oneOf ≠ [] ∧ resolveInterface known rawName schema = .ok model := by
  rw [resolveEntity]
  by_cases hone : schema.oneOf = []
  · rw [if_pos (by rw [hone]; rfl), map_eq_ok]
    constructor
    · rintro ⟨_, _, h⟩
      cases h
    · exact fun h => absurd hone h.1
  · rw [if_neg (by simpa using hone), and_iff_right hone]
    cases resolveInterface known rawName schema with
    | ok other => simp
    | error cause =>
      constructor
      · intro h
        cases h
      · intro h
        cases h

/-- An interface is that of a component with a union. -/
theorem exists_entry_of_interface
    (h : .interface model ∈ (resolveModels schemas options).models.items) :
    ∃ schema, (model.rawName, .inline schema) ∈ schemas ∧ schema.oneOf ≠ [] ∧
      resolveInterface (resolveModels schemas options).known model.rawName schema = .ok model := by
  obtain ⟨key, schema, entity, entities, hm, hr, hlink⟩ := Model.exists_linked_of_item h
  cases entity with
  | object other => exact absurd hlink nofun
  | interface other =>
    obtain rfl := Model.Entity.interface.inj hlink
    obtain ⟨hone, hi⟩ := resolveEntity_eq_interface_iff.mp hr
    have hraw : other.rawName = key := by
      obtain ⟨_, -, -, rfl⟩ := Model.resolveInterface_eq_ok_iff.mp hi
      rfl
    rw [hraw]
    exact ⟨schema, hm, hone, hi⟩

/-- A body in JSON is a union if its schema leads to one, and else of one type. -/
theorem resolveBody_of_json {mediaType : String} (known : KnownTypes)
    (schemas : Fields SchemaOrRef) (position : SchemaOrRef)
    (h : Text.sameIgnoringCase mediaType jsonMediaType = true) :
    resolveBody known schemas [(mediaType, ⟨some position⟩)] =
      match unionSchema? schemas position with
      | some union => (resolveUnion known union).map some
      | none => (resolveElement known position).map fun type => some (.simple type) := by
  simp only [resolveBody, jsonSchema?, if_pos h, bind, Except.bind]
  cases unionSchema? schemas position with
  | some union =>
    simp only
    cases resolveUnion known union with
    | ok _ => rfl
    | error _ => rfl
  | none =>
    simp only
    cases resolveElement known position with
    | ok _ => rfl
    | error _ => rfl

/-- A reference to a component with a union leads to that union. -/
theorem unionSchema?_of_component (hk : schemas.get? (refName path) = some (.inline schema))
    (hone : schema.oneOf ≠ []) : unionSchema? schemas (.ref path) = some schema := by
  rw [unionSchema?]
  simp only [hk, Option.bind_some, SchemaOrRef.schema?]
  rw [Option.filter_some, if_pos]
  simpa using hone

/-- A schema gives an interface exactly if it gives the union of a body, and then both have the same
members and the same mapping, which maps to these members, and no member is an alias.  A body that
refers to a component with an interface is the union of its children. -/
theorem interface_agrees_with_union (hd : schemas.keys.Nodup) :
    (∀ (known : KnownTypes) (rawName : String) (schema : Schema),
      ((∃ model, resolveInterface known rawName schema = .ok model) ↔
        ∃ summary, resolveUnion known schema = .ok summary) ∧
      ∀ model, resolveInterface known rawName schema = .ok model →
        (∃ discriminator, resolveUnion known schema =
            .ok (.union model.children model.mapping discriminator) ∧
          model.discriminator = Naming.identifier discriminator) ∧
        model.mapping.values ⊆ model.children ∧
        ∀ child ∈ model.children, known.isAlias child = false) ∧
    ∀ model, .interface model ∈ (resolveModels schemas options).models.items →
      ∀ path mediaType, refName path = model.rawName →
        Text.sameIgnoringCase mediaType jsonMediaType = true →
        ∃ discriminator, resolveBody (resolveModels schemas options).known schemas
            [(mediaType, ⟨some (.ref path)⟩)] =
              .ok (some (.union model.children model.mapping discriminator)) ∧
          model.discriminator = Naming.identifier discriminator := by
  refine ⟨fun known rawName schema => ⟨exists_interface_iff_exists_union, fun model h =>
    ⟨exists_union_of_resolveInterface h, values_mapping_subset_children h,
      not_isAlias_of_mem_children h⟩⟩, fun model hm path mediaType hp hj => ?_⟩
  obtain ⟨schema, hs, hone, hi⟩ := exists_entry_of_interface hm
  obtain ⟨discriminator, hu, hname⟩ := exists_union_of_resolveInterface hi
  have hk : schemas.get? (refName path) = some (.inline schema) := by
    rw [hp]
    exact Fields.get?_of_mem hd hs
  refine ⟨discriminator, ?_, hname⟩
  simp only [resolveBody_of_json _ _ _ hj, unionSchema?_of_component hk hone, hu]
  rfl

/-! ### A shelter -/

/-- The schemas of a shelter: its pets are cats, and dogs that are guests. -/
def shelterSchemas : Fields SchemaOrRef :=
  [("Cat", .inline Schema.blank), ("Dog", .inline Schema.blank),
    ("Guest", .ref "#/components/schemas/Dog"),
    ("Pet", .inline { Schema.blank with
      oneOf := [.ref "#/components/schemas/Cat", .inline { Schema.blank with required := ["kind"] },
        .ref "#/components/schemas/Guest"]
      discriminator := some ⟨"pet-kind", [("tom", "#/components/schemas/Cat")]⟩ })]

/-- A body that refers to the pets of a shelter is dispatched over cats and dogs. -/
theorem interface_agrees_with_union_shelter :
    shelterSchemas.keys.Nodup ∧
    ∃ model discriminator, .interface model ∈ (resolveModels shelterSchemas .plain).models.items ∧
      model.children = ["Cat", "Dog"] ∧ model.mapping = [("tom", "Cat"), ("Guest", "Dog")] ∧
      resolveBody (resolveModels shelterSchemas .plain).known shelterSchemas
        [("Application/JSON", ⟨some (.ref "pets.json#/components/schemas/Pet")⟩)] =
          .ok (some (.union model.children model.mapping discriminator)) ∧
      Naming.identifier discriminator = "PetKind" := by
  have hd : shelterSchemas.keys.Nodup := by decide +kernel
  obtain ⟨model, hm, hraw, hchildren, hmapping, hname⟩ : ∃ model,
      .interface model ∈ (resolveModels shelterSchemas .plain).models.items ∧
        model.rawName = "Pet" ∧ model.children = ["Cat", "Dog"] ∧
        model.mapping = [("tom", "Cat"), ("Guest", "Dog")] ∧ model.discriminator = "PetKind" :=
    ⟨⟨"Pet", "Pet", none, ["Cat", "Dog"], "PetKind", [("tom", "Cat"), ("Guest", "Dog")]⟩,
      by decide +kernel, rfl, rfl, rfl, rfl⟩
  have hp : refName "pets.json#/components/schemas/Pet" = model.rawName := by
    rw [hraw]
    decide +kernel
  obtain ⟨discriminator, hbody, hidentifier⟩ := (interface_agrees_with_union hd).2 model hm _
    "Application/JSON" hp (by decide +kernel)
  exact ⟨hd, model, discriminator, hm, hchildren, hmapping, hbody, hidentifier.symm.trans hname⟩

end FunctionForge
