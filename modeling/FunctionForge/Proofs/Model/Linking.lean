import FunctionForge.Proofs.Model.Excluding

/-!
# Classes and their interfaces

Linking gives every class the names of the interfaces that it is a child of, and changes nothing
else of a model.  No two models have one name, so a class has an interface exactly if it is a child
of it, however often a union lists the class and wherever it stands; and it has its interfaces once
each, in the order of the models (`Linked`).  Without its interfaces a model is what its schema
comes to by itself (`linked_resolveModels`).
-/

namespace FunctionForge.Model

open Document (Schema SchemaOrRef)

variable {known : KnownTypes} {options : Options} {entities : List Entity}

/-! ### Interfaces among models -/

/-- The names of the interfaces among models, in the order of the models. -/
def interfaceNames (entities : List Entity) : List String :=
  (entities.filterMap Entity.interface?).map InterfaceModel.name

theorem mem_filterMap_interface?_iff {interface : InterfaceModel} :
    interface ∈ entities.filterMap Entity.interface? ↔ .interface interface ∈ entities := by
  rw [List.mem_filterMap]
  constructor
  · rintro ⟨entity, hm, hi⟩
    cases entity with
    | object model => exact absurd hi nofun
    | interface model => rwa [← Option.some.inj hi]
  · exact fun hm => ⟨_, hm, rfl⟩

/-- Interfaces are named in the order of the models. -/
theorem interfaceNames_sublist (entities : List Entity) :
    (interfaceNames entities).Sublist (entities.map Entity.name) := by
  induction entities with
  | nil => exact List.Sublist.refl []
  | cons entity rest ih =>
    cases entity with
    | object model => exact ih.cons _
    | interface model => exact ih.cons_cons _

/-- The interfaces of a class are among those of the models, in their order. -/
theorem interfacesOf_sublist (entities : List Entity) (model : ObjectModel) :
    (interfacesOf entities model).Sublist (interfaceNames entities) :=
  List.filter_sublist.map _

/-- If the names of models are distinct, a class has an interface exactly if it is a child of it. -/
theorem mem_interfacesOf_iff (hd : (entities.map Entity.name).Nodup) {interface : InterfaceModel}
    (hm : .interface interface ∈ entities) (model : ObjectModel) :
    interface.name ∈ interfacesOf entities model ↔ model.name ∈ interface.children := by
  simp only [interfacesOf, List.mem_map, List.mem_filter, mem_filterMap_interface?_iff,
    List.contains_iff_mem]
  constructor
  · rintro ⟨other, ⟨ho, hchild⟩, hname⟩
    -- The name tells which interface it is.
    have hsame : Entity.interface other = .interface interface :=
      List.inj_on_of_nodup_map hd ho hm hname
    rwa [← Entity.interface.inj hsame]
  · exact fun hchild => ⟨interface, ⟨hm, hchild⟩, rfl⟩

/-! ### Linked models -/

/-- Among some models, the classes have exactly the interfaces that they are children of. -/
structure Linked (items : List Entity) : Prop where
  /-- A class has an interface exactly if it is a child of it. -/
  mem_interfaces_iff : ∀ model, .object model ∈ items → ∀ interface, .interface interface ∈ items →
    (interface.name ∈ model.interfaces ↔ model.name ∈ interface.children)
  /-- A class has an interface once. -/
  nodup : ∀ model, .object model ∈ items → model.interfaces.Nodup
  /-- The interfaces of a class are among those of the models, in their order. -/
  sublist : ∀ model, .object model ∈ items → model.interfaces.Sublist (interfaceNames items)

theorem interfaceNames_map_linkInterfaces (others entities : List Entity) :
    interfaceNames (entities.map (linkInterfaces others)) = interfaceNames entities := by
  have hkept : Entity.interface? ∘ linkInterfaces others = Entity.interface? := by
    funext entity
    rw [Function.comp_apply, interface?_linkInterfaces]
  rw [interfaceNames, List.filterMap_map, hkept, interfaceNames]

theorem interface_mem_map_linkInterfaces_iff {others : List Entity} {interface : InterfaceModel} :
    .interface interface ∈ entities.map (linkInterfaces others) ↔
      .interface interface ∈ entities := by
  constructor
  · intro hm
    obtain ⟨entity, he, hlink⟩ := List.mem_map.mp hm
    cases entity with
    | object model => exact absurd hlink nofun
    | interface model => rwa [← hlink]
  · exact fun hm => List.mem_map.mpr ⟨_, hm, rfl⟩

theorem exists_of_object_mem_map_linkInterfaces {others : List Entity} {model : ObjectModel}
    (h : .object model ∈ entities.map (linkInterfaces others)) :
    ∃ original, .object original ∈ entities ∧
      model = { original with interfaces := interfacesOf others original } := by
  obtain ⟨entity, he, hlink⟩ := List.mem_map.mp h
  cases entity with
  | interface interface => exact absurd hlink nofun
  | object original =>
    rw [linkInterfaces_object] at hlink
    exact ⟨original, he, (Entity.object.inj hlink).symm⟩

/-- Where no two models have one name, linking links them all. -/
theorem linked_map_linkInterfaces (hd : (entities.map Entity.name).Nodup) :
    Linked (entities.map (linkInterfaces entities)) where
  mem_interfaces_iff := by
    intro model hmodel interface hinterface
    obtain ⟨original, -, rfl⟩ := exists_of_object_mem_map_linkInterfaces hmodel
    exact mem_interfacesOf_iff hd (interface_mem_map_linkInterfaces_iff.mp hinterface) original
  nodup := by
    intro model hmodel
    obtain ⟨original, -, rfl⟩ := exists_of_object_mem_map_linkInterfaces hmodel
    have hnames := (interfacesOf_sublist entities original).trans (interfaceNames_sublist entities)
    exact hnames.nodup hd
  sublist := by
    intro model hmodel
    obtain ⟨original, -, rfl⟩ := exists_of_object_mem_map_linkInterfaces hmodel
    rw [interfaceNames_map_linkInterfaces]
    exact interfacesOf_sublist entities original

/-! ### What linking leaves as it is -/

/-- A model with some interfaces in the place of those that it has, if it is a class. -/
def Entity.withInterfaces (names : List String) : Entity → Entity
  | .object model => .object { model with interfaces := names }
  | .interface model => .interface model

@[simp]
theorem withInterfaces_linkInterfaces (entities : List Entity) (entity : Entity)
    (names : List String) :
    (linkInterfaces entities entity).withInterfaces names = entity.withInterfaces names := by
  cases entity with
  | object model => rfl
  | interface model => rfl

/-- A class has no interfaces before it is linked. -/
theorem interfaces_of_resolveObject {rawName : String} {schema : Schema} {model : ObjectModel}
    (h : resolveObject known rawName schema = .ok model) : model.interfaces = [] := by
  obtain ⟨inherited, properties, -, -, rfl⟩ := resolveObject_eq_ok_iff.mp h
  rfl

/-- By itself, a schema comes to a model without interfaces. -/
theorem withInterfaces_of_resolveEntity {rawName : String} {schema : Schema} {entity : Entity}
    (h : resolveEntity known rawName schema = .ok entity) : entity.withInterfaces [] = entity := by
  cases entity with
  | interface interface => rfl
  | object model =>
    rw [resolveEntity] at h
    split_ifs at h
    · obtain ⟨found, hf, hobject⟩ := map_eq_ok.mp h
      obtain rfl := Entity.object.inj hobject
      have hnone := interfaces_of_resolveObject hf
      rw [Entity.withInterfaces, ← hnone]
    · split at h
      · cases h
      · cases h

/-! ### Documents -/

/-- The classes of a document have exactly the interfaces that they are children of, and apart from
these every model is what its schema comes to. -/
theorem linked_resolveModels (schemas : Fields SchemaOrRef) (options : Options) :
    let resolution := resolveModels schemas options
    Linked resolution.models.items ∧
      ∀ item ∈ resolution.models.items, ∃ schema, (item.rawName, .inline schema) ∈ schemas ∧
        resolveEntity resolution.known item.rawName schema = .ok (item.withInterfaces []) := by
  intro resolution
  have hd : ((List.foldl (addSchema resolution.known options) .none schemas).items.map
      Entity.name).Nodup := nodup_names_foldl
  refine ⟨linked_map_linkInterfaces hd, fun item hm => ?_⟩
  obtain ⟨key, schema, entity, entities, hentry, hr, rfl⟩ := exists_linked_of_item hm
  rw [rawName_linkInterfaces, withInterfaces_linkInterfaces, rawName_of_resolveEntity hr,
    withInterfaces_of_resolveEntity hr]
  exact ⟨schema, hentry, hr⟩

/-! ### A household -/

/-- A union of the schemas of these names. -/
def unionOf (names : List String) : Schema :=
  { Schema.blank with
    oneOf := names.map fun name => .ref ("#/components/schemas/" ++ name)
    discriminator := some ⟨"kind", []⟩ }

/-- The schemas of a household: guests, among which cats are listed twice, before the cats and the
dogs, and pets behind them. -/
def householdSchemas : Fields SchemaOrRef :=
  [("Guest", .inline (unionOf ["Cat", "Dog", "Cat"])), ("Cat", .inline (bare .object)),
    ("Dog", .inline (bare .object)), ("Pet", .inline (unionOf ["Cat"]))]

/-- A cat of the household has both interfaces once, and a dog is no pet. -/
theorem linked_resolveModels_household :
    let items := (resolveModels householdSchemas .plain).models.items
    ∃ cat dog guest pet, .object cat ∈ items ∧ .object dog ∈ items ∧ .interface guest ∈ items ∧
      .interface pet ∈ items ∧ guest.children = ["Cat", "Dog", "Cat"] ∧
      guest.name ∈ cat.interfaces ∧ pet.name ∈ cat.interfaces ∧ cat.interfaces.Nodup ∧
      guest.name ∈ dog.interfaces ∧ pet.name ∉ dog.interfaces := by
  intro items
  let cat : ObjectModel := ⟨"Cat", "Cat", none, [], none, ["Guest", "Pet"], []⟩
  let dog : ObjectModel := ⟨"Dog", "Dog", none, [], none, ["Guest"], []⟩
  let guest : InterfaceModel :=
    ⟨"Guest", "Guest", none, ["Cat", "Dog", "Cat"], "Kind", [("Cat", "Cat"), ("Dog", "Dog")]⟩
  let pet : InterfaceModel := ⟨"Pet", "Pet", none, ["Cat"], "Kind", [("Cat", "Cat")]⟩
  have hitems : items = [.interface guest, .object cat, .object dog, .interface pet] := by
    decide +kernel
  obtain ⟨hcat, hdog, hguest, hpet⟩ : .object cat ∈ items ∧ .object dog ∈ items ∧
      .interface guest ∈ items ∧ .interface pet ∈ items := by
    rw [hitems]
    simp
  obtain ⟨hlinked, -⟩ := linked_resolveModels householdSchemas .plain
  have hiff := hlinked.mem_interfaces_iff
  refine ⟨cat, dog, guest, pet, hcat, hdog, hguest, hpet, rfl, ?_, ?_, hlinked.nodup cat hcat, ?_,
    ?_⟩
  · exact (hiff cat hcat guest hguest).mpr (by decide)
  · exact (hiff cat hcat pet hpet).mpr (by decide)
  · exact (hiff dog hdog guest hguest).mpr (by decide)
  · exact mt (hiff dog hdog pet hpet).mp (by decide)

end FunctionForge.Model
