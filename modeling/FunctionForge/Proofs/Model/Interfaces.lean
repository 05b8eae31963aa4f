import FunctionForge.Proofs.NameClashes

/-!
# Interfaces in the place of classes

A parent, and the class of a property that starts with a new instance, are names that references
stand for.  Nothing asks whether the schema behind the name gets a class or an interface.  So an
interface is the parent of a class exactly if a member of `allOf` refers to it, and a new instance
is made of it exactly if a required property refers to it (`interface_in_place_of_class_iff`); a
union may even be the parent of its own member (`lodgingModels_eq`).
-/

namespace FunctionForge.Model

open Document (Schema SchemaOrRef)

variable {known : KnownTypes} {schemas : Fields SchemaOrRef} {options : Options}

/-! ### Properties -/

namespace Property

variable {site : PropertySite} {property : Property}

/-- A property starts with a new instance of a class. -/
def StartsWithNew (property : Property) (className : String) : Prop :=
  property.typeRef = .entity className ∧ property.defaultValue = some .newInstance

theorem not_startsWithNew_of_ofSchema {schema : Schema} (className : String)
    (h : ofSchema known site schema = .ok property) :
    property.name = site.name ∧ ¬property.StartsWithNew className := by
  unfold ofSchema at h
  split at h
  · obtain ⟨items, item, -, -, rfl⟩ := ofList_eq_ok h
    exact ⟨rfl, fun hnew => absurd hnew.1 nofun⟩
  · obtain ⟨values, value, -, -, rfl⟩ := ofMap_eq_ok h
    exact ⟨rfl, fun hnew => absurd hnew.1 nofun⟩
  · obtain ⟨type, defaultValue, table, -, -, -, rfl⟩ := ofScalar_eq_ok h
    exact ⟨rfl, fun hnew => absurd hnew.1 nofun⟩

theorem startsWithNew_ofEntity_iff {className other : String} :
    (ofEntity site other).StartsWithNew className ↔ site.required = true ∧ other = className := by
  unfold StartsWithNew ofEntity
  cases site.required with
  | true => simp
  | false => simp

theorem startsWithNew_of_ofRef_iff {path : String} (className : String)
    (h : ofRef known site path = .ok property) :
    property.name = site.name ∧
      (property.StartsWithNew className ↔
        site.required = true ∧ known.resolve path = .entity className) := by
  unfold ofRef at h
  split at h
  · rename_i body hr
    obtain ⟨hname, hnot⟩ := not_startsWithNew_of_ofSchema className h
    refine ⟨hname, fun hnew => absurd hnew hnot, fun ⟨_, he⟩ => ?_⟩
    rw [hr] at he
    cases he
  · rename_i other hr
    obtain rfl := Except.ok.inj h
    refine ⟨rfl, ?_⟩
    rw [startsWithNew_ofEntity_iff, hr, ResolvedRef.entity.injEq]

/-- A property starts with a new instance of the class that it refers to if it is required. -/
theorem startsWithNew_iff {key : String} {required : Bool} {position : SchemaOrRef}
    (className : String) (h : resolve known key required position = .ok property) :
    property.name = key ∧
      (property.StartsWithNew className ↔ required = true ∧
        ∃ path, wrappedRef? position = some path ∧ known.resolve path = .entity className) := by
  obtain ⟨schema, rfl, hw, hs⟩ | ⟨path, description, hw, hr⟩ := resolve_cases h
  · obtain ⟨hname, hnot⟩ := not_startsWithNew_of_ofSchema className hs
    refine ⟨hname, fun hnew => absurd hnew hnot, ?_⟩
    rintro ⟨-, path, hpath, -⟩
    rw [hw] at hpath
    cases hpath
  · obtain ⟨hname, hiff⟩ := startsWithNew_of_ofRef_iff className hr
    refine ⟨hname, hiff.trans (and_congr_right fun _ => ?_)⟩
    simp only [hw, Option.some.injEq, exists_eq_left']

end Property

theorem forall₂_of_resolveProperties {rawName : String} {body : Schema}
    {fields : Fields SchemaOrRef} {properties : List Property} (className : String)
    (h : resolveProperties known rawName body fields = .ok properties) :
    List.Forall₂ (fun field property => property.name = field.1 ∧
      (property.StartsWithNew className ↔ body.requires field.1 = true ∧
        ∃ path, wrappedRef? field.2 = some path ∧ known.resolve path = .entity className))
      fields properties :=
  (resolveProperties_eq_ok_iff.mp h).imp fun _ _ hr => Property.startsWithNew_iff className hr

/-! ### Parents -/

theorem parent_of_foldlM_iff {members : List SchemaOrRef} {before after : Inheritance}
    (name : String) (h : members.foldlM (addInherited known) before = .ok after) :
    after.parent = some name ↔ before.parent = some name ∨
      ∃ path, .ref path ∈ members ∧ known.resolve path = .entity name := by
  induction members generalizing before with
  | nil =>
    obtain rfl := Except.ok.inj h
    simp
  | cons member rest ih =>
    rw [List.foldlM_cons] at h
    obtain ⟨next, hnext, h⟩ := bind_eq_ok.mp h
    rw [ih h]
    obtain ⟨path, className, rfl, hnone, hr, rfl⟩ | ⟨part, rfl, rfl | ⟨-, rfl⟩⟩ :=
      addInherited_eq_ok hnext
    -- A reference is only added while there is no parent, so that it never replaces one.
    · simp [hnone, hr, or_and_right, exists_or]
    · simp
    · simp

/-- The parent is the class that a member of `allOf` refers to. -/
theorem parent_of_inheritance_iff {schema : Schema} {inherited : Inheritance} (name : String)
    (h : inheritance known schema = .ok inherited) :
    inherited.parent = some name ↔
      ∃ path, .ref path ∈ schema.allOf ∧ known.resolve path = .entity name := by
  rw [inheritance] at h
  split_ifs at h with hall
  · obtain rfl := Except.ok.inj h
    simp [List.isEmpty_iff.mp hall]
  · simpa using parent_of_foldlM_iff name h

/-! ### Documents -/

theorem resolveEntity_eq_object_iff {rawName : String} {schema : Schema} {model : ObjectModel} :
    resolveEntity known rawName schema = .ok (.object model) ↔
      schema.oneOf = [] ∧ resolveObject known rawName schema = .ok model := by
  rw [resolveEntity]
  by_cases hone : schema.oneOf = []
  · rw [if_pos (List.isEmpty_iff.mpr hone), and_iff_right hone, map_eq_ok]
    simp
  · rw [if_neg (mt List.isEmpty_iff.mp hone)]
    refine iff_of_false (fun h => ?_) fun h => hone h.1
    split at h
    · cases h
    · cases h

/-- A class is that of a component that is no union. -/
theorem exists_entry_of_object {model : ObjectModel}
    (h : .object model ∈ (resolveModels schemas options).models.items) :
    ∃ schema made, (model.rawName, .inline schema) ∈ schemas ∧ schema.oneOf = [] ∧
      resolveObject (resolveModels schemas options).known model.rawName schema = .ok made ∧
      model.parent = made.parent ∧ model.properties = made.properties := by
  obtain ⟨key, schema, entity, entities, hm, hr, hlink⟩ := exists_linked_of_item h
  cases entity with
  | interface other => cases hlink
  | object made =>
    obtain rfl := Entity.object.inj hlink
    obtain ⟨hone, hmade⟩ := resolveEntity_eq_object_iff.mp hr
    obtain rfl : made.rawName = key := rawName_of_resolveEntity hr
    exact ⟨schema, made, hm, hone, hmade, rfl, rfl⟩

/-- No class has the name of an interface. -/
theorem name_ne_of_interface {interface : InterfaceModel} {model : ObjectModel}
    (hi : .interface interface ∈ (resolveModels schemas options).models.items)
    (hm : .object model ∈ (resolveModels schemas options).models.items) :
    model.name ≠ interface.name := by
  intro heq
  have hsame := List.inj_on_of_nodup_map nodup_names hm hi heq
  cases hsame

/-- An interface is no class, and yet it is the parent of each class whose `allOf` refers to it, and
each required property that refers to it starts with a new instance of it; nothing else has it as
its parent or starts so. -/
theorem interface_in_place_of_class_iff {interface : InterfaceModel}
    (hi : .interface interface ∈ (resolveModels schemas options).models.items) :
    let known := (resolveModels schemas options).known
    ∀ model : ObjectModel, .object model ∈ (resolveModels schemas options).models.items →
      model.name ≠ interface.name ∧
      ∃ schema inherited, (model.rawName, .inline schema) ∈ schemas ∧ schema.oneOf = [] ∧
        inheritance known schema = .ok inherited ∧
        (model.parent = some interface.name ↔
          ∃ path, .ref path ∈ schema.allOf ∧ known.resolve path = .entity interface.name) ∧
        let body := inherited.body.getD .blank
        List.Forall₂ (fun field property => property.name = field.1 ∧
          (property.typeRef = .entity interface.name ∧
              property.defaultValue = some .newInstance ↔
            body.requires field.1 = true ∧ ∃ path, wrappedRef? field.2 = some path ∧
              known.resolve path = .entity interface.name))
          body.properties model.properties := by
  intro known model hm
  obtain ⟨schema, made, hentry, hone, hmade, hparent, hproperties⟩ := exists_entry_of_object hm
  obtain ⟨inherited, properties, hinheritance, hp, -, rfl, hinherited⟩ := resolveObject_eq_ok hmade
  -- The parent and the properties were made without regard to what kind of model they refer to.
  refine ⟨name_ne_of_interface hi hm, schema, inherited, hentry, hone, hinheritance, ?_, ?_⟩
  · rw [hparent, hinherited]
    exact parent_of_inheritance_iff interface.name hinheritance
  · rw [hproperties]
    exact forall₂_of_resolveProperties interface.name hp

/-! ### A lodging -/

/-- The schemas of a lodging: a cat, which takes after all pets, lodges in a kennel, and all pets
are cats. -/
def lodgingSchemas : Fields SchemaOrRef :=
  [("Cat", .inline { Schema.blank with allOf := [.ref "#/components/schemas/Pet"] }),
    ("Kennel", .inline { Schema.blank with
      types := some (.single .object)
      required := ["pet"]
      properties := [("pet", .ref "#/components/schemas/Pet")] }),
    ("Pet", .inline { Schema.blank with
      oneOf := [.ref "#/components/schemas/Cat"]
      discriminator := some ⟨"kind", []⟩ })]

/-- The interface of the pets in a lodging. -/
def lodgingPet : InterfaceModel :=
  ⟨"Pet", "Pet", none, ["Cat"], "Kind", [("Cat", "Cat")]⟩

/-- The cat takes after the interface of the pets since its schema refers to them. -/
theorem interface_in_place_of_class_iff_cat :
    let known := (resolveModels lodgingSchemas .plain).known
    .interface lodgingPet ∈ (resolveModels lodgingSchemas .plain).models.items ∧
      ∃ cat schema path, .object cat ∈ (resolveModels lodgingSchemas .plain).models.items ∧
        cat.parent = some lodgingPet.name ∧ cat.name ≠ lodgingPet.name ∧
        (cat.rawName, .inline schema) ∈ lodgingSchemas ∧ .ref path ∈ schema.allOf ∧
        known.resolve path = .entity lodgingPet.name := by
  intro known
  have hi : .interface lodgingPet ∈ (resolveModels lodgingSchemas .plain).models.items := by
    decide +kernel
  let cat : ObjectModel := ⟨"Cat", "Cat", none, [], some "Pet", ["Pet"], []⟩
  have hm : .object cat ∈ (resolveModels lodgingSchemas .plain).models.items := by
    decide +kernel
  obtain ⟨hname, schema, -, hentry, -, -, hparent, -⟩ := interface_in_place_of_class_iff hi cat hm
  obtain ⟨path, hall, hr⟩ := hparent.mp rfl
  exact ⟨hi, cat, schema, path, hm, rfl, hname, hentry, hall, hr⟩

/-- The interface of the pets is the parent of its own child, and the kennel starts with a new
instance of it. -/
theorem lodgingModels_eq : ∃ cat kennel : ObjectModel,
    (resolveModels lodgingSchemas .plain).models =
      ⟨[.object cat, .object kennel, .interface lodgingPet], []⟩ ∧
    cat.parent = some lodgingPet.name ∧ lodgingPet.children = [cat.name] ∧
    ∃ property ∈ kennel.properties, property.typeRef = .entity lodgingPet.name ∧
      property.defaultValue = some .newInstance :=
  ⟨⟨"Cat", "Cat", none, [], some "Pet", ["Pet"], []⟩,
    ⟨"Kennel", "Kennel", none, [Property.ofEntity ⟨"pet", true, false, none⟩ "Pet"], none, [], []⟩,
    by decide +kernel, rfl, rfl, _, List.mem_singleton_self _, rfl, rfl⟩

end FunctionForge.Model
