import FunctionForge.Proofs.Model.Mentions

/-!
# Which schemas get models

A component that is eligible for a model either gets one of its class name or is accounted for by a
failure at its place or at that of one of its properties (`accounted_of_eligible`).  What has been
generated or has failed stays so while further components are looked at (`Grows`), and linking
interfaces changes neither the names of models nor what they are made of.
-/

namespace FunctionForge.Model

open Document (Schema SchemaOrRef)

variable {known : KnownTypes} {options : Options}

/-! ### Places of failures -/

/-- The names of the properties that a schema declares itself or in a member of `allOf`. -/
def declaredProperties (schema : Schema) : List String :=
  schema.properties.map Prod.fst ++ schema.allOf.flatMap fun member =>
    match member with
    | .ref _ => []
    | .inline body => body.properties.map Prod.fst

/-- A failure is at the place of a schema or of one of its properties. -/
def IsAt (key : String) (schema : Schema) (failure : DefinitionError) : Prop :=
  failure.location = key ∨
    ∃ property ∈ declaredProperties schema, failure.location = key ++ "." ++ property

/-- If a property cannot be made, the failure is at that property. -/
theorem location_of_resolveProperties {rawName : String} {body : Schema}
    {fields : Fields SchemaOrRef} {failure : DefinitionError}
    (h : resolveProperties known rawName body fields = .error failure) :
    ∃ property ∈ fields.keys, failure.location = rawName ++ "." ++ property := by
  induction fields with
  | nil => cases h
  | cons field rest ih =>
    obtain ⟨key, schema⟩ := field
    rw [resolveProperties] at h
    -- The first property that fails is the one that is reported.
    cases hr : Property.resolve known key (body.requires key) schema with
    | error cause =>
      rw [hr] at h
      obtain rfl := Except.error.inj h
      exact ⟨key, List.mem_cons_self, rfl⟩
    | ok first =>
      rw [hr] at h
      cases ho : resolveProperties known rawName body rest with
      | error other =>
        rw [ho] at h
        obtain rfl := Except.error.inj h
        obtain ⟨property, hm, hl⟩ := ih ho
        exact ⟨property, List.mem_cons_of_mem _ hm, hl⟩
      | ok others =>
        rw [ho] at h
        cases h

/-- The properties of an inherited body are declared by the schema or by one of its members. -/
theorem keys_subset_declaredProperties {schema body : Schema} {inherited : Inheritance}
    (h : Inherited known schema inherited) (hb : inherited.body = some body) :
    body.properties.map Prod.fst ⊆ declaredProperties schema := by
  intro property hp
  rw [declaredProperties, List.mem_append, List.mem_flatMap]
  rcases h.body body hb with rfl | hm
  · exact Or.inl hp
  · exact Or.inr ⟨_, hm, hp⟩

/-- An object fails at its own place or at that of one of its properties. -/
theorem isAt_of_resolveObject {rawName : String} {schema : Schema} {failure : DefinitionError}
    (h : resolveObject known rawName schema = .error failure) : IsAt rawName schema failure := by
  unfold resolveObject at h
  cases hi : inheritance known schema with
  | error cause =>
    rw [hi] at h
    obtain rfl := Except.error.inj h
    exact Or.inl rfl
  | ok inherited =>
    rw [hi] at h
    cases hp : resolveProperties known rawName (inherited.body.getD .blank)
        (inherited.body.getD .blank).properties with
    | ok properties =>
      simp only [bind, Except.bind, hp] at h
      exact absurd h nofun
    | error cause =>
      simp only [bind, Except.bind, hp] at h
      obtain rfl := Except.error.inj h
      -- Only the properties of the body are resolved, and the schema declares those.
      obtain ⟨property, hm, hl⟩ := location_of_resolveProperties hp
      cases hb : inherited.body with
      | none =>
        rw [hb] at hm
        exact absurd hm List.not_mem_nil
      | some body =>
        rw [hb] at hm
        have hkeys := keys_subset_declaredProperties (inherited_of_inheritance hi) hb
        exact Or.inr ⟨property, hkeys hm, hl⟩

/-- A schema that gets no model fails at its place or at that of one of its properties. -/
theorem isAt_of_resolveEntity {rawName : String} {schema : Schema} {failure : DefinitionError}
    (h : resolveEntity known rawName schema = .error failure) : IsAt rawName schema failure := by
  rw [resolveEntity] at h
  split_ifs at h
  · cases ho : resolveObject known rawName schema with
    | ok model =>
      rw [ho] at h
      cases h
    | error cause =>
      rw [ho] at h
      obtain rfl := Except.error.inj h
      exact isAt_of_resolveObject ho
  · split at h
    · cases h
    · obtain rfl := Except.error.inj h
      exact Or.inl rfl

/-! ### Names of models -/

theorem name_of_resolveInterface {rawName : String} {schema : Schema} {model : InterfaceModel}
    (h : resolveInterface known rawName schema = .ok model) :
    model.name = known.naming.className rawName := by
  unfold resolveInterface at h
  cases hd : schema.discriminator with
  | none =>
    rw [hd] at h
    exact absurd h nofun
  | some discriminator =>
    rw [hd] at h
    obtain ⟨members, -, h⟩ := bind_eq_ok.mp h
    obtain rfl := Except.ok.inj h
    rfl

/-- A model has the class name of its component. -/
theorem name_of_resolveEntity {rawName : String} {schema : Schema} {entity : Entity}
    (h : resolveEntity known rawName schema = .ok entity) :
    entity.name = known.naming.className rawName := by
  rw [resolveEntity] at h
  split_ifs at h
  · obtain ⟨model, hm, rfl⟩ := map_eq_ok.mp h
    obtain ⟨_, _, -, -, hname, -⟩ := resolveObject_eq_ok hm
    exact hname
  · split at h
    · rename_i interface hi
      obtain rfl := Except.ok.inj h
      exact name_of_resolveInterface hi
    · cases h

/-! ### Adding models -/

/-- What has been generated or has failed is still there. -/
structure Grows (models models' : Resolution Entity) : Prop where
  items : models.items ⊆ models'.items
  failures : models.failures ⊆ models'.failures

theorem Grows.refl (models : Resolution Entity) : Grows models models :=
  ⟨fun _ => id, fun _ => id⟩

theorem Grows.trans {models models' models'' : Resolution Entity} (h : Grows models models')
    (h' : Grows models' models'') : Grows models models'' :=
  ⟨fun _ hm => h'.items (h.items hm), fun _ hm => h'.failures (h.failures hm)⟩

theorem grows_addEntity (models : Resolution Entity) (entity : Entity) :
    Grows models (addEntity models entity) := by
  rw [addEntity]
  split
  · exact ⟨fun _ => id, List.subset_append_left _ _⟩
  · exact ⟨List.subset_append_left _ _, fun _ => id⟩

/-- Looking at a component loses neither a model nor a failure. -/
theorem grows_addSchema (models : Resolution Entity) (entry : String × SchemaOrRef) :
    Grows models (addSchema known options models entry) := by
  rw [addSchema]
  split
  · exact .refl models
  · split
    · exact grows_addEntity models _
    · exact ⟨fun _ => id, List.subset_append_left _ _⟩

theorem grows_foldl_addSchema (entries : Fields SchemaOrRef) (models : Resolution Entity) :
    Grows models (List.foldl (addSchema known options) models entries) := by
  induction entries generalizing models with
  | nil => exact .refl models
  | cons entry rest ih => exact (grows_addSchema models entry).trans (ih _)

/-- After a model is added, there is one of its name, be it another one. -/
theorem exists_name_addEntity (models : Resolution Entity) (entity : Entity) :
    ∃ item ∈ (addEntity models entity).items, item.name = entity.name := by
  rw [addEntity]
  split
  · rename_i first hf
    have hname := List.find?_some hf
    exact ⟨first, List.mem_of_find?_eq_some hf, by simpa using hname⟩
  · exact ⟨entity, List.mem_append_right _ (List.mem_singleton_self _), rfl⟩

/-- A schema is modelled under its class name, or a failure says why it is not. -/
def Accounted (naming : Naming.ClassNaming) (models : Resolution Entity) (key : String)
    (schema : Schema) : Prop :=
  (∃ item ∈ models.items, item.name = naming.className key) ∨
    ∃ failure ∈ models.failures, IsAt key schema failure

theorem Accounted.mono {naming : Naming.ClassNaming} {models models' : Resolution Entity}
    {key : String} {schema : Schema} (h : Accounted naming models key schema)
    (hg : Grows models models') : Accounted naming models' key schema := by
  rcases h with ⟨item, hm, hn⟩ | ⟨failure, hm, ha⟩
  · exact Or.inl ⟨item, hg.items hm, hn⟩
  · exact Or.inr ⟨failure, hg.failures hm, ha⟩

theorem accounted_addSchema (models : Resolution Entity) {entry : String × SchemaOrRef}
    {schema : Schema} (h : eligible? options entry = some schema) :
    Accounted known.naming (addSchema known options models entry) entry.1 schema := by
  rw [addSchema, h]
  simp only
  cases hr : resolveEntity known entry.1 schema with
  | ok entity =>
    obtain ⟨item, hm, hn⟩ := exists_name_addEntity models entity
    exact Or.inl ⟨item, hm, hn.trans (name_of_resolveEntity hr)⟩
  | error failure =>
    exact Or.inr ⟨failure, List.mem_append_right _ (List.mem_singleton_self _),
      isAt_of_resolveEntity hr⟩

theorem accounted_foldl {entries : Fields SchemaOrRef} {entry : String × SchemaOrRef}
    {schema : Schema} (hm : entry ∈ entries) (h : eligible? options entry = some schema) :
    Accounted known.naming (List.foldl (addSchema known options) .none entries) entry.1 schema := by
  obtain ⟨before, after, rfl⟩ := List.append_of_mem hm
  -- The component adds a model or a failure, and what comes after it keeps both.
  rw [List.foldl_append, List.foldl_cons]
  exact (accounted_addSchema _ h).mono (grows_foldl_addSchema after _)

/-! ### Linking -/

@[simp]
theorem name_linkInterfaces (entities : List Entity) (entity : Entity) :
    (linkInterfaces entities entity).name = entity.name := by
  cases entity with
  | object model => rfl
  | interface model => rfl

@[simp]
theorem mentions_linkInterfaces (entities : List Entity) (entity : Entity) :
    (linkInterfaces entities entity).mentions = entity.mentions := by
  cases entity with
  | object model => rfl
  | interface model => rfl

/-! ### Documents -/

variable {schemas : Fields SchemaOrRef}

/-- A component that is eligible for a model is modelled, or a failure says why it is not. -/
theorem accounted_of_eligible {entry : String × SchemaOrRef} {schema : Schema}
    (hm : entry ∈ schemas) (h : eligible? options entry = some schema) :
    Accounted options.naming (resolveModels schemas options).models entry.1 schema := by
  have hfold := @accounted_foldl (KnownTypes.scan schemas options.naming options.admits) options
    schemas entry schema hm h
  rw [KnownTypes.naming_scan] at hfold
  rcases hfold with ⟨item, hitem, hn⟩ | hf
  · exact Or.inl ⟨_, List.mem_map_of_mem hitem, by rw [name_linkInterfaces, hn]⟩
  · exact Or.inr hf

/-- Every model was there before or was made of one of the components. -/
theorem exists_entry_of_foldl {entries : Fields SchemaOrRef} {models : Resolution Entity}
    {item : Entity} (h : item ∈ (List.foldl (addSchema known options) models entries).items) :
    item ∈ models.items ∨ ∃ key schema, (key, .inline schema) ∈ entries ∧
      resolveEntity known key schema = .ok item := by
  induction entries generalizing models with
  | nil => exact Or.inl h
  | cons entry rest ih =>
    rw [List.foldl_cons] at h
    -- Either the rest adds the model, or it is there after the first entry and was added by that.
    rcases ih h with hm | ⟨key, schema, hm, hr⟩
    · rw [addSchema] at hm
      split at hm
      · exact Or.inl hm
      · rename_i schema he
        split at hm
        · rename_i entity hr
          rw [addEntity] at hm
          split at hm
          · exact Or.inl hm
          · rcases List.mem_append.mp hm with hm | hm
            · exact Or.inl hm
            · obtain rfl := List.mem_singleton.mp hm
              obtain ⟨key, given⟩ := entry
              cases given with
              | ref path => exact absurd he nofun
              | inline body =>
                simp only [eligible?] at he
                split_ifs at he
                obtain rfl := Option.some.inj he
                exact Or.inr ⟨key, body, List.mem_cons_self, hr⟩
        · exact Or.inl hm
    · exact Or.inr ⟨key, schema, List.mem_cons_of_mem _ hm, hr⟩

/-- Every model is what a component comes to, up to the interfaces of a class. -/
theorem exists_linked_of_item {item : Entity}
    (h : item ∈ (resolveModels schemas options).models.items) :
    ∃ key schema entity entities, (key, .inline schema) ∈ schemas ∧
      resolveEntity (resolveModels schemas options).known key schema = .ok entity ∧
      linkInterfaces entities entity = item := by
  obtain ⟨entity, he, hlink⟩ := List.mem_map.mp h
  rcases exists_entry_of_foldl he with hm | ⟨key, schema, hm, hr⟩
  · exact absurd hm List.not_mem_nil
  · exact ⟨key, schema, entity, _, hm, hr, hlink⟩

/-- Every model is that of a component. -/
theorem exists_entry_of_item {item : Entity}
    (h : item ∈ (resolveModels schemas options).models.items) :
    ∃ key schema entity, (key, .inline schema) ∈ schemas ∧
      resolveEntity (resolveModels schemas options).known key schema = .ok entity ∧
      item.name = entity.name ∧ item.mentions = entity.mentions := by
  obtain ⟨key, schema, entity, entities, hm, hr, rfl⟩ := exists_linked_of_item h
  exact ⟨key, schema, entity, hm, hr, name_linkInterfaces _ _, mentions_linkInterfaces _ _⟩

end FunctionForge.Model
