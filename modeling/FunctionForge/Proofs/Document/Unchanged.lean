import FunctionForge.Proofs.Document.Traverse

/-!
# What replacing references leaves unchanged

`SchemaOrRef.SameUpTo R` says that two schemas are the same but for the texts of their references,
which `R` relates one by one.  Replacing the references of a schema comes to such a schema
(`SchemaOrRef.sameUpTo_mapReferences`), so that it comes to the schema itself if it keeps every
reference (`SchemaOrRef.mapReferences_eq_self`).  A document whose references are all kept stays as
it is (`ApiDocument.mapReferences_eq_self`).
-/

namespace FunctionForge.Document

/-! ### Schemas that differ in their references -/

section

variable (R : String → String → Prop)

mutual

/-- Two schemas in their places are the same up to their references. -/
inductive SchemaOrRef.SameUpTo : SchemaOrRef → SchemaOrRef → Prop
  | ref {path path' : String} (h : R path path') : SchemaOrRef.SameUpTo (.ref path) (.ref path')
  | inline {schema schema' : Schema} (h : Schema.SameUpTo schema schema') :
      SchemaOrRef.SameUpTo (.inline schema) (.inline schema')

/-- Two schemas are the same up to the references in their parts. -/
inductive Schema.SameUpTo : Schema → Schema → Prop
  | parts {schema : Schema} {properties : List (String × SchemaOrRef)}
      {additionalProperties : Option AdditionalProperties} {items : Option SchemaOrRef}
      {allOf oneOf anyOf : List SchemaOrRef}
      (hproperties : SameUpToInFields schema.properties properties)
      (hadditional : SameUpToInAdditional schema.additionalProperties additionalProperties)
      (hitems : SameUpToInOption schema.items items) (hallOf : SameUpToInList schema.allOf allOf)
      (honeOf : SameUpToInList schema.oneOf oneOf) (hanyOf : SameUpToInList schema.anyOf anyOf) :
      Schema.SameUpTo schema
        { schema with properties, additionalProperties, items, allOf, oneOf, anyOf }

/-- The properties of two schemas are the same up to their references. -/
inductive SameUpToInFields : List (String × SchemaOrRef) → List (String × SchemaOrRef) → Prop
  | nil : SameUpToInFields [] []
  | cons {name : String} {schema schema' : SchemaOrRef} {rest rest' : List (String × SchemaOrRef)}
      (h : SchemaOrRef.SameUpTo schema schema') (hrest : SameUpToInFields rest rest') :
      SameUpToInFields ((name, schema) :: rest) ((name, schema') :: rest')

/-- What two schemas say of further properties is the same up to its references. -/
inductive SameUpToInAdditional : Option AdditionalProperties → Option AdditionalProperties → Prop
  | none : SameUpToInAdditional none none
  | allowed (allowed : Bool) :
      SameUpToInAdditional (some (.allowed allowed)) (some (.allowed allowed))
  | values {schema schema' : SchemaOrRef} (h : SchemaOrRef.SameUpTo schema schema') :
      SameUpToInAdditional (some (.values schema)) (some (.values schema'))

/-- The items of two schemas are the same up to their references. -/
inductive SameUpToInOption : Option SchemaOrRef → Option SchemaOrRef → Prop
  | none : SameUpToInOption none none
  | some {schema schema' : SchemaOrRef} (h : SchemaOrRef.SameUpTo schema schema') :
      SameUpToInOption (some schema) (some schema')

/-- The members of two unions or intersections are the same up to their references. -/
inductive SameUpToInList : List SchemaOrRef → List SchemaOrRef → Prop
  | nil : SameUpToInList [] []
  | cons {schema schema' : SchemaOrRef} {rest rest' : List SchemaOrRef}
      (h : SchemaOrRef.SameUpTo schema schema') (hrest : SameUpToInList rest rest') :
      SameUpToInList (schema :: rest) (schema' :: rest')

end

end

variable {R : String → String → Prop} {g : String → String}

/-! ### Replacing references -/

section

variable (R g)

mutual

/-- Replacing its references leaves all else of a schema in its place unchanged. -/
theorem SchemaOrRef.sameUpTo_mapReferences : ∀ schema : SchemaOrRef,
    (∀ r ∈ schema.references, R r (g r)) → schema.SameUpTo R (schema.mapReferences g)
  | .ref path, h => .ref (h path (List.mem_singleton_self path))
  | .inline schema, h => .inline (schema.sameUpTo_mapReferences h)

/-- The parts of a schema are related one by one, as the references in each of them are. -/
theorem Schema.sameUpTo_mapReferences : ∀ schema : Schema,
    (∀ r ∈ schema.references, R r (g r)) → schema.SameUpTo R (schema.mapReferences g)
  | ⟨_, _, _, _, _, properties, _, additional, items, allOf, oneOf, anyOf, _, _⟩, h => by
    rw [Schema.references_eq] at h
    simp only [List.mem_append] at h
    have hproperties := sameUpTo_mapFields properties fun r hr => h r (Or.inl hr)
    have hitems := sameUpTo_mapOption items fun r hr => h r (Or.inr (Or.inl hr))
    have hadditional := sameUpTo_mapAdditional additional fun r hr =>
      h r (Or.inr (Or.inr (Or.inl hr)))
    have hallOf := sameUpTo_mapList allOf fun r hr => h r (Or.inr (Or.inr (Or.inr (Or.inl hr))))
    have honeOf := sameUpTo_mapList oneOf fun r hr =>
      h r (Or.inr (Or.inr (Or.inr (Or.inr (Or.inl hr)))))
    have hanyOf := sameUpTo_mapList anyOf fun r hr =>
      h r (Or.inr (Or.inr (Or.inr (Or.inr (Or.inr hr)))))
    -- What is said of further properties is looked into before its references are replaced.
    cases additional with
    | none => exact .parts hproperties hadditional hitems hallOf honeOf hanyOf
    | some additional => exact .parts hproperties hadditional hitems hallOf honeOf hanyOf

theorem sameUpTo_mapFields : ∀ properties : List (String × SchemaOrRef),
    (∀ r ∈ referencesInFields properties, R r (g r)) → SameUpToInFields R properties
      (Id.run (mapReferencesInFields (fun path => pure (g path)) properties))
  | [], _ => .nil
  | (_, schema) :: rest, h =>
    .cons (schema.sameUpTo_mapReferences fun r hr => h r (List.mem_append_left _ hr))
      (sameUpTo_mapFields rest fun r hr => h r (List.mem_append_right _ hr))

theorem sameUpTo_mapAdditional : ∀ additional : Option AdditionalProperties,
    (∀ r ∈ additional.elim [] AdditionalProperties.references, R r (g r)) →
      SameUpToInAdditional R additional (additional.map fun additional =>
        Id.run (additional.mapReferencesM fun path => pure (g path)))
  | none, _ => .none
  | some (.allowed allowed), _ => .allowed allowed
  | some (.values schema), h => .values (schema.sameUpTo_mapReferences h)

theorem sameUpTo_mapOption : ∀ items : Option SchemaOrRef,
    (∀ r ∈ referencesInOption items, R r (g r)) → SameUpToInOption R items
      (Id.run (mapReferencesInOption (fun path => pure (g path)) items))
  | none, _ => .none
  | some schema, h => .some (schema.sameUpTo_mapReferences h)

theorem sameUpTo_mapList : ∀ members : List SchemaOrRef,
    (∀ r ∈ referencesInList members, R r (g r)) → SameUpToInList R members
      (Id.run (mapReferencesInList (fun path => pure (g path)) members))
  | [], _ => .nil
  | schema :: rest, h =>
    .cons (schema.sameUpTo_mapReferences fun r hr => h r (List.mem_append_left _ hr))
      (sameUpTo_mapList rest fun r hr => h r (List.mem_append_right _ hr))

end

end

/-! ### References that are kept -/

mutual

/-- Schemas that do not differ in their references are the same. -/
theorem SchemaOrRef.SameUpTo.eq {schema schema' : SchemaOrRef} :
    schema.SameUpTo Eq schema' → schema = schema'
  | .ref h => congrArg _ h
  | .inline h => congrArg _ h.eq

/-- Schemas with equal references that differ in nothing else are equal. -/
theorem Schema.SameUpTo.eq {schema schema' : Schema} : schema.SameUpTo Eq schema' → schema = schema'
  | .parts hproperties hadditional hitems hallOf honeOf hanyOf => by
    rw [← hproperties.eq, ← hadditional.eq, ← hitems.eq, ← hallOf.eq, ← honeOf.eq, ← hanyOf.eq]
    cases schema
    rfl

theorem SameUpToInFields.eq {properties properties' : List (String × SchemaOrRef)} :
    SameUpToInFields Eq properties properties' → properties = properties'
  | .nil => rfl
  | .cons h hrest => by rw [h.eq, hrest.eq]

theorem SameUpToInAdditional.eq {additional additional' : Option AdditionalProperties} :
    SameUpToInAdditional Eq additional additional' → additional = additional'
  | .none => rfl
  | .allowed _ => rfl
  | .values h => by rw [h.eq]

theorem SameUpToInOption.eq {items items' : Option SchemaOrRef} :
    SameUpToInOption Eq items items' → items = items'
  | .none => rfl
  | .some h => by rw [h.eq]

theorem SameUpToInList.eq {members members' : List SchemaOrRef} :
    SameUpToInList Eq members members' → members = members'
  | .nil => rfl
  | .cons h hrest => by rw [h.eq, hrest.eq]

end

/-- A schema whose references are kept stays as it is. -/
theorem SchemaOrRef.mapReferences_eq_self (schema : SchemaOrRef)
    (h : ∀ r ∈ schema.references, g r = r) : schema.mapReferences g = schema :=
  (schema.sameUpTo_mapReferences Eq g fun r hr => (h r hr).symm).eq.symm

/-! ### Documents whose references are kept -/

section

variable {α : Type} {refs : α → List String} {f : α → α}

theorem map_eq_self (hf : ∀ a, (∀ r ∈ refs a, g r = r) → f a = a) {items : List α}
    (h : ∀ r ∈ items.flatMap refs, g r = r) : items.map f = items := by
  refine (List.map_congr_left fun item hm => ?_).trans (List.map_id items)
  exact hf item fun r hr => h r (List.mem_flatMap.mpr ⟨item, hm, hr⟩)

/-- Fields whose references are kept stay as they are. -/
theorem mapValues_eq_self (hf : ∀ a, (∀ r ∈ refs a, g r = r) → f a = a) {fields : Fields α}
    (h : ∀ r ∈ fields.values.flatMap refs, g r = r) : fields.mapValues f = fields := by
  refine (List.map_congr_left fun field hm => ?_).trans (List.map_id fields)
  have hvalue := hf field.2 fun r hr =>
    h r (List.mem_flatMap.mpr ⟨_, List.mem_map_of_mem hm, hr⟩)
  exact Prod.ext rfl hvalue

theorem Referable.map_eq_self (hf : ∀ a, (∀ r ∈ refs a, g r = r) → f a = a) (entry : Referable α)
    (h : ∀ r ∈ entry.references refs, g r = r) : entry.map f = entry := by
  cases entry with
  | ref path => rfl
  | inline value => exact congrArg _ (hf value h)

theorem optionMap_eq_self (hf : ∀ a, (∀ r ∈ refs a, g r = r) → f a = a) {option : Option α}
    (h : ∀ r ∈ optionReferences refs option, g r = r) : option.map f = option := by
  cases option with
  | none => rfl
  | some value => exact congrArg _ (hf value h)

end

/-- The schema in the place of one that may be missing is kept with its references. -/
theorem optionMapReferences_eq_self {schema : Option SchemaOrRef}
    (h : ∀ r ∈ referencesInOption schema, g r = r) :
    schema.map (SchemaOrRef.mapReferences g) = schema := by
  cases schema with
  | none => rfl
  | some schema => exact congrArg _ (schema.mapReferences_eq_self h)

theorem mapContent_eq_self {content : Fields MediaType}
    (h : ∀ r ∈ contentReferences content, g r = r) :
    mapContent (SchemaOrRef.mapReferences g) content = content := by
  refine mapValues_eq_self (fun media hm => ?_) h
  rw [optionMapReferences_eq_self hm]

theorem Parameter.mapReferences_eq_self (parameter : Parameter)
    (h : ∀ r ∈ parameter.references, g r = r) :
    parameter.mapSchema (SchemaOrRef.mapReferences g) = parameter := by
  rw [Parameter.mapSchema, optionMapReferences_eq_self h]

theorem RequestBody.mapReferences_eq_self (body : RequestBody)
    (h : ∀ r ∈ body.references, g r = r) :
    body.mapSchemas (SchemaOrRef.mapReferences g) = body := by
  rw [RequestBody.mapSchemas, mapContent_eq_self h]

theorem Response.mapReferences_eq_self (response : Response)
    (h : ∀ r ∈ response.references, g r = r) :
    response.mapSchemas (SchemaOrRef.mapReferences g) = response := by
  rw [Response.mapSchemas, mapContent_eq_self h]

/-- An operation whose references are kept stays as it is. -/
theorem Operation.mapReferences_eq_self (operation : Operation)
    (h : ∀ r ∈ operation.references, g r = r) :
    operation.mapSchemas (SchemaOrRef.mapReferences g) = operation := by
  simp only [Operation.references, List.mem_append] at h
  rw [Operation.mapSchemas,
    map_eq_self (Referable.map_eq_self Parameter.mapReferences_eq_self) fun r hr => h r (Or.inl hr),
    optionMap_eq_self (Referable.map_eq_self RequestBody.mapReferences_eq_self) fun r hr =>
      h r (Or.inr (Or.inl hr)),
    mapValues_eq_self (Referable.map_eq_self Response.mapReferences_eq_self) fun r hr =>
      h r (Or.inr (Or.inr hr))]

theorem PathItem.mapReferences_eq_self (item : PathItem) (h : ∀ r ∈ item.references, g r = r) :
    item.mapSchemas (SchemaOrRef.mapReferences g) = item := by
  simp only [PathItem.references, List.mem_append] at h
  have hentry (entry : HttpMethod × Operation) (he : ∀ r ∈ entry.2.references, g r = r) :
      (entry.1, entry.2.mapSchemas (SchemaOrRef.mapReferences g)) = entry :=
    Prod.ext rfl (entry.2.mapReferences_eq_self he)
  rw [PathItem.mapSchemas,
    map_eq_self (Referable.map_eq_self Parameter.mapReferences_eq_self) fun r hr => h r (Or.inl hr),
    map_eq_self hentry fun r hr => h r (Or.inr hr)]

/-- Components whose references are kept stay as they are. -/
theorem Components.mapReferences_eq_self (components : Components)
    (h : ∀ r ∈ components.references, g r = r) :
    components.mapSchemas (SchemaOrRef.mapReferences g) = components := by
  simp only [Components.references, List.mem_append] at h
  rw [Components.mapSchemas,
    mapValues_eq_self SchemaOrRef.mapReferences_eq_self fun r hr => h r (Or.inl hr),
    mapValues_eq_self (Referable.map_eq_self Parameter.mapReferences_eq_self) fun r hr =>
      h r (Or.inr (Or.inl hr)),
    mapValues_eq_self (Referable.map_eq_self RequestBody.mapReferences_eq_self) fun r hr =>
      h r (Or.inr (Or.inr (Or.inl hr))),
    mapValues_eq_self (Referable.map_eq_self Response.mapReferences_eq_self) fun r hr =>
      h r (Or.inr (Or.inr (Or.inr hr)))]

/-- A document whose references are all kept stays as it is. -/
theorem ApiDocument.mapReferences_eq_self (document : ApiDocument)
    (h : ∀ r ∈ document.references, g r = r) : document.mapReferences g = document := by
  simp only [ApiDocument.references, List.mem_append] at h
  rw [ApiDocument.mapReferences, ApiDocument.mapSchemas,
    optionMap_eq_self Components.mapReferences_eq_self fun r hr => h r (Or.inl hr),
    optionMap_eq_self (fun _ hp => mapValues_eq_self PathItem.mapReferences_eq_self hp)
      fun r hr => h r (Or.inr hr)]

end FunctionForge.Document
