import FunctionForge.Document.Traverse
import FunctionForge.Proofs.Document.References

/-!
# The references of a document

`ApiDocument.references` lists the references in the schemas of a document in the order in which
`mapSchemasM` comes to them, and `ApiDocument.mapSchemas` changes the schemas by a pure function.
If every schema is visited and changed by a pure function, so is the document
(`ApiDocument.visits`).
-/

namespace FunctionForge.Document

/-! ### Listing -/

/-- The references in a content. -/
def contentReferences (content : Fields MediaType) : List String :=
  content.values.flatMap fun media => referencesInOption media.schema

/-- The references in the schema of a parameter. -/
def Parameter.references (parameter : Parameter) : List String :=
  referencesInOption parameter.schema

/-- The references in the schemas of a request body. -/
def RequestBody.references (body : RequestBody) : List String :=
  contentReferences body.content

/-- The references in the schemas of a response. -/
def Response.references (response : Response) : List String :=
  contentReferences response.content

/-- The references in the schemas of what is given in place. -/
def Referable.references {α : Type} (refs : α → List String) : Referable α → List String
  | .ref _ => []
  | .inline value => refs value

/-- The references in the schemas of what may be missing. -/
def optionReferences {α : Type} (refs : α → List String) : Option α → List String
  | none => []
  | some value => refs value

/-- The references in the schemas of an operation. -/
def Operation.references (operation : Operation) : List String :=
  operation.parameters.flatMap (Referable.references Parameter.references) ++
    (optionReferences (Referable.references RequestBody.references) operation.requestBody ++
      operation.responses.values.flatMap (Referable.references Response.references))

/-- The references in the schemas of a path. -/
def PathItem.references (item : PathItem) : List String :=
  item.parameters.flatMap (Referable.references Parameter.references) ++
    item.operations.flatMap fun entry => entry.2.references

/-- The references in the schemas of the components. -/
def Components.references (components : Components) : List String :=
  components.schemas.values.flatMap SchemaOrRef.references ++
    (components.parameters.values.flatMap (Referable.references Parameter.references) ++
      (components.requestBodies.values.flatMap (Referable.references RequestBody.references) ++
        components.responses.values.flatMap (Referable.references Response.references)))

/-- The references in the schemas of a document. -/
def ApiDocument.references (document : ApiDocument) : List String :=
  optionReferences Components.references document.components ++
    optionReferences (fun paths => paths.values.flatMap PathItem.references) document.paths

/-- The references of the component schemas are among those of the document. -/
theorem ApiDocument.references_of_mem_schemas (document : ApiDocument) :
    document.schemas.values.flatMap SchemaOrRef.references ⊆ document.references := by
  intro r hr
  obtain ⟨openapi, info, paths, components⟩ := document
  cases components with
  | none => exact absurd hr List.not_mem_nil
  | some components => exact List.mem_append_left _ (List.mem_append_left _ hr)

/-- The references of the path items are among those of the document. -/
theorem ApiDocument.references_of_mem_paths (document : ApiDocument) :
    (document.paths.getD []).values.flatMap PathItem.references ⊆ document.references := by
  intro r hr
  obtain ⟨openapi, info, paths, components⟩ := document
  cases paths with
  | none => exact absurd hr List.not_mem_nil
  | some paths => exact List.mem_append_right _ hr

/-! ### Changing schemas -/

/-- A content with its schemas changed. -/
def mapContent (f : SchemaOrRef → SchemaOrRef) (content : Fields MediaType) : Fields MediaType :=
  content.mapValues fun media => { media with schema := media.schema.map f }

/-- A parameter with its schema changed. -/
def Parameter.mapSchema (f : SchemaOrRef → SchemaOrRef) (parameter : Parameter) : Parameter :=
  { parameter with schema := parameter.schema.map f }

/-- A request body with its schemas changed. -/
def RequestBody.mapSchemas (f : SchemaOrRef → SchemaOrRef) (body : RequestBody) : RequestBody :=
  { body with content := mapContent f body.content }

/-- A response with its schemas changed. -/
def Response.mapSchemas (f : SchemaOrRef → SchemaOrRef) (response : Response) : Response :=
  { response with content := mapContent f response.content }

/-- Something with what is given in place changed. -/
def Referable.map {α : Type} (f : α → α) : Referable α → Referable α
  | .ref path => .ref path
  | .inline value => .inline (f value)

/-- An operation with its schemas changed. -/
def Operation.mapSchemas (f : SchemaOrRef → SchemaOrRef) (operation : Operation) : Operation :=
  { operation with
    parameters := operation.parameters.map (Referable.map (Parameter.mapSchema f))
    requestBody := operation.requestBody.map (Referable.map (RequestBody.mapSchemas f))
    responses := operation.responses.mapValues (Referable.map (Response.mapSchemas f)) }

/-- A path with its schemas changed. -/
def PathItem.mapSchemas (f : SchemaOrRef → SchemaOrRef) (item : PathItem) : PathItem :=
  { item with
    parameters := item.parameters.map (Referable.map (Parameter.mapSchema f))
    operations := item.operations.map fun entry => (entry.1, entry.2.mapSchemas f) }

/-- Components with their schemas changed. -/
def Components.mapSchemas (f : SchemaOrRef → SchemaOrRef) (components : Components) :
    Components where
  schemas := components.schemas.mapValues f
  responses := components.responses.mapValues (Referable.map (Response.mapSchemas f))
  parameters := components.parameters.mapValues (Referable.map (Parameter.mapSchema f))
  requestBodies := components.requestBodies.mapValues (Referable.map (RequestBody.mapSchemas f))

/-- A document with its schemas changed. -/
def ApiDocument.mapSchemas (f : SchemaOrRef → SchemaOrRef) (document : ApiDocument) : ApiDocument :=
  { document with
    components := document.components.map (Components.mapSchemas f)
    paths := document.paths.map (Fields.mapValues (PathItem.mapSchemas f)) }

/-! ### Visiting lists and fields -/

section Visits

variable {m : Type → Type} [Monad m] [LawfulMonad m] {visit : String → m Unit} {α β : Type}
  {step : α → m β} {refs : α → List String} {f : α → β}

/-- A list is visited item by item. -/
theorem Visits.mapM (h : ∀ a, Visits visit (step a) (refs a) (f a)) :
    ∀ items : List α, Visits visit (items.mapM step) (items.flatMap refs) (items.map f)
  | [] => by
    rw [List.mapM_nil]
    exact Visits.pure _
  | item :: rest => by
    rw [List.mapM_cons]
    exact (h item).bind ((Visits.mapM h rest).bind_pure _)

/-- Fields are visited value by value, whatever their names are. -/
theorem Visits.mapValuesM (h : ∀ a, Visits visit (step a) (refs a) (f a)) :
    ∀ fields : Fields α,
      Visits visit (fields.mapValuesM step) (fields.values.flatMap refs) (fields.mapValues f)
  | [] => Visits.pure _
  | (_, value) :: rest => (h value).bind ((Visits.mapValuesM h rest).bind_pure _)

theorem Visits.referable {step : α → m α} {f : α → α}
    (h : ∀ a, Visits visit (step a) (refs a) (f a)) (entry : Referable α) :
    Visits visit (entry.mapM step) (entry.references refs) (entry.map f) := by
  cases entry with
  | ref path => exact Visits.pure _
  | inline value => exact (h value).bind_pure _

end Visits

/-! ### Visiting the references of a document -/

section

variable {m : Type → Type} [Monad m] [LawfulMonad m] {visit : String → m Unit}
  {step : SchemaOrRef → m SchemaOrRef} {f : SchemaOrRef → SchemaOrRef}

theorem visits_content
    (h : ∀ schema, Visits visit (step schema) schema.references (f schema))
    (content : Fields MediaType) :
    Visits visit (mapContentM step content) (contentReferences content) (mapContent f content) := by
  refine Visits.mapValuesM (fun media => ?_) content
  obtain ⟨schema⟩ := media
  cases schema with
  | none => exact Visits.pure _
  | some schema => exact (h schema).bind_pure _

theorem Parameter.visits
    (h : ∀ schema, Visits visit (step schema) schema.references (f schema))
    (parameter : Parameter) :
    Visits visit (parameter.mapSchemaM step) parameter.references (parameter.mapSchema f) := by
  obtain ⟨name, location, description, required, schema⟩ := parameter
  cases schema with
  | none => exact Visits.pure _
  | some schema => exact (h schema).bind_pure _

theorem RequestBody.visits
    (h : ∀ schema, Visits visit (step schema) schema.references (f schema))
    (body : RequestBody) :
    Visits visit (body.mapSchemasM step) body.references (body.mapSchemas f) :=
  (visits_content h body.content).bind_pure _

theorem Response.visits
    (h : ∀ schema, Visits visit (step schema) schema.references (f schema))
    (response : Response) :
    Visits visit (response.mapSchemasM step) response.references (response.mapSchemas f) :=
  (visits_content h response.content).bind_pure _

/-- The schemas of an operation are visited in its parameters, its body and its responses. -/
theorem Operation.visits
    (h : ∀ schema, Visits visit (step schema) schema.references (f schema))
    (operation : Operation) :
    Visits visit (operation.mapSchemasM step) operation.references (operation.mapSchemas f) := by
  obtain ⟨operationId, summary, description, parameters, requestBody, responses⟩ := operation
  have hp := Visits.mapM (Visits.referable (Parameter.visits h)) parameters
  have hr := Visits.mapValuesM (Visits.referable (Response.visits h)) responses
  cases requestBody with
  | none => exact hp.bind ((Visits.pure none).bind (hr.bind_pure _))
  | some body =>
    have hb := Visits.referable (RequestBody.visits h) body
    exact hp.bind ((hb.map some).bind (hr.bind_pure _))

theorem PathItem.visits
    (h : ∀ schema, Visits visit (step schema) schema.references (f schema))
    (item : PathItem) :
    Visits visit (item.mapSchemasM step) item.references (item.mapSchemas f) := by
  have hp := Visits.mapM (Visits.referable (Parameter.visits h)) item.parameters
  have hentry (entry : HttpMethod × Operation) : Visits visit
      (do return (entry.1, ← entry.2.mapSchemasM step)) entry.2.references
      (entry.1, entry.2.mapSchemas f) :=
    (Operation.visits h entry.2).bind_pure (Prod.mk entry.1)
  have ho := Visits.mapM hentry item.operations
  exact hp.bind (ho.bind_pure _)

/-- The schemas of the components are visited in every section that holds any. -/
theorem Components.visits
    (h : ∀ schema, Visits visit (step schema) schema.references (f schema))
    (components : Components) :
    Visits visit (components.mapSchemasM step) components.references
      (components.mapSchemas f) := by
  have hs := Visits.mapValuesM h components.schemas
  have hp := Visits.mapValuesM (Visits.referable (Parameter.visits h)) components.parameters
  have hb := Visits.mapValuesM (Visits.referable (RequestBody.visits h)) components.requestBodies
  have hr := Visits.mapValuesM (Visits.referable (Response.visits h)) components.responses
  exact hs.bind (hp.bind (hb.bind (hr.bind_pure _)))

/-- If every schema is visited and changed by a pure function, so are those of a document. -/
theorem ApiDocument.visits
    (h : ∀ schema, Visits visit (step schema) schema.references (f schema))
    (document : ApiDocument) :
    Visits visit (document.mapSchemasM step) document.references (document.mapSchemas f) := by
  obtain ⟨openapi, info, paths, components⟩ := document
  have hc := fun components => (Components.visits h components).map some
  have hp := fun paths => (Visits.mapValuesM (PathItem.visits h) paths).map some
  -- The components come before the paths, and each of them may be missing.
  rcases components with _ | components
  · rcases paths with _ | paths
    · exact (Visits.pure none).bind ((Visits.pure none).bind_pure _)
    · exact (Visits.pure none).bind ((hp paths).bind_pure _)
  · rcases paths with _ | paths
    · exact (hc components).bind ((Visits.pure none).bind_pure _)
    · exact (hc components).bind ((hp paths).bind_pure _)

end

/-! ### The references after a replacement -/

section

variable {α : Type} {refs : α → List String} {g : String → String}

/-- Changing the values of fields changes their references alike. -/
theorem references_mapValues (refs : α → List String) {f : α → α}
    (h : ∀ a, refs (f a) = (refs a).map g) (fields : Fields α) :
    (fields.mapValues f).values.flatMap refs = (fields.values.flatMap refs).map g := by
  induction fields with
  | nil => rfl
  | cons field rest ih =>
    obtain ⟨name, value⟩ := field
    change refs (f value) ++ (Fields.mapValues f rest).values.flatMap refs =
      (refs value ++ (Fields.values rest).flatMap refs).map g
    rw [h, ih, List.map_append]

theorem references_map (refs : α → List String) {f : α → α}
    (h : ∀ a, refs (f a) = (refs a).map g) (items : List α) :
    (items.map f).flatMap refs = (items.flatMap refs).map g := by
  rw [List.flatMap_map, List.map_flatMap]
  exact congrArg (List.flatMap · items) (funext h)

theorem Referable.references_map {f : α → α} (h : ∀ a, refs (f a) = (refs a).map g)
    (entry : Referable α) : (entry.map f).references refs = (entry.references refs).map g := by
  cases entry with
  | ref path => rfl
  | inline value => exact h value

theorem optionReferences_map {f : α → α} (h : ∀ a, refs (f a) = (refs a).map g)
    (option : Option α) :
    optionReferences refs (option.map f) = (optionReferences refs option).map g := by
  cases option with
  | none => rfl
  | some value => exact h value

variable {f : SchemaOrRef → SchemaOrRef}

theorem contentReferences_mapContent (h : ∀ schema, (f schema).references = schema.references.map g)
    (content : Fields MediaType) :
    contentReferences (mapContent f content) = (contentReferences content).map g := by
  refine references_mapValues (fun media => referencesInOption media.schema) (fun media => ?_)
    content
  obtain ⟨schema⟩ := media
  cases schema with
  | none => rfl
  | some schema => exact h schema

theorem Parameter.references_mapSchema
    (h : ∀ schema, (f schema).references = schema.references.map g) (parameter : Parameter) :
    (parameter.mapSchema f).references = parameter.references.map g := by
  obtain ⟨name, location, description, required, schema⟩ := parameter
  cases schema with
  | none => rfl
  | some schema => exact h schema

theorem RequestBody.references_mapSchemas
    (h : ∀ schema, (f schema).references = schema.references.map g) (body : RequestBody) :
    (body.mapSchemas f).references = body.references.map g :=
  contentReferences_mapContent h body.content

theorem Response.references_mapSchemas
    (h : ∀ schema, (f schema).references = schema.references.map g) (response : Response) :
    (response.mapSchemas f).references = response.references.map g :=
  contentReferences_mapContent h response.content

theorem Operation.references_mapSchemas
    (h : ∀ schema, (f schema).references = schema.references.map g) (operation : Operation) :
    (operation.mapSchemas f).references = operation.references.map g := by
  unfold Operation.references Operation.mapSchemas
  rw [references_map _ (Referable.references_map (Parameter.references_mapSchema h)),
    optionReferences_map (Referable.references_map (RequestBody.references_mapSchemas h)),
    references_mapValues _ (Referable.references_map (Response.references_mapSchemas h)),
    List.map_append, List.map_append]

theorem PathItem.references_mapSchemas
    (h : ∀ schema, (f schema).references = schema.references.map g) (item : PathItem) :
    (item.mapSchemas f).references = item.references.map g := by
  unfold PathItem.references PathItem.mapSchemas
  rw [references_map _ (Referable.references_map (Parameter.references_mapSchema h)),
    references_map (fun entry : HttpMethod × Operation => entry.2.references)
      (fun entry => Operation.references_mapSchemas h entry.2), List.map_append]

theorem Components.references_mapSchemas
    (h : ∀ schema, (f schema).references = schema.references.map g) (components : Components) :
    (components.mapSchemas f).references = components.references.map g := by
  unfold Components.references Components.mapSchemas
  rw [references_mapValues _ h,
    references_mapValues _ (Referable.references_map (Parameter.references_mapSchema h)),
    references_mapValues _ (Referable.references_map (RequestBody.references_mapSchemas h)),
    references_mapValues _ (Referable.references_map (Response.references_mapSchemas h)),
    List.map_append, List.map_append, List.map_append]

/-- If the references of every changed schema are the replaced references, so are those of a
changed document. -/
theorem ApiDocument.references_mapSchemas
    (h : ∀ schema, (f schema).references = schema.references.map g) (document : ApiDocument) :
    (document.mapSchemas f).references = document.references.map g := by
  unfold ApiDocument.references ApiDocument.mapSchemas
  rw [optionReferences_map (Components.references_mapSchemas h),
    optionReferences_map (references_mapValues _ (PathItem.references_mapSchemas h)),
    List.map_append]

/-- A document with every reference to a schema replaced. -/
def ApiDocument.mapReferences (g : String → String) (document : ApiDocument) : ApiDocument :=
  document.mapSchemas (SchemaOrRef.mapReferences g)

/-- The references of a changed document are the changed references, in the same order. -/
theorem ApiDocument.references_mapReferences (document : ApiDocument) :
    (document.mapReferences g).references = document.references.map g :=
  ApiDocument.references_mapSchemas (SchemaOrRef.references_mapReferences g) document

/-- The component schemas of a changed document are the changed component schemas. -/
@[simp]
theorem ApiDocument.schemas_mapReferences (document : ApiDocument) :
    (document.mapReferences g).schemas =
      document.schemas.mapValues (SchemaOrRef.mapReferences g) := by
  obtain ⟨openapi, info, paths, components⟩ := document
  cases components with
  | none => rfl
  | some components => rfl

end

end FunctionForge.Document
