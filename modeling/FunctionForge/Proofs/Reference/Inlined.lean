import FunctionForge.Proofs.Endpoint.InPlace
import FunctionForge.Proofs.Reference.Chain
import FunctionForge.Proofs.Reference.Closure

/-!
# Components in place of references

In a document whose references have been resolved, each parameter, each body and each response of
its paths is given in place: it is the definition at the end of the chain of references that stood
there, with its schemas bundled (`inlined_of_resolve`).  The chain is one of the document as it was
given, and all else that the paths hold stays as it is, in its order.  The components keep what they
have, references among them.  So no operation of such a document fails for a parameter or a body
that is a reference, and none of its responses counts as one.
-/

namespace FunctionForge.Reference

open Document (ApiDocument Components HttpMethod LoadError Operation Parameter PathItem Referable
  RequestBody Response SchemaOrRef)
open Files (Path)

/-! ### What is put in place -/

/-- In the place of an entry stands the definition that it leads to, after a change. -/
def PutInPlace {α : Type} (family : Section α) (change : α → α) (entry entry' : Referable α) :
    Prop :=
  ∃ value, EndsIn family entry value ∧ entry' = .inline (change value)

variable (components : Components) (f : SchemaOrRef → SchemaOrRef)

/-- An operation with what its entries lead to, after a change of the schemas. -/
structure OperationInPlace (operation operation' : Operation) : Prop where
  operationId : operation'.operationId = operation.operationId
  summary : operation'.summary = operation.summary
  description : operation'.description = operation.description
  parameters : List.Forall₂ (PutInPlace (parameterSection components) (Parameter.mapSchema f))
    operation.parameters operation'.parameters
  requestBody : Option.Rel (PutInPlace (requestBodySection components) (RequestBody.mapSchemas f))
    operation.requestBody operation'.requestBody
  responses : List.Forall₂
    (fun given given' => given'.1 = given.1 ∧
      PutInPlace (responseSection components) (Response.mapSchemas f) given.2 given'.2)
    operation.responses operation'.responses

/-- A path with what its entries lead to, after a change of the schemas. -/
structure PathItemInPlace (item item' : PathItem) : Prop where
  summary : item'.summary = item.summary
  description : item'.description = item.description
  parameters : List.Forall₂ (PutInPlace (parameterSection components) (Parameter.mapSchema f))
    item.parameters item'.parameters
  operations : List.Forall₂
    (fun given given' => given'.1 = given.1 ∧ OperationInPlace components f given.2 given'.2)
    item.operations item'.operations

/-- The paths of a document with what their entries lead to, after a change of the schemas. -/
def PathsInPlace (paths paths' : Option (Fields PathItem)) : Prop :=
  Option.Rel (List.Forall₂ fun given given' =>
    given'.1 = given.1 ∧ PathItemInPlace components f given.2 given'.2) paths paths'

/-- Components whose parameters, bodies and responses are those of others, up to a change of the
schemas that are given in place. -/
structure SectionsKept (components' : Components) : Prop where
  parameters : components'.parameters =
    components.parameters.mapValues (Referable.map (Parameter.mapSchema f))
  requestBodies : components'.requestBodies =
    components.requestBodies.mapValues (Referable.map (RequestBody.mapSchemas f))
  responses : components'.responses =
    components.responses.mapValues (Referable.map (Response.mapSchemas f))

variable {components f} {components' : Components}

/-! ### Putting in place -/

/-- An entry that is put in place is the bundled end of its chain in the document as it was given.
-/
theorem putInPlace_of_inlineEntry {α : Type} {family : Section α} {change : α → α}
    {entry entry' : Referable α} (hf : '/' ∉ family.name.toList)
    (h : inlineEntry (family.map change) (entry.map change) = .ok entry') :
    PutInPlace family change entry entry' := by
  obtain ⟨changed, hc, rfl⟩ := map_eq_ok.mp h
  obtain ⟨value, hv, rfl⟩ := exists_endsIn_of_map (endsIn_of_followComponent hf hc)
  exact ⟨value, hv, rfl⟩

theorem SectionsKept.parameterSection_eq (hk : SectionsKept components f components') :
    parameterSection components' = (parameterSection components).map (Parameter.mapSchema f) := by
  rw [parameterSection, hk.parameters]
  rfl

theorem SectionsKept.requestBodySection_eq (hk : SectionsKept components f components') :
    requestBodySection components' =
      (requestBodySection components).map (RequestBody.mapSchemas f) := by
  rw [requestBodySection, hk.requestBodies]
  rfl

theorem SectionsKept.responseSection_eq (hk : SectionsKept components f components') :
    responseSection components' = (responseSection components).map (Response.mapSchemas f) := by
  rw [responseSection, hk.responses]
  rfl

/-- Each parameter stands for the one at its place. -/
theorem parametersInPlace (hk : SectionsKept components f components')
    {entries entries' : List (Referable Parameter)}
    (h : (entries.map (Referable.map (Parameter.mapSchema f))).mapM
      (inlineEntry (parameterSection components')) = .ok entries') :
    List.Forall₂ (PutInPlace (parameterSection components) (Parameter.mapSchema f))
      entries entries' := by
  rw [mapM_eq_ok_iff, List.forall₂_map_left_iff, hk.parameterSection_eq] at h
  exact h.imp fun _ _ => putInPlace_of_inlineEntry (slash_not_mem_parameterSection components)

/-- Each response stands under its code for the one that was given there. -/
theorem responsesInPlace (hk : SectionsKept components f components')
    {entries entries' : Fields (Referable Response)}
    (h : (entries.mapValues (Referable.map (Response.mapSchemas f))).mapValuesM
      (inlineEntry (responseSection components')) = .ok entries') :
    List.Forall₂
      (fun given given' => given'.1 = given.1 ∧
        PutInPlace (responseSection components) (Response.mapSchemas f) given.2 given'.2)
      entries entries' := by
  rw [mapValuesM_eq_ok_iff, Fields.mapValues, List.forall₂_map_left_iff,
    hk.responseSection_eq] at h
  exact h.imp fun _ _ hg =>
    hg.imp_right (putInPlace_of_inlineEntry (slash_not_mem_responseSection components))

/-- All parts of an operation are put in place, and what it holds besides is kept. -/
theorem operationInPlace (hk : SectionsKept components f components')
    {operation operation' : Operation}
    (h : inlineOperation components' (operation.mapSchemas f) = .ok operation') :
    OperationInPlace components f operation operation' := by
  obtain ⟨parameters, requestBody, responses, hp, hb, hr, rfl⟩ := inlineOperation_eq_ok h
  refine ⟨rfl, rfl, rfl, parametersInPlace hk hp, ?_, responsesInPlace hk hr⟩
  rw [Operation.mapSchemas, hk.requestBodySection_eq] at hb
  cases hgiven : operation.requestBody with
  | none =>
    rw [hgiven] at hb
    cases hb
    exact .none
  | some body =>
    rw [hgiven] at hb
    cases hb with
    | some he => exact .some (putInPlace_of_inlineEntry (slash_not_mem_requestBodySection _) he)

theorem pathItemInPlace (hk : SectionsKept components f components') {item item' : PathItem}
    (h : inlinePathItem components' (item.mapSchemas f) = .ok item') :
    PathItemInPlace components f item item' := by
  obtain ⟨parameters, hp, h⟩ := bind_eq_ok.mp h
  obtain ⟨operations, ho, h⟩ := bind_eq_ok.mp h
  obtain rfl := Except.ok.inj h
  rw [PathItem.mapSchemas, mapM_eq_ok_iff, List.forall₂_map_left_iff] at ho
  refine ⟨rfl, rfl, parametersInPlace hk hp, ho.imp fun given given' hg => ?_⟩
  obtain ⟨operation', hi, heq⟩ := bind_eq_ok.mp hg
  obtain rfl := Except.ok.inj heq
  exact ⟨rfl, operationInPlace hk hi⟩

/-! ### Documents -/

section

variable {document result : ApiDocument} {imports : Fields SchemaOrRef}

/-- Merging imports into the components leaves all of them but the schemas. -/
theorem sectionsKept_merged (imports : Fields SchemaOrRef) (document : ApiDocument)
    (f : SchemaOrRef → SchemaOrRef) :
    SectionsKept (document.components.getD .none) f
      ((Bundle.merged imports (document.mapSchemas f)).components.getD .none) := by
  unfold Bundle.merged
  split_ifs
  · cases hc : document.components with
    | none =>
      rw [ApiDocument.mapSchemas, hc]
      exact ⟨rfl, rfl, rfl⟩
    | some components =>
      rw [ApiDocument.mapSchemas, hc]
      exact ⟨rfl, rfl, rfl⟩
  · cases hc : document.components with
    | none =>
      simp only [ApiDocument.mapSchemas, hc]
      exact ⟨rfl, rfl, rfl⟩
    | some components =>
      simp only [ApiDocument.mapSchemas, hc]
      exact ⟨rfl, rfl, rfl⟩

theorem paths_merged (imports : Fields SchemaOrRef) (document : ApiDocument) :
    (Bundle.merged imports document).paths = document.paths := by
  unfold Bundle.merged
  split_ifs
  · rfl
  · rfl

/-- The paths are put in place one by one, in their order. -/
theorem pathsInPlace
    (h : inlineComponents (Bundle.merged imports (document.mapSchemas f)) = .ok result) :
    PathsInPlace (document.components.getD .none) f document.paths result.paths := by
  have hk := sectionsKept_merged imports document f
  have hmerged : (Bundle.merged imports (document.mapSchemas f)).paths =
      document.paths.map (Fields.mapValues (PathItem.mapSchemas f)) := paths_merged _ _
  -- Of what was merged, only its paths and its sections count from here on.
  generalize Bundle.merged imports (document.mapSchemas f) = bundled at h hk hmerged
  cases hp : document.paths with
  | none =>
    rw [hp, Option.map_none] at hmerged
    rw [inlineComponents, hmerged] at h
    rw [← Except.ok.inj h, hmerged]
    exact .none
  | some paths =>
    rw [hp, Option.map_some] at hmerged
    rw [inlineComponents, hmerged] at h
    obtain ⟨paths', hi, h⟩ := bind_eq_ok.mp h
    obtain rfl := Except.ok.inj h
    rw [mapValuesM_eq_ok_iff, Fields.mapValues, List.forall₂_map_left_iff] at hi
    exact .some (hi.imp fun _ _ hg => hg.imp_right (pathItemInPlace hk))

end

/-! ### Putting in place again -/

theorem PutInPlace.isInPlace {α : Type} {family : Section α} {change : α → α}
    {entry entry' : Referable α} (h : PutInPlace family change entry entry') :
    Endpoint.IsInPlace entry' :=
  h.imp' change fun _ hv => hv.2

theorem isInPlace_of_rel {α : Type} {family : Section α} {change : α → α}
    {given : Option (Referable α)} {entry' : Referable α}
    (h : Option.Rel (PutInPlace family change) given (some entry')) :
    Endpoint.IsInPlace entry' := by
  cases h with
  | some hput => exact hput.isInPlace

theorem inlineEntry_of_isInPlace {α : Type} {entry : Referable α} (h : Endpoint.IsInPlace entry)
    (family : Section α) : inlineEntry family entry = .ok entry := by
  obtain ⟨value, rfl⟩ := h
  rfl

theorem inlineParameters_eq_self {change : Parameter → Parameter}
    {entries entries' : List (Referable Parameter)}
    (h : List.Forall₂ (PutInPlace (parameterSection components) change) entries entries') :
    entries'.mapM (inlineEntry (parameterSection components')) = .ok entries' := by
  refine mapM_eq_self fun entry' hm => ?_
  obtain ⟨_, -, hput⟩ := exists_mem_of_forall₂ h hm
  exact inlineEntry_of_isInPlace hput.isInPlace _

/-- An operation with everything in place stays as it is when it is gone through again. -/
theorem OperationInPlace.inlineOperation_eq {operation operation' : Operation}
    (h : OperationInPlace components f operation operation') :
    inlineOperation components' operation' = .ok operation' := by
  have hresponses : operation'.responses.mapValuesM (inlineEntry (responseSection components')) =
      .ok operation'.responses := by
    refine mapValuesM_eq_self fun given' hm => ?_
    obtain ⟨_, -, -, hput⟩ := exists_mem_of_forall₂ h.responses hm
    exact inlineEntry_of_isInPlace hput.isInPlace _
  have hbody := h.requestBody
  -- The steps succeed one after the other with what they are given.
  obtain ⟨operationId, summary, description, parameters, requestBody, responses⟩ := operation'
  simp only at hbody hresponses
  rw [inlineOperation, inlineParameters_eq_self h.parameters]
  cases requestBody with
  | none => simp only [hresponses, bind, Except.bind, pure, Except.pure]
  | some body =>
    have hb := inlineEntry_of_isInPlace (isInPlace_of_rel hbody) (requestBodySection components')
    simp only [hb, hresponses, bind, Except.bind, pure, Except.pure, Functor.map, Except.map]

theorem PathItemInPlace.inlinePathItem_eq {item item' : PathItem}
    (h : PathItemInPlace components f item item') :
    inlinePathItem components' item' = .ok item' := by
  rw [inlinePathItem, inlineParameters_eq_self h.parameters]
  refine bind_eq_ok.mpr ⟨_, rfl, bind_eq_ok.mpr ⟨_, mapM_eq_self fun given' hm => ?_, rfl⟩⟩
  obtain ⟨_, -, -, hoperation⟩ := exists_mem_of_forall₂ h.operations hm
  exact bind_eq_ok.mpr ⟨_, hoperation.inlineOperation_eq, rfl⟩

/-- Where everything is in place already, nothing changes. -/
theorem PathsInPlace.inlineComponents_eq {paths : Option (Fields PathItem)} {result : ApiDocument}
    (h : PathsInPlace components f paths result.paths) : inlineComponents result = .ok result := by
  obtain ⟨openapi, info, paths', resultComponents⟩ := result
  change PathsInPlace components f paths paths' at h
  rw [inlineComponents]
  cases h with
  | none => rfl
  | some hall =>
    refine bind_eq_ok.mpr ⟨_, mapValuesM_eq_self fun entry' hm => ?_, rfl⟩
    obtain ⟨_, -, -, hitem⟩ := exists_mem_of_forall₂ hall hm
    exact hitem.inlinePathItem_eq

/-! ### Operations -/

/-- No operation of paths that are in place has a reference for a parameter, a body or a response.
-/
theorem PathsInPlace.isInPlace {paths paths' : Option (Fields PathItem)}
    (h : PathsInPlace components f paths paths') {site : Endpoint.Site}
    (hs : site ∈ Endpoint.sites (paths'.getD [])) : site.IsInPlace := by
  cases h with
  | none => exact absurd hs List.not_mem_nil
  | some hall =>
  obtain ⟨entry, hm, hs⟩ := List.mem_flatMap.mp hs
  obtain ⟨given, ho, rfl⟩ := List.mem_map.mp hs
  obtain ⟨_, -, -, hitem⟩ := exists_mem_of_forall₂ hall hm
  obtain ⟨_, -, -, hoperation⟩ := exists_mem_of_forall₂ hitem.operations ho
  constructor
  · intro parameter hp
    rcases List.mem_append.mp hp with hp | hp
    · obtain ⟨_, -, hput⟩ := exists_mem_of_forall₂ hitem.parameters hp
      exact hput.isInPlace
    · obtain ⟨_, -, hput⟩ := exists_mem_of_forall₂ hoperation.parameters hp
      exact hput.isInPlace
  · intro body hb
    have hrel := hoperation.requestBody
    rw [Option.mem_def.mp hb] at hrel
    exact isInPlace_of_rel hrel
  · intro response hr
    obtain ⟨_, -, -, hput⟩ := exists_mem_of_forall₂ hoperation.responses hr
    exact hput.isInPlace

/-! ### Resolving -/

namespace Resolver

open Reference.Bundle

/-- What stands in the paths of a resolved document is given in place: it is what the references of
the document lead to, with its schemas bundled.  Its operations do not fail for a reference. -/
theorem inlined_of_resolve {resolver : Resolver} {load : Path → Except LoadError Value}
    {document result : ApiDocument} (h : (resolver.resolve load document).result = .ok result) :
    let components := document.components.getD .none
    let bundled := SchemaOrRef.mapReferences (rewritten (documentOrigin resolver.folder))
    PathsInPlace components bundled document.paths result.paths ∧
    SectionsKept components bundled (result.components.getD .none) ∧
    ∀ (known : KnownTypes) (schemas : Fields SchemaOrRef),
      (∀ failure ∈ (Endpoint.resolveEndpoints known schemas (result.paths.getD [])).failures,
        failure.cause.NoReference) ∧
      ∀ site ∈ Endpoint.sites (result.paths.getD []), ∀ code,
        .unresolved code ∉ Endpoint.responseOutcomes known site.operation := by
  intro components bundled
  obtain ⟨st, -, -, hi⟩ := exists_bundles_of_resolve h
  have hpaths := pathsInPlace hi
  refine ⟨hpaths, ?_, fun known schemas => ⟨fun failure hf => ?_, fun site hs code => ?_⟩⟩
  · rw [components_inlineComponents hi]
    exact sectionsKept_merged st.imports document bundled
  · exact Endpoint.noReference_of_mem_failures (fun _ => hpaths.isInPlace) hf
  · exact Endpoint.unresolved_not_mem_responseOutcomes (hpaths.isInPlace hs) code

/-! ### Adopting -/

/-- An adoption answers with a pet, which is described in another file. -/
def adoptedPet : Response :=
  ⟨"A pet", [("application/json", ⟨some (.ref "pets.yml#/Pet")⟩)]⟩

/-- The components that an adoption refers to: the response, and another name of it. -/
def adoptionComponents : Components :=
  { Components.none with
    responses := [("Adopted", .ref "#/components/responses/Pet"), ("Pet", .inline adoptedPet)] }

/-- An operation that refers to its only response. -/
def adoptionDocument : ApiDocument where
  openapi := "3.0.3"
  info := ⟨"Adoptions", none, "1"⟩
  paths := some [("/pets", { PathItem.blank with
    operations := [(.put, ⟨some "adopt", none, none, [], none,
      [("200", .ref "#/components/responses/Adopted")]⟩)] })]
  components := some adoptionComponents

theorem endsIn_adoptedPet : EndsIn (responseSection adoptionComponents)
    (.ref "#/components/responses/Adopted") adoptedPet := by
  have hadopted : componentRef "responses" "Adopted" = "#/components/responses/Adopted" := by
    decide +kernel
  have hpet : componentRef "responses" "Pet" = "#/components/responses/Pet" := by decide +kernel
  rw [← hadopted]
  refine .ref rfl ?_
  rw [← hpet]
  exact .ref rfl (.inline adoptedPet)

/-- The response that the chain leads to is put in place, and refers to an imported schema. -/
theorem inlined_of_resolve_adoption : ∃ result item operation,
    ((Resolver.fresh .here).resolve petFile adoptionDocument).result = .ok result ∧
      result.paths = some [("/pets", item)] ∧ item.operations = [(.put, operation)] ∧
      operation.responses = [("200",
        .inline ⟨"A pet", [("application/json", ⟨some (.ref "#/components/schemas/Pet")⟩)]⟩)] := by
  obtain ⟨result, h⟩ := @exists_resolve_eq_ok (Resolver.fresh .here) petFile adoptionDocument 3
    (by decide +kernel)
  -- The result is not computed: the chain of the document alone says what stands in it.
  have hpaths := (inlined_of_resolve h).1
  refine ⟨result, ?_⟩
  generalize result.paths = paths at hpaths
  cases hpaths with
  | some hall =>
  obtain ⟨⟨path, item⟩, ⟨hpath, hitem⟩, rfl⟩ := eq_singleton_of_forall₂ hall
  obtain ⟨⟨method, operation⟩, ⟨hmethod, hoperation⟩, ho⟩ :=
    eq_singleton_of_forall₂ hitem.operations
  obtain ⟨⟨key, given⟩, ⟨hkey, value, hvalue, hgiven⟩, hr⟩ :=
    eq_singleton_of_forall₂ hoperation.responses
  have hpet := hvalue.unique (slash_not_mem_responseSection _) endsIn_adoptedPet
  have href : rewritten (documentOrigin .here) "pets.yml#/Pet" = "#/components/schemas/Pet" := by
    decide +kernel
  subst hpath hmethod hkey hgiven hpet
  refine ⟨item, operation, h, rfl, ho, ?_⟩
  rw [hr, ← href]
  rfl

end Resolver

end FunctionForge.Reference
