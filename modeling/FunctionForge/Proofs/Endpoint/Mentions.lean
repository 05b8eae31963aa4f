import FunctionForge.Endpoint.Resolve
import FunctionForge.Proofs.Document.Traverse
import FunctionForge.Proofs.Endpoint.Summary
import FunctionForge.Proofs.Model.Mentions

/-!
# The class names in an endpoint

`Endpoint.mentions` lists the names of generated classes that an endpoint is made of: those in the
types of its parameters, of its responses and of their summary, and in the body of its request.
Each of them is what a reference in the operation stands for, or, where the body is a union that the
operation only refers to, what a reference in a component stands for (`names_of_resolveEndpoints`).
-/

namespace FunctionForge.Endpoint

open Document (ApiDocument Discriminator MediaType Operation Parameter PathItem Referable Response
  Schema SchemaOrRef contentReferences)

variable {known : KnownTypes} {schemas : Fields SchemaOrRef} {name : String}

/-! ### Contents -/

/-- An element of a class comes from a reference in its schema. -/
theorem names_of_elementOfSchema {schema : Schema} {type : TypeRef}
    (h : elementOfSchema known schema = .ok type) (hn : type.entityName? = some name) :
    known.Names schema.references name := by
  rw [elementOfSchema] at h
  split_ifs at h
  · obtain ⟨scalar, -, rfl⟩ := map_eq_ok.mp h
    exact absurd hn nofun
  · split at h
    · rename_i item hi
      obtain rfl := Except.ok.inj h
      obtain ⟨items, hitems, ht⟩ := Option.bind_eq_some_iff.mp hi
      exact (Model.names_of_elementType? ht hn).mono (Schema.references_items hitems)
    · exact absurd h nofun

/-- The type of a primitive names no class. -/
theorem entityName?_of_elementOfSchema {schema : Schema} (hp : schema.isPrimitive = true)
    {type : TypeRef} (h : elementOfSchema known schema = .ok type) : type.entityName? = none := by
  rw [elementOfSchema, if_pos hp] at h
  obtain ⟨scalar, -, rfl⟩ := map_eq_ok.mp h
  rfl

/-- The class that a content is made of is what a reference in its schema stands for. -/
theorem names_of_resolveElement (hk : known.AliasesPrimitive) {schema : SchemaOrRef}
    {type : TypeRef} (h : resolveElement known schema = .ok type)
    (hn : type.entityName? = some name) : known.Names schema.references name := by
  cases schema with
  | inline schema => exact names_of_elementOfSchema h hn
  | ref path =>
    rw [resolveElement] at h
    split at h
    · rename_i className hr
      obtain rfl := Except.ok.inj h
      obtain rfl := Option.some.inj hn
      exact ⟨path, List.mem_singleton_self _, hr⟩
    · rename_i body hr
      rw [entityName?_of_elementOfSchema (KnownTypes.isPrimitive_of_resolve hk hr) h] at hn
      exact absurd hn nofun

theorem references_of_jsonSchema? {content : Fields MediaType} {schema : SchemaOrRef}
    (h : jsonSchema? content = .ok (some schema)) :
    schema.references ⊆ contentReferences content := by
  unfold jsonSchema? at h
  split at h
  · exact absurd h nofun
  · rename_i mediaType media
    split_ifs at h
    intro r hr
    refine List.mem_flatMap.mpr ⟨media, List.mem_singleton_self _, ?_⟩
    rw [Except.ok.inj h]
    exact hr
  · exact absurd h nofun

/-- A class in the type of a content comes from a reference in the content. -/
theorem names_of_resolveContentType (hk : known.AliasesPrimitive) {content : Fields MediaType}
    {type : TypeRef} (h : resolveContentType known content = .ok (some type))
    (hn : type.entityName? = some name) : known.Names (contentReferences content) name := by
  obtain ⟨found, hf, h⟩ := bind_eq_ok.mp h
  cases found with
  | none => exact absurd h nofun
  | some schema =>
    obtain ⟨element, he, h⟩ := bind_eq_ok.mp h
    obtain rfl := Option.some.inj (Except.ok.inj h)
    exact (names_of_resolveElement hk he hn).mono (references_of_jsonSchema? hf)

/-! ### Bodies of requests -/

/-- The names of classes that the body of a request is made of. -/
def BodySummary.mentions : BodySummary → List String
  | .simple type => type.entityName?.toList
  | .union candidates mapping _ => candidates ++ mapping.values

theorem names_of_unionCases {discriminator : Discriminator} {members : List SchemaOrRef}
    {cases : List (String × String)} (h : unionCases known discriminator members = .ok cases)
    (hn : name ∈ cases.map Prod.snd) :
    known.Names (members.flatMap SchemaOrRef.references) name := by
  induction members generalizing cases with
  | nil =>
    obtain rfl := Except.ok.inj h
    exact absurd hn List.not_mem_nil
  | cons member rest ih =>
    cases member with
    | ref path =>
      rw [unionCases] at h
      split at h
      · exact absurd h nofun
      · rename_i candidate hr
        obtain ⟨others, ho, rfl⟩ := map_eq_ok.mp h
        rcases List.mem_cons.mp hn with rfl | hn
        · exact ⟨path, List.mem_cons_self, hr⟩
        · exact (ih ho hn).mono (List.subset_cons_self _ _)
    | inline schema =>
      rw [unionCases] at h
      split_ifs at h
      exact (ih h hn).mono (List.subset_append_right _ _)

/-- The cases of a union are what its references stand for. -/
theorem names_of_resolveUnion {schema : Schema} {body : BodySummary}
    (h : resolveUnion known schema = .ok body) (hn : name ∈ body.mentions) :
    known.Names schema.references name := by
  unfold resolveUnion at h
  cases hd : schema.discriminator with
  | none =>
    rw [hd] at h
    exact absurd h nofun
  | some discriminator =>
    rw [hd] at h
    obtain ⟨cases, hc, h⟩ := bind_eq_ok.mp h
    obtain rfl := Except.ok.inj h
    have hcases : name ∈ cases.map Prod.snd := by
      rcases List.mem_append.mp hn with hn | hn
      · exact hn
      · exact Fields.values_ofList_subset cases hn
    refine (names_of_unionCases hc hcases).mono fun r hr => ?_
    obtain ⟨member, hm, hr⟩ := List.mem_flatMap.mp hr
    exact Schema.references_oneOf hm hr

/-- A union is the schema of the body itself or the component that it refers to. -/
theorem references_of_unionSchema? {schema : SchemaOrRef} {union : Schema}
    (h : unionSchema? schemas schema = some union) :
    union.references ⊆ schema.references ++ schemas.values.flatMap SchemaOrRef.references := by
  obtain ⟨h, -⟩ := Option.filter_eq_some_iff.mp h
  intro r hr
  cases schema with
  | inline given =>
    obtain rfl := Option.some.inj h
    exact List.mem_append_left _ hr
  | ref path =>
    -- The reference is followed once, so what it leads to must be given in place.
    obtain ⟨component, hc, hs⟩ := Option.bind_eq_some_iff.mp h
    cases component with
    | ref path => exact absurd hs nofun
    | inline given =>
      obtain rfl := Option.some.inj hs
      refine List.mem_append_right _ (List.mem_flatMap.mpr ⟨.inline given, ?_, hr⟩)
      exact List.mem_map_of_mem (Fields.mem_of_get? hc)

/-- A body is the union that its schema leads to, or else of one type. -/
theorem resolveBody_eq_ok {content : Fields MediaType} {body : BodySummary}
    (h : resolveBody known schemas content = .ok (some body)) :
    ∃ schema, jsonSchema? content = .ok (some schema) ∧
      ((∃ union, unionSchema? schemas schema = some union ∧
          resolveUnion known union = .ok body) ∨
        ∃ type, unionSchema? schemas schema = none ∧ resolveElement known schema = .ok type ∧
          body = .simple type) := by
  obtain ⟨found, hf, h⟩ := bind_eq_ok.mp h
  cases found with
  | none => exact absurd h nofun
  | some schema =>
    refine ⟨schema, hf, ?_⟩
    simp only at h
    cases hu : unionSchema? schemas schema with
    | some union =>
      rw [hu] at h
      obtain ⟨summary, hs, h⟩ := bind_eq_ok.mp h
      obtain rfl := Option.some.inj (Except.ok.inj h)
      exact Or.inl ⟨union, rfl, hs⟩
    | none =>
      rw [hu] at h
      obtain ⟨type, ht, h⟩ := bind_eq_ok.mp h
      exact Or.inr ⟨type, rfl, ht, (Option.some.inj (Except.ok.inj h)).symm⟩

/-- A class in a body comes from a reference in its content, or in a component that this refers to.
-/
theorem names_of_resolveBody (hk : known.AliasesPrimitive) {content : Fields MediaType}
    {body : BodySummary} (h : resolveBody known schemas content = .ok (some body))
    (hn : name ∈ body.mentions) :
    known.Names
      (contentReferences content ++ schemas.values.flatMap SchemaOrRef.references) name := by
  obtain ⟨schema, hf, ⟨union, hu, hs⟩ | ⟨type, -, ht, rfl⟩⟩ := resolveBody_eq_ok h
  · refine (names_of_resolveUnion hs hn).mono fun r hr => ?_
    rcases List.mem_append.mp (references_of_unionSchema? hu hr) with hr | hr
    · exact List.mem_append_left _ (references_of_jsonSchema? hf hr)
    · exact List.mem_append_right _ hr
  · have hnames := names_of_resolveElement hk ht (Option.mem_toList.mp hn)
    exact hnames.mono fun r hr => List.mem_append_left _ (references_of_jsonSchema? hf hr)

theorem operationBody_eq_ok {operation : Operation} {body : BodySummary}
    (h : operationBody known schemas operation = .ok (some body)) :
    ∃ given, operation.requestBody = some (.inline given) ∧
      resolveBody known schemas given.content = .ok (some body) := by
  rw [operationBody] at h
  split at h
  · exact absurd h nofun
  · exact absurd h nofun
  · rename_i given hg
    exact ⟨given, hg, h⟩

theorem names_of_operationBody (hk : known.AliasesPrimitive) {operation : Operation}
    {body : BodySummary} (h : operationBody known schemas operation = .ok (some body))
    (hn : name ∈ body.mentions) :
    known.Names (operation.references ++ schemas.values.flatMap SchemaOrRef.references) name := by
  obtain ⟨given, hg, h⟩ := operationBody_eq_ok h
  refine (names_of_resolveBody hk h hn).mono fun r hr => ?_
  rcases List.mem_append.mp hr with hr | hr
  · refine List.mem_append_left _ (List.mem_append_right _ (List.mem_append_left _ ?_))
    rw [hg]
    exact hr
  · exact List.mem_append_right _ hr

/-! ### Parameters and responses -/

/-- A parameter in the path has the type of a schema that is a scalar. -/
theorem exists_scalar_of_pathParameter? {entry : Referable Parameter} {parameter : PathParameter}
    (h : pathParameter? known entry = .ok (some parameter)) :
    ∃ schema type marked, resolveElement known schema = .ok (.scalar type marked) ∧
      parameter.typeRef = .scalar type marked := by
  cases entry with
  | ref path => exact absurd h nofun
  | inline given =>
    rw [pathParameter?] at h
    split_ifs at h
    · exact absurd h nofun
    · split at h
      · exact absurd h nofun
      · rename_i schema _
        split at h
        · rename_i type marked ht
          obtain rfl := Option.some.inj (Except.ok.inj h)
          exact ⟨schema, type, marked, ht, rfl⟩
        · exact absurd h nofun

/-- Every parameter in the path is made of one of the parameters. -/
theorem exists_entry_of_mem_pathParameters {entries : List (Referable Parameter)}
    {parameters : List PathParameter} (h : Endpoint.pathParameters known entries = .ok parameters)
    {parameter : PathParameter} (hm : parameter ∈ parameters) :
    ∃ entry ∈ entries, pathParameter? known entry = .ok (some parameter) := by
  induction entries generalizing parameters with
  | nil =>
    obtain rfl := Except.ok.inj h
    exact absurd hm List.not_mem_nil
  | cons entry rest ih =>
    obtain ⟨first, hf, h⟩ := bind_eq_ok.mp h
    obtain ⟨others, ho, h⟩ := bind_eq_ok.mp h
    obtain rfl := Except.ok.inj h
    rcases List.mem_append.mp hm with hm | hm
    · rw [Option.mem_toList.mp hm] at hf
      exact ⟨entry, List.mem_cons_self, hf⟩
    · obtain ⟨other, hother, hmade⟩ := ih ho hm
      exact ⟨other, List.mem_cons_of_mem _ hother, hmade⟩

/-- Parameters in the path are scalars. -/
theorem entityName?_of_pathParameters {entries : List (Referable Parameter)}
    {parameters : List PathParameter} (h : Endpoint.pathParameters known entries = .ok parameters) :
    ∀ parameter ∈ parameters, parameter.typeRef.entityName? = none := by
  intro parameter hm
  obtain ⟨entry, -, hmade⟩ := exists_entry_of_mem_pathParameters h hm
  obtain ⟨schema, type, marked, -, ht⟩ := exists_scalar_of_pathParameter? hmade
  rw [ht]
  rfl

/-- The name of the class that the body of a response is made of. -/
def ResponseInfo.mention? (response : ResponseInfo) : Option String :=
  response.content.bind TypeRef.entityName?

/-- The content of a response is what the content of a response in the operation comes to. -/
theorem exists_content_of_mem_responseInfos {operation : Operation} {info : ResponseInfo}
    {type : TypeRef} (h : info ∈ responseInfos known operation)
    (ht : info.content = some type) :
    ∃ key response, (key, .inline response) ∈ operation.responses ∧
      resolveContentType known response.content = .ok (some type) := by
  obtain ⟨outcome, ho, hi⟩ := List.mem_filterMap.mp h
  obtain ⟨⟨key, given⟩, he, ho⟩ := List.mem_filterMap.mp ho
  obtain ⟨code, -, rfl⟩ := Option.map_eq_some_iff.mp ho
  cases given with
  | ref path => exact absurd hi nofun
  | inline response =>
    simp only at hi
    split at hi
    · rename_i content hc
      obtain rfl := Option.some.inj hi
      exact ⟨key, response, he, hc.trans (congrArg Except.ok ht)⟩
    · obtain rfl := Option.some.inj hi
      exact absurd ht nofun

/-- The class that the body of a response is made of is what a reference in the operation stands
for. -/
theorem names_of_responseInfos (hk : known.AliasesPrimitive) {operation : Operation}
    {info : ResponseInfo} (h : info ∈ responseInfos known operation)
    (hn : info.mention? = some name) : known.Names operation.references name := by
  obtain ⟨type, ht, hname⟩ := Option.bind_eq_some_iff.mp hn
  obtain ⟨key, response, hm, hc⟩ := exists_content_of_mem_responseInfos h ht
  refine (names_of_resolveContentType hk hc hname).mono fun r hr => ?_
  refine List.mem_append_right _ (List.mem_append_right _
    (List.mem_flatMap.mpr ⟨.inline response, ?_, hr⟩))
  exact List.mem_map_of_mem hm

/-- The summary of responses has the content of one of them. -/
theorem exists_of_content_summarize {responses : List ResponseInfo} {degraded : List Nat}
    {type : TypeRef} (h : (summarize responses degraded).content = some type) :
    ∃ info ∈ responses, info.content = some type := by
  cases hs : summarize responses degraded with
  | untyped =>
    rw [hs] at h
    exact absurd h nofun
  | single content code =>
    obtain ⟨-, response, hgood, hcontent, -⟩ := summarize_eq_single_iff.mp hs
    have hm : response ∈ successes responses := hgood ▸ List.mem_singleton_self response
    rw [hs] at h
    exact ⟨response, List.mem_of_mem_filter hm, hcontent.trans h⟩
  | multiCode content codes wrapper =>
    obtain ⟨hlength, -, hcontent, -, -⟩ := summarize_eq_multiCode_iff.mp hs
    have hm := List.getElem_mem (Nat.lt_of_lt_of_le Nat.zero_lt_two hlength)
    rw [hs] at h
    exact ⟨_, List.mem_of_mem_filter hm, (hcontent _ hm).trans h⟩

/-! ### Endpoints -/

/-- The names of classes that an endpoint is made of. -/
def mentions (endpoint : Endpoint) : List String :=
  endpoint.parameters.filterMap (fun parameter => parameter.typeRef.entityName?) ++
    (endpoint.responses.filterMap ResponseInfo.mention? ++
      ((endpoint.responseSummary.content.bind TypeRef.entityName?).toList ++
        endpoint.bodySummary.toList.flatMap BodySummary.mentions))

/-- All that an endpoint is made of. -/
theorem exists_parts_of_ofSite {site : Site} {endpoint : Endpoint}
    (h : ofSite known schemas site = .ok endpoint) :
    ∃ operationId parameters bodySummary, site.operation.operationId = some operationId ∧
      Endpoint.pathParameters known (site.pathParameters ++ site.operation.parameters) =
        .ok parameters ∧
      operationBody known schemas site.operation = .ok bodySummary ∧
      endpoint = {
        operationId
        name := methodName operationId
        method := site.method
        path := Text.stripMark '/' site.path
        documentation := documentationLines site.operation
        parameters
        needsRequestBody := site.operation.requestBody.isSome
        responses := responseInfos known site.operation
        responseSummary := summarize (responseInfos known site.operation)
          (degradedCodes known site.operation)
        bodySummary } := by
  unfold ofSite at h
  cases ho : site.operation.operationId with
  | none =>
    simp only [ho] at h
    exact absurd h nofun
  | some operationId =>
    simp only [ho] at h
    obtain ⟨parameters, hp, h⟩ := bind_eq_ok.mp h
    obtain ⟨body, hb, h⟩ := bind_eq_ok.mp h
    exact ⟨operationId, parameters, body, rfl, hp, hb, (Except.ok.inj h).symm⟩

/-- An endpoint has its parts from the operation and its path. -/
theorem ofSite_eq_ok {site : Site} {endpoint : Endpoint}
    (h : ofSite known schemas site = .ok endpoint) :
    (site.operation.operationId = some endpoint.operationId ∧ endpoint.method = site.method ∧
        endpoint.path = Text.stripMark '/' site.path) ∧
      Endpoint.pathParameters known (site.pathParameters ++ site.operation.parameters) =
        .ok endpoint.parameters ∧
      operationBody known schemas site.operation = .ok endpoint.bodySummary ∧
      endpoint.responses = responseInfos known site.operation ∧
      endpoint.responseSummary =
        summarize endpoint.responses (degradedCodes known site.operation) := by
  obtain ⟨operationId, parameters, body, ho, hp, hb, rfl⟩ := exists_parts_of_ofSite h
  exact ⟨⟨ho, rfl, rfl⟩, hp, hb, rfl, rfl⟩

/-- A class in an endpoint comes from a reference in the operation, or in a component. -/
theorem names_of_ofSite (hk : known.AliasesPrimitive) {site : Site} {endpoint : Endpoint}
    (h : ofSite known schemas site = .ok endpoint) (hn : name ∈ endpoint.mentions) :
    known.Names
      (site.operation.references ++ schemas.values.flatMap SchemaOrRef.references) name := by
  obtain ⟨-, hp, hb, hr, hs⟩ := ofSite_eq_ok h
  -- The summary has its content from a response, so both are settled by this.
  have hinfo {info : ResponseInfo} (hi : info ∈ endpoint.responses)
      (hm : info.mention? = some name) : known.Names
        (site.operation.references ++ schemas.values.flatMap SchemaOrRef.references) name := by
    rw [hr] at hi
    exact (names_of_responseInfos hk hi hm).mono (List.subset_append_left _ _)
  rcases List.mem_append.mp hn with hn | hn
  · obtain ⟨parameter, hm, hname⟩ := List.mem_filterMap.mp hn
    rw [entityName?_of_pathParameters hp parameter hm] at hname
    exact absurd hname nofun
  rcases List.mem_append.mp hn with hn | hn
  · obtain ⟨info, hi, hm⟩ := List.mem_filterMap.mp hn
    exact hinfo hi hm
  rcases List.mem_append.mp hn with hn | hn
  · obtain ⟨type, ht, hname⟩ := Option.bind_eq_some_iff.mp (Option.mem_toList.mp hn)
    rw [hs] at ht
    obtain ⟨info, hi, hc⟩ := exists_of_content_summarize ht
    refine hinfo hi ?_
    rw [ResponseInfo.mention?, hc]
    exact hname
  · obtain ⟨body, hbody, hn⟩ := List.mem_flatMap.mp hn
    rw [Option.mem_toList.mp hbody] at hb
    exact names_of_operationBody hk hb hn

/-- Outcomes are collected in their order, the endpoints apart from the failures. -/
theorem foldl_addOutcome (outcomes : List (Except DefinitionError Endpoint))
    (endpoints : Resolution Endpoint) : outcomes.foldl addOutcome endpoints =
      ⟨endpoints.items ++ outcomes.filterMap Except.toOption,
        endpoints.failures ++ outcomes.filterMap error?⟩ := by
  induction outcomes generalizing endpoints with
  | nil => simp
  | cons outcome rest ih =>
    rw [List.foldl_cons, ih]
    cases outcome with
    | ok endpoint => simp [addOutcome, List.filterMap_cons, Except.toOption, error?]
    | error failure => simp [addOutcome, List.filterMap_cons, Except.toOption, error?]

/-- Each operation comes to an endpoint or to a failure, in their order. -/
theorem resolveEndpoints_eq (known : KnownTypes) (schemas : Fields SchemaOrRef)
    (paths : Fields PathItem) : resolveEndpoints known schemas paths =
      ⟨((sites paths).map (resolve known schemas)).filterMap Except.toOption,
        ((sites paths).map (resolve known schemas)).filterMap error?⟩ := by
  rw [resolveEndpoints, foldl_addOutcome]
  rfl

theorem ofSite_of_resolve {site : Site} {endpoint : Endpoint}
    (h : resolve known schemas site = .ok endpoint) : ofSite known schemas site = .ok endpoint := by
  rw [resolve] at h
  split at h
  · rename_i found hf
    obtain rfl := Except.ok.inj h
    exact hf
  · cases h

/-- Every endpoint is that of an operation. -/
theorem exists_site_of_item {paths : Fields PathItem} {endpoint : Endpoint}
    (h : endpoint ∈ (resolveEndpoints known schemas paths).items) :
    ∃ site ∈ sites paths, ofSite known schemas site = .ok endpoint := by
  rw [resolveEndpoints_eq] at h
  obtain ⟨outcome, ho, hok⟩ := List.mem_filterMap.mp h
  obtain ⟨site, hm, rfl⟩ := List.mem_map.mp ho
  exact ⟨site, hm, ofSite_of_resolve (eq_ok_of_toOption hok)⟩

/-- The references of an operation are among those of the paths. -/
theorem references_of_mem_sites {paths : Fields PathItem} {site : Site} (h : site ∈ sites paths) :
    site.operation.references ⊆ paths.values.flatMap PathItem.references := by
  obtain ⟨entry, he, hs⟩ := List.mem_flatMap.mp h
  obtain ⟨operation, ho, rfl⟩ := List.mem_map.mp hs
  intro r hr
  refine List.mem_flatMap.mpr ⟨entry.2, List.mem_map_of_mem he, List.mem_append_right _ ?_⟩
  exact List.mem_flatMap.mpr ⟨operation, ho, hr⟩

/-- Each class that an endpoint of a document is made of is what a reference in the document stands
for. -/
theorem names_of_resolveEndpoints (hk : known.AliasesPrimitive) {document : ApiDocument}
    {endpoint : Endpoint}
    (h : endpoint ∈
      (resolveEndpoints known document.schemas (document.paths.getD [])).items)
    (hn : name ∈ endpoint.mentions) : known.Names document.references name := by
  obtain ⟨site, hm, hs⟩ := exists_site_of_item h
  refine (names_of_ofSite hk hs hn).mono fun r hr => ?_
  rcases List.mem_append.mp hr with hr | hr
  · exact document.references_of_mem_paths (references_of_mem_sites hm hr)
  · exact document.references_of_mem_schemas hr

end FunctionForge.Endpoint
