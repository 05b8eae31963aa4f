import FunctionForge.Proofs.Endpoint.Mentions

/-!
# Contents of responses

No operation fails by a response.  A content that cannot be used leaves its response without one, so
that an operation with another content comes to the same endpoint, up to the type of that response
and the summary, or fails for the same cause.  `Refused` lists the causes that are left, and each
operation of a document comes to one endpoint or to one failure (`contents_fail_no_operation`).
-/

namespace FunctionForge.Endpoint

open Document (MediaType Operation PathItem Referable Response SchemaOrRef)

variable {known : KnownTypes} {schemas : Fields SchemaOrRef}

/-! ### Other responses -/

/-- The operation at a site with these responses instead of its own. -/
def Site.withResponses (site : Site) (responses : Fields (Referable Response)) : Site :=
  { site with operation := { site.operation with responses } }

/-- The type of a content; none if it has none, or none that can be used. -/
def usableType (known : KnownTypes) (content : Fields MediaType) : Option TypeRef :=
  (resolveContentType known content).toOption.join

/-- What is kept of a response that is given in place: none if its key is no status code. -/
def ownInfo? (known : KnownTypes) (key : String) (response : Response) : Option ResponseInfo :=
  (statusCode? key).map fun code =>
    ⟨code, response.description, usableType known response.content⟩

theorem info?_responseOutcome? (known : KnownTypes) (key : String) (response : Response) :
    (responseOutcome? known (key, .inline response)).bind ResponseOutcome.info? =
      ownInfo? known key response := by
  unfold responseOutcome? ownInfo? usableType
  cases statusCode? key with
  | none => rfl
  | some code =>
    cases hc : resolveContentType known response.content with
    | ok content => simp [hc, ResponseOutcome.info?, Except.toOption]
    | error cause => simp [hc, ResponseOutcome.info?, Except.toOption]

theorem responseInfos_eq (known : KnownTypes) (operation : Operation) :
    responseInfos known operation = operation.responses.filterMap fun entry =>
      (responseOutcome? known entry).bind ResponseOutcome.info? :=
  List.filterMap_filterMap

/-- A response stands where it does among the responses, whatever its content is. -/
theorem responseInfos_withResponses (known : KnownTypes) (site : Site)
    (before after : Fields (Referable Response)) (key : String) (response : Response) :
    responseInfos known
        (site.withResponses (before ++ (key, .inline response) :: after)).operation =
      responseInfos known (site.withResponses before).operation ++
        ((ownInfo? known key response).toList ++
          responseInfos known (site.withResponses after).operation) := by
  simp only [responseInfos_eq, Site.withResponses, List.filterMap_append, List.filterMap_cons,
    info?_responseOutcome?]
  cases ownInfo? known key response with
  | none => rfl
  | some info => rfl

/-- Nothing is written of a content. -/
theorem documentationLines_withResponses (site : Site) (before after : Fields (Referable Response))
    (key description : String) (content other : Fields MediaType) :
    documentationLines (site.withResponses
        (before ++ (key, .inline ⟨description, content⟩) :: after)).operation =
      documentationLines (site.withResponses
        (before ++ (key, .inline ⟨description, other⟩) :: after)).operation := by
  simp only [documentationLines, Site.withResponses, List.filterMap_append, List.filterMap_cons]
  rfl

/-! ### Failures -/

/-- Why an operation has no endpoint: it has no id, or else its parameters in the path, or else its
body cannot be used. -/
inductive Refused (known : KnownTypes) (schemas : Fields SchemaOrRef) (site : Site) : Cause → Prop
  | operationId (h : site.operation.operationId = none) :
      Refused known schemas site .missingOperationId
  | parameters {cause : Cause} (h : site.operation.operationId.isSome = true)
      (hp : pathParameters known (site.pathParameters ++ site.operation.parameters) =
        .error cause) : Refused known schemas site cause
  | body {cause : Cause} {parameters : List PathParameter}
      (h : site.operation.operationId.isSome = true)
      (hp : pathParameters known (site.pathParameters ++ site.operation.parameters) =
        .ok parameters)
      (hb : operationBody known schemas site.operation = .error cause) :
      Refused known schemas site cause

theorem ofSite_eq_error_iff {site : Site} {cause : Cause} :
    ofSite known schemas site = .error cause ↔ Refused known schemas site cause := by
  -- The steps are the operation id, the parameters and the body; the responses cannot fail.
  cases ho : site.operation.operationId with
  | none =>
    have hmissing : ofSite known schemas site = .error .missingOperationId := by
      simp only [ofSite, ho]
      rfl
    rw [hmissing]
    constructor
    · rintro ⟨⟩
      exact .operationId ho
    · rintro (_ | ⟨h, -⟩ | ⟨h, -, -⟩)
      · rfl
      · exact absurd (ho ▸ h) nofun
      · exact absurd (ho ▸ h) nofun
  | some operationId =>
    have hsome : site.operation.operationId.isSome = true := by rw [ho]; rfl
    constructor
    · intro h
      simp only [ofSite, ho] at h
      rcases bind_eq_error.mp h with hp | ⟨parameters, hp, h⟩
      · exact .parameters hsome hp
      rcases bind_eq_error.mp h with hb | ⟨body, -, h⟩
      · exact .body hsome hp hb
      · cases h
    · rintro (h | ⟨-, hp⟩ | ⟨-, hp, hb⟩)
      · exact absurd (ho.symm.trans h) nofun
      · simp only [ofSite, ho]
        exact bind_eq_error.mpr (Or.inl hp)
      · simp only [ofSite, ho]
        exact bind_eq_error.mpr (Or.inr ⟨_, hp, bind_eq_error.mpr (Or.inl hb)⟩)

theorem resolve_eq_error_iff {site : Site} {failure : DefinitionError} :
    resolve known schemas site = .error failure ↔
      failure.location = site.method.text ++ " " ++ site.path ∧
        Refused known schemas site failure.cause := by
  rw [← ofSite_eq_error_iff, resolve]
  cases ofSite known schemas site with
  | ok endpoint => simp
  | error cause =>
    simp only [Except.error.injEq, Site.location]
    constructor
    · rintro rfl
      exact ⟨rfl, rfl⟩
    · rintro ⟨hl, rfl⟩
      rw [← hl]

/-! ### Two runs -/

/-- An endpoint with what other responses leave of it. -/
def withInfosOf (known : KnownTypes) (operation : Operation) (endpoint : Endpoint) : Endpoint :=
  { endpoint with
    documentation := documentationLines operation
    responses := responseInfos known operation
    responseSummary :=
      summarize (responseInfos known operation) (degradedCodes known operation) }

/-- With other responses, an operation comes to the same endpoint up to what is made of these, or
fails as it did. -/
theorem resolve_withResponses (known : KnownTypes) (schemas : Fields SchemaOrRef) (site : Site)
    (responses others : Fields (Referable Response)) :
    resolve known schemas (site.withResponses others) =
      (resolve known schemas (site.withResponses responses)).map
        (withInfosOf known (site.withResponses others).operation) := by
  simp only [resolve, ofSite, operationBody, Site.withResponses]
  cases site.operation.operationId with
  | none => rfl
  | some operationId =>
    dsimp only
    cases pathParameters known (site.pathParameters ++ site.operation.parameters) with
    | error cause => rfl
    | ok parameters =>
      rcases site.operation.requestBody with _ | path | body
      · rfl
      · rfl
      · simp only [bind, Except.bind]
        cases resolveBody known schemas body.content with
        | error cause => rfl
        | ok body => rfl

theorem resolve_withContent (known : KnownTypes) (schemas : Fields SchemaOrRef) (site : Site)
    (before after : Fields (Referable Response)) (key description : String)
    (content other : Fields MediaType) :
    let resolved (content : Fields MediaType) := resolve known schemas
      (site.withResponses (before ++ (key, .inline ⟨description, content⟩) :: after))
    let infos (content : Fields MediaType) :=
      responseInfos known (site.withResponses before).operation ++
        ((ownInfo? known key ⟨description, content⟩).toList ++
          responseInfos known (site.withResponses after).operation)
    (∃ failure, resolved content = .error failure ∧ resolved other = .error failure) ∨
      ∃ endpoint summary, resolved content = .ok endpoint ∧ endpoint.responses = infos content ∧
        resolved other =
          .ok { endpoint with responses := infos other, responseSummary := summary } := by
  intro resolved infos
  have hother : resolved other = (resolved content).map _ := resolve_withResponses known schemas ..
  have hsame : resolved content = (resolved content).map _ := resolve_withResponses known schemas ..
  cases hr : resolved content with
  | error failure =>
    rw [hr] at hother
    exact Or.inl ⟨failure, rfl, hother⟩
  | ok endpoint =>
    rw [hr] at hother hsame
    -- What is made of the responses can be read off the endpoint itself.
    have hself := Except.ok.inj hsame
    have hresponses : endpoint.responses = infos content := by
      rw [hself]
      exact responseInfos_withResponses ..
    let operation := (site.withResponses
      (before ++ (key, .inline ⟨description, other⟩) :: after)).operation
    have hdocumentation : documentationLines operation = endpoint.documentation := by
      rw [hself]
      exact documentationLines_withResponses ..
    have hinfos : responseInfos known operation = infos other := responseInfos_withResponses ..
    refine Or.inr ⟨endpoint, summarize (infos other) (degradedCodes known operation), rfl,
      hresponses, hother.trans ?_⟩
    rw [Except.map, withInfosOf, hdocumentation, hinfos]

/-! ### Documents -/

theorem exists_endpoint_or_failure (known : KnownTypes) (schemas : Fields SchemaOrRef)
    (site : Site) :
    (∃ endpoint, resolve known schemas site = .ok endpoint ∧
      site.operation.operationId = some endpoint.operationId ∧ endpoint.method = site.method ∧
      endpoint.path = Text.stripMark '/' site.path) ∨
    ∃ cause, resolve known schemas site =
      .error ⟨site.method.text ++ " " ++ site.path, cause⟩ := by
  cases hr : resolve known schemas site with
  | error failure =>
    have hl := (resolve_eq_error_iff.mp hr).1
    exact Or.inr ⟨failure.cause, by rw [← hl]⟩
  | ok endpoint =>
    exact Or.inl ⟨endpoint, rfl, (ofSite_eq_ok (ofSite_of_resolve hr)).1⟩

/-- A content changes no more than the type of its own response and the summary.  An operation fails
only for want of an id, by its parameters in the path or by its body, and each operation of a
document comes, in their order, to one endpoint or to one failure with its method and path. -/
theorem contents_fail_no_operation (known : KnownTypes) (schemas : Fields SchemaOrRef) :
    (∀ (site : Site) (before after : Fields (Referable Response)) (key description : String)
      (content other : Fields MediaType),
      let resolved (content : Fields MediaType) := resolve known schemas
        (site.withResponses (before ++ (key, .inline ⟨description, content⟩) :: after))
      let infos (content : Fields MediaType) :=
        responseInfos known (site.withResponses before).operation ++
          ((ownInfo? known key ⟨description, content⟩).toList ++
            responseInfos known (site.withResponses after).operation)
      (∃ failure, resolved content = .error failure ∧ resolved other = .error failure) ∨
        ∃ endpoint summary, resolved content = .ok endpoint ∧
          endpoint.responses = infos content ∧
          resolved other =
            .ok { endpoint with responses := infos other, responseSummary := summary }) ∧
    (∀ (site : Site) (failure : DefinitionError), resolve known schemas site = .error failure ↔
      failure.location = site.method.text ++ " " ++ site.path ∧
        Refused known schemas site failure.cause) ∧
    ∀ paths : Fields PathItem,
      let endpoints := resolveEndpoints known schemas paths
      let outcomes := (sites paths).map (resolve known schemas)
      endpoints.items = outcomes.filterMap Except.toOption ∧
        endpoints.failures = outcomes.filterMap error? ∧
        endpoints.items.length + endpoints.failures.length = (sites paths).length ∧
        ∀ site : Site,
          (∃ endpoint, resolve known schemas site = .ok endpoint ∧
            site.operation.operationId = some endpoint.operationId ∧
            endpoint.method = site.method ∧ endpoint.path = Text.stripMark '/' site.path) ∨
          ∃ cause, resolve known schemas site =
            .error ⟨site.method.text ++ " " ++ site.path, cause⟩ := by
  refine ⟨resolve_withContent known schemas, fun site failure => resolve_eq_error_iff,
    fun paths => ?_⟩
  intro endpoints outcomes
  have hitems : endpoints.items = outcomes.filterMap Except.toOption := by
    rw [show endpoints = _ from resolveEndpoints_eq known schemas paths]
  have hfailures : endpoints.failures = outcomes.filterMap error? := by
    rw [show endpoints = _ from resolveEndpoints_eq known schemas paths]
  refine ⟨hitems, hfailures, ?_, exists_endpoint_or_failure known schemas⟩
  rw [hitems, hfailures, length_toOption_add_length_error?, List.length_map]

end FunctionForge.Endpoint
