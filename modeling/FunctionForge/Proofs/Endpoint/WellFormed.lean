import FunctionForge.Proofs.Agreement.Unions
import FunctionForge.Proofs.Endpoint.Mentions

/-!
# Well-formed endpoints

What is written of an endpoint relies on its shape.  Parameters are scalars, a content is a scalar,
a class or a list of either (`IsContent`), a union maps its values to its candidates, and the
summary of the responses says of those that report success what they have in common
(`ResponseSummary.IsOf`).  Every endpoint that is made has this shape, whatever the references stand
for (`isWellFormed_of_resolveEndpoints`).
-/

namespace FunctionForge.Endpoint

open Document (MediaType Operation Parameter PathItem Referable Schema SchemaOrRef)

variable {known : KnownTypes} {schemas : Fields SchemaOrRef}

/-! ### Contents -/

/-- A scalar without the mark of a nullable one, or a class. -/
def IsSingle : TypeRef → Prop
  | .scalar _ marked => marked = false
  | .entity _ => True
  | .list _ => False
  | .map _ => False

/-- The type of a content: a single one, or a list of such. -/
def IsContent : TypeRef → Prop
  | .list item => IsSingle item
  | type => IsSingle type

/-- A schema stands for a scalar or for a list. -/
theorem isContent_of_elementOfSchema {schema : Schema} {type : TypeRef}
    (h : elementOfSchema known schema = .ok type) : IsContent type := by
  rw [elementOfSchema] at h
  split_ifs at h
  · obtain ⟨scalar, -, rfl⟩ := map_eq_ok.mp h
    exact rfl
  · split at h
    · rename_i item hi
      obtain rfl := Except.ok.inj h
      obtain ⟨items, -, ht⟩ := Option.bind_eq_some_iff.mp hi
      obtain ⟨scalar, rfl⟩ | ⟨path, name, -, -, rfl⟩ := Model.elementType?_eq_some ht
      · exact rfl
      · exact trivial
    · cases h

theorem isContent_of_resolveElement {schema : SchemaOrRef} {type : TypeRef}
    (h : resolveElement known schema = .ok type) : IsContent type := by
  cases schema with
  | inline schema => exact isContent_of_elementOfSchema h
  | ref path =>
    rw [resolveElement] at h
    split at h
    · obtain rfl := Except.ok.inj h
      exact trivial
    · exact isContent_of_elementOfSchema h

theorem isContent_of_resolveContentType {content : Fields MediaType} {type : TypeRef}
    (h : resolveContentType known content = .ok (some type)) : IsContent type := by
  obtain ⟨found, -, h⟩ := bind_eq_ok.mp h
  cases found with
  | none => cases h
  | some schema =>
    obtain ⟨element, he, h⟩ := bind_eq_ok.mp h
    obtain rfl := Option.some.inj (Except.ok.inj h)
    exact isContent_of_resolveElement he

/-! ### Parameters -/

theorem exists_plain_of_pathParameter? {entry : Referable Parameter} {parameter : PathParameter}
    (h : pathParameter? known entry = .ok (some parameter)) :
    ∃ type, parameter.typeRef = .plain type := by
  obtain ⟨schema, type, marked, hs, ht⟩ := exists_scalar_of_pathParameter? h
  obtain rfl : marked = false := isContent_of_resolveElement hs
  exact ⟨type, ht⟩

/-! ### Bodies of requests -/

/-- A body is of the type of a content, or a union whose values are mapped to candidates, each of
which has a class. -/
def BodySummary.IsWellFormed (known : KnownTypes) : BodySummary → Prop
  | .simple type => IsContent type
  | .union candidates mapping _ =>
    mapping.values ⊆ candidates ∧ ∀ candidate ∈ candidates, known.isAlias candidate = false

theorem isWellFormed_of_resolveUnion {schema : Schema} {body : BodySummary}
    (h : resolveUnion known schema = .ok body) : body.IsWellFormed known := by
  obtain ⟨discriminator, -, hall, rfl⟩ := resolveUnion_eq_ok_iff.mp h
  exact ⟨Fields.values_ofList_subset _, Union.not_isAlias_of_admissible hall⟩

theorem isWellFormed_of_operationBody {operation : Operation} {body : BodySummary}
    (h : operationBody known schemas operation = .ok (some body)) : body.IsWellFormed known := by
  obtain ⟨given, -, h⟩ := operationBody_eq_ok h
  obtain ⟨schema, -, ⟨union, -, hs⟩ | ⟨type, -, ht, rfl⟩⟩ := resolveBody_eq_ok h
  · exact isWellFormed_of_resolveUnion hs
  · exact isContent_of_resolveElement ht

/-! ### Responses -/

theorem isContent_of_responseInfos {operation : Operation} {info : ResponseInfo} {type : TypeRef}
    (h : info ∈ responseInfos known operation) (ht : info.content = some type) :
    IsContent type := by
  obtain ⟨key, response, -, hc⟩ := exists_content_of_mem_responseInfos h ht
  exact isContent_of_resolveContentType hc

/-- A summary is one of these responses: it has the content that all responses that report success
have, and their codes. -/
def ResponseSummary.IsOf (responses : List ResponseInfo) : ResponseSummary → Prop
  | .untyped => True
  | .single content code =>
    (200 ≤ code ∧ code < 300) ∧ (successes responses).map ResponseInfo.code = [code] ∧
      ∀ response ∈ successes responses, response.content = content
  | .multiCode content codes wrapper =>
    2 ≤ codes.length ∧ (∀ code ∈ codes, 200 ≤ code ∧ code < 300) ∧
      (successes responses).map ResponseInfo.code = codes ∧
      (∀ response ∈ successes responses, response.content = content) ∧
      wrapper = content.map fun type => type.stem ++ "ResultWrapper"

/-- A summary says of the responses that report success what they have in common. -/
theorem isOf_summarize (responses : List ResponseInfo) (degraded : List Nat) :
    (summarize responses degraded).IsOf responses := by
  cases h : summarize responses degraded with
  | untyped => exact trivial
  | single content code =>
    obtain ⟨-, response, hs, hcontent, rfl⟩ := summarize_eq_single_iff.mp h
    have hm : response ∈ successes responses := hs ▸ List.mem_singleton_self response
    refine ⟨bounds_of_mem_successes hm, by rw [hs]; rfl, ?_⟩
    rw [hs]
    exact List.forall_mem_singleton.mpr hcontent
  | multiCode content codes wrapper =>
    obtain ⟨hlength, -, hcontent, rfl, rfl⟩ := summarize_eq_multiCode_iff.mp h
    refine ⟨?_, List.forall_mem_map.mpr fun _ => bounds_of_mem_successes, rfl, hcontent, rfl⟩
    rwa [List.length_map]

/-! ### Endpoints -/

/-- The shape of an endpoint that what is written of it relies on. -/
structure IsWellFormed (known : KnownTypes) (endpoint : Endpoint) : Prop where
  parameters : ∀ parameter ∈ endpoint.parameters, ∃ type, parameter.typeRef = .plain type
  responses : ∀ response ∈ endpoint.responses, ∀ type, response.content = some type →
    IsContent type
  bodySummary : ∀ body, endpoint.bodySummary = some body → body.IsWellFormed known
  responseSummary : endpoint.responseSummary.IsOf endpoint.responses

/-- What an operation comes to is well-formed. -/
theorem isWellFormed_of_ofSite {site : Site} {endpoint : Endpoint}
    (h : ofSite known schemas site = .ok endpoint) : endpoint.IsWellFormed known := by
  obtain ⟨-, hp, hb, hr, hs⟩ := ofSite_eq_ok h
  refine ⟨fun parameter hm => ?_, fun response hm type ht => ?_, fun body hbody => ?_,
    hs ▸ isOf_summarize _ _⟩
  · obtain ⟨entry, -, hmade⟩ := exists_entry_of_mem_pathParameters hp hm
    exact exists_plain_of_pathParameter? hmade
  · exact isContent_of_responseInfos (hr ▸ hm) ht
  · exact isWellFormed_of_operationBody (hb.trans (congrArg Except.ok hbody))

/-- Every endpoint of a document is well-formed. -/
theorem isWellFormed_of_resolveEndpoints {paths : Fields PathItem} {endpoint : Endpoint}
    (h : endpoint ∈ (resolveEndpoints known schemas paths).items) :
    endpoint.IsWellFormed known := by
  obtain ⟨site, -, hs⟩ := exists_site_of_item h
  exact isWellFormed_of_ofSite hs

/-! ### A shelter -/

/-- The operation that brings pets to a shelter. -/
def arrivalPaths : Fields PathItem :=
  let json (schema : SchemaOrRef) : Fields MediaType := [("application/json", ⟨some schema⟩)]
  let pet : SchemaOrRef := .ref "#/components/schemas/Pet"
  let pets : SchemaOrRef := .inline { Schema.blank with
    types := some (.single .array)
    items := some pet }
  let shelter : Parameter :=
    ⟨"shelter", .path, none, true,
      some (.inline { Schema.blank with types := some (.single .string) })⟩
  [("/shelters/\x7bshelter\x7d/pets", { PathItem.blank with
    parameters := [.inline shelter]
    operations := [(.put, ⟨some "admit", none, none, [], some (.inline ⟨none, json pet, true⟩),
      [("200", .inline ⟨"Known", json pets⟩), ("201", .inline ⟨"New", json pets⟩),
        ("404", .inline ⟨"Full", []⟩)]⟩)] })]

/-- Pets are brought as one of two classes, and two codes give back all of them. -/
theorem isWellFormed_of_resolveEndpoints_shelter :
    let known := KnownTypes.scan shelterSchemas .plain fun _ => true
    let pets : TypeRef := .list (.entity "Pet")
    ∃ endpoint, (resolveEndpoints known shelterSchemas arrivalPaths).items = [endpoint] ∧
      endpoint.parameters = [⟨"shelter", .plain .string, none⟩] ∧
      endpoint.bodySummary =
        some (.union ["Cat", "Dog"] [("tom", "Cat"), ("Guest", "Dog")] "pet-kind") ∧
      endpoint.responseSummary =
        .multiCode (some pets) [200, 201] (some "PetListResultWrapper") ∧
      endpoint.IsWellFormed known := by
  intro known pets
  obtain ⟨endpoint, hitems, hparameters, hbody, hsummary⟩ : ∃ endpoint,
      (resolveEndpoints known shelterSchemas arrivalPaths).items = [endpoint] ∧
        endpoint.parameters = [⟨"shelter", .plain .string, none⟩] ∧
        endpoint.bodySummary =
          some (.union ["Cat", "Dog"] [("tom", "Cat"), ("Guest", "Dog")] "pet-kind") ∧
        endpoint.responseSummary =
          .multiCode (some pets) [200, 201] (some "PetListResultWrapper") :=
    ⟨⟨"admit", "AdmitAsync", .put, "shelters/\x7bshelter\x7d/pets",
      ["200 -> Known", "201 -> New", "404 -> Full"], [⟨"shelter", .plain .string, none⟩], true,
      [⟨200, "Known", some pets⟩, ⟨201, "New", some pets⟩, ⟨404, "Full", none⟩], _, _⟩,
      by decide +kernel, rfl, rfl, rfl⟩
  have hm : endpoint ∈ (resolveEndpoints known shelterSchemas arrivalPaths).items := by
    rw [hitems]
    exact List.mem_singleton_self _
  exact ⟨endpoint, hitems, hparameters, hbody, hsummary, isWellFormed_of_resolveEndpoints hm⟩

end FunctionForge.Endpoint
