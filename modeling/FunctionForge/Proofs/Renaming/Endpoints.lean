import FunctionForge.Document.Basic
import FunctionForge.Endpoint.Resolve
import FunctionForge.Proofs.Renaming.Models

/-!
# Renaming the classes of endpoints

The endpoints of a document are made with the table of its models.  With a renamed table they are
the renamed endpoints, and the same operations fail for the same causes (`resolveEndpoints_rename`).
What successes agree on is compared as a type, which the renaming keeps apart from other types.  The
class that wraps a body is named after the type of the body, so it is named anew after the renamed
type.

Together with the models this gives the result of both walks with any naming from the result with
plain names (`resolve_eq_renamed`).
-/

namespace FunctionForge

open Document (ApiDocument Discriminator MediaType Operation Parameter PathItem Referable Response
  Schema SchemaOrRef)

namespace Endpoint

/-! ### Renamed endpoints -/

section

variable (f : String → String)

/-- A parameter in the path with the class of its type renamed. -/
def PathParameter.rename (parameter : PathParameter) : PathParameter :=
  { parameter with typeRef := parameter.typeRef.rename f }

/-- A response with the class of its body renamed. -/
def ResponseInfo.rename (response : ResponseInfo) : ResponseInfo :=
  { response with content := response.content.map (TypeRef.rename f) }

/-- What becomes of a response, with the class of its body renamed. -/
def ResponseOutcome.rename : ResponseOutcome → ResponseOutcome
  | .unresolved code => .unresolved code
  | .typed info => .typed (info.rename f)
  | .untyped info cause => .untyped (info.rename f) cause

/-- What an operation gives back, with the class of the body renamed. A class that wraps the body is
named after the renamed type. -/
def ResponseSummary.rename : ResponseSummary → ResponseSummary
  | .untyped => .untyped
  | .single content code => .single (content.map (TypeRef.rename f)) code
  | .multiCode content codes _ =>
    .multiCode (content.map (TypeRef.rename f)) codes
      ((content.map (TypeRef.rename f)).map wrapperName)

/-- The body of a request with its classes renamed. -/
def BodySummary.rename : BodySummary → BodySummary
  | .simple typeRef => .simple (typeRef.rename f)
  | .union candidates mapping discriminator =>
    .union (candidates.map f) (mapping.mapValues f) discriminator

/-- An endpoint with all names of classes renamed. -/
def rename (endpoint : Endpoint) : Endpoint :=
  { endpoint with
    parameters := endpoint.parameters.map (PathParameter.rename f)
    responses := endpoint.responses.map (ResponseInfo.rename f)
    responseSummary := endpoint.responseSummary.rename f
    bodySummary := endpoint.bodySummary.map (BodySummary.rename f) }

/-- Endpoints with all names of classes renamed. No failure of an operation names a class. -/
def renameEndpoints (endpoints : Resolution Endpoint) : Resolution Endpoint :=
  { endpoints with items := endpoints.items.map (rename f) }

end

variable {f : String → String} {known known' : KnownTypes}

/-! ### Contents -/

/-- A schema in place has the renamed element type. -/
theorem elementOfSchema_rename (h : Renames f known known') (schema : Schema) :
    elementOfSchema known' schema = (elementOfSchema known schema).map (TypeRef.rename f) := by
  unfold elementOfSchema
  split_ifs
  · cases ScalarType.ofSchema schema with
    | error cause => rfl
    | ok type => rfl
  · cases schema.items with
    | none => rfl
    | some items =>
      simp only [Option.bind_some, Model.elementType?_rename h]
      cases Model.elementType? known false items with
      | none => rfl
      | some item => rfl
  · rfl

theorem resolveElement_rename (h : Renames f known known') (schema : SchemaOrRef) :
    resolveElement known' schema = (resolveElement known schema).map (TypeRef.rename f) := by
  cases schema with
  | inline schema => exact elementOfSchema_rename h schema
  | ref path =>
    simp only [resolveElement, h.resolve]
    rcases known.resolve path with body | name
    · exact elementOfSchema_rename h body
    · rfl

theorem resolveContentType_rename (h : Renames f known known') (content : Fields MediaType) :
    resolveContentType known' content =
      (resolveContentType known content).map (Option.map (TypeRef.rename f)) := by
  unfold resolveContentType
  cases jsonSchema? content with
  | error cause => rfl
  | ok found =>
    cases found with
    | none => rfl
    | some schema =>
      simp only [bind, Except.bind, resolveElement_rename h]
      cases resolveElement known schema with
      | error cause => rfl
      | ok type => rfl

/-! ### Bodies of requests -/

/-- Each value of a union stands for the renamed class. -/
theorem unionCases_rename (h : Renames f known known') (discriminator : Discriminator)
    (members : List SchemaOrRef) : unionCases known' discriminator members =
      (unionCases known discriminator members).map
        (List.map fun (value, candidate) => (value, f candidate)) := by
  induction members with
  | nil => rfl
  | cons member rest ih =>
    cases member with
    | ref path =>
      simp only [unionCases, h.resolve]
      rcases known.resolve path with body | candidate
      · rfl
      · simp only [ResolvedRef.rename, ih]
        cases unionCases known discriminator rest with
        | error cause => rfl
        | ok cases => rfl
    | inline schema =>
      simp only [unionCases]
      split_ifs
      · exact ih
      · rfl

theorem resolveUnion_rename (h : Renames f known known') (schema : Schema) :
    resolveUnion known' schema = (resolveUnion known schema).map (BodySummary.rename f) := by
  unfold resolveUnion
  cases schema.discriminator with
  | none => rfl
  | some discriminator =>
    simp only [unionCases_rename h]
    cases unionCases known discriminator schema.oneOf with
    | error cause => rfl
    | ok cases =>
      change Except.ok _ = Except.ok _
      simp only [BodySummary.rename, Fields.mapValues_ofList, List.map_map]
      rfl

/-- A body has the renamed type, or the renamed cases of its union. -/
theorem resolveBody_rename (h : Renames f known known') (schemas : Fields SchemaOrRef)
    (content : Fields MediaType) : resolveBody known' schemas content =
      (resolveBody known schemas content).map (Option.map (BodySummary.rename f)) := by
  unfold resolveBody
  cases jsonSchema? content with
  | error cause => rfl
  | ok found =>
    cases found with
    | none => rfl
    | some schema =>
      simp only [bind, Except.bind, resolveUnion_rename h, resolveElement_rename h]
      cases unionSchema? schemas schema with
      | some union =>
        simp only
        cases resolveUnion known union with
        | error cause => rfl
        | ok summary => rfl
      | none =>
        simp only
        cases resolveElement known schema with
        | error cause => rfl
        | ok type => rfl

theorem operationBody_rename (h : Renames f known known') (schemas : Fields SchemaOrRef)
    (operation : Operation) : operationBody known' schemas operation =
      (operationBody known schemas operation).map (Option.map (BodySummary.rename f)) := by
  unfold operationBody
  split
  · rfl
  · rfl
  · exact resolveBody_rename h schemas _

/-! ### Parameters -/

/-- A parameter has a scalar type, in which no class is named. -/
theorem pathParameter?_rename (h : Renames f known known') (entry : Referable Parameter) :
    pathParameter? known' entry =
      (pathParameter? known entry).map (Option.map (PathParameter.rename f)) := by
  cases entry with
  | ref path => rfl
  | inline parameter =>
    simp only [pathParameter?]
    split_ifs
    · rfl
    · cases parameter.schema with
      | none => rfl
      | some schema =>
        simp only [resolveElement_rename h]
        cases resolveElement known schema with
        | error cause => rfl
        | ok type =>
          cases type with
          | scalar _ _ | entity _ | list _ | map _ => rfl

theorem pathParameters_rename (h : Renames f known known') (entries : List (Referable Parameter)) :
    Endpoint.pathParameters known' entries =
      (Endpoint.pathParameters known entries).map (List.map (PathParameter.rename f)) := by
  induction entries with
  | nil => rfl
  | cons entry rest ih =>
    simp only [Endpoint.pathParameters, pathParameter?_rename h, ih]
    cases pathParameter? known entry with
    | error cause => rfl
    | ok first =>
      cases Endpoint.pathParameters known rest with
      | error cause => rfl
      | ok others =>
        cases first with
        | none => rfl
        | some parameter => rfl

/-! ### Responses -/

/-- A response is degraded or unresolved with any names, or has the renamed content. -/
theorem responseOutcome?_rename (h : Renames f known known') (entry : String × Referable Response) :
    responseOutcome? known' entry =
      (responseOutcome? known entry).map (ResponseOutcome.rename f) := by
  unfold responseOutcome?
  cases statusCode? entry.1 with
  | none => rfl
  | some code =>
    cases entry.2 with
    | ref path => rfl
    | inline response =>
      simp only [Option.map_some, resolveContentType_rename h]
      cases resolveContentType known response.content with
      | error cause => rfl
      | ok content => rfl

theorem responseOutcomes_rename (h : Renames f known known') (operation : Operation) :
    responseOutcomes known' operation =
      (responseOutcomes known operation).map (ResponseOutcome.rename f) := by
  unfold responseOutcomes
  rw [List.map_filterMap]
  exact List.filterMap_congr fun entry _ => responseOutcome?_rename h entry

theorem responseInfos_rename (h : Renames f known known') (operation : Operation) :
    responseInfos known' operation =
      (responseInfos known operation).map (ResponseInfo.rename f) := by
  unfold responseInfos
  rw [responseOutcomes_rename h, List.filterMap_map, List.map_filterMap]
  refine List.filterMap_congr fun outcome _ => ?_
  cases outcome with
  | unresolved _ | typed _ | untyped _ _ => rfl

/-- The same responses cannot be used. -/
theorem degradedCodes_rename (h : Renames f known known') (operation : Operation) :
    degradedCodes known' operation = degradedCodes known operation := by
  unfold degradedCodes
  rw [responseOutcomes_rename h, List.filterMap_map]
  refine List.filterMap_congr fun outcome _ => ?_
  cases outcome with
  | unresolved _ | typed _ | untyped _ _ => rfl

theorem successes_rename (responses : List ResponseInfo) :
    successes (responses.map (ResponseInfo.rename f)) =
      (successes responses).map (ResponseInfo.rename f) := by
  unfold successes
  rw [List.filter_map]
  rfl

section

variable (hf : Function.Injective f)
include hf

/-- Responses agree after renaming exactly if they agree. -/
theorem agree_rename (responses : List ResponseInfo) :
    agree (responses.map (ResponseInfo.rename f)) = agree responses := by
  have hinjective := Option.map_injective (TypeRef.rename_injective hf)
  cases responses with
  | nil => rfl
  | cons first others =>
    have hsame (other : ResponseInfo) :
        ((other.rename f).content == (first.rename f).content) =
          (other.content == first.content) := by
      rw [Bool.eq_iff_iff, beq_iff_eq, beq_iff_eq]
      exact hinjective.eq_iff
    simp only [agree, List.map_cons, List.all_map, Function.comp_def, hsame]

/-- The renaming keeps contents apart, so the summary is of the same form. -/
theorem summarize_rename (responses : List ResponseInfo) (degraded : List Nat) :
    summarize (responses.map (ResponseInfo.rename f)) degraded =
      (summarize responses degraded).rename f := by
  unfold summarize
  rw [successes_rename]
  cases successes responses with
  | nil => rfl
  | cons first others =>
    -- All that is asked of the responses comes out the same.
    have hagree := agree_rename hf (first :: others)
    have hany : ((first :: others).map (ResponseInfo.rename f)).any
          (fun response => degraded.contains response.code) =
        (first :: others).any fun response => degraded.contains response.code := by
      rw [List.any_map]
      rfl
    have hempty : (others.map (ResponseInfo.rename f)).isEmpty = others.isEmpty := List.isEmpty_map
    rw [List.map_cons] at hagree hany
    simp only [List.map_cons, hany, hagree, hempty]
    split_ifs
    · rfl
    · rfl
    · rfl
    · simp only [ResponseSummary.rename, List.map_map]
      rfl

/-! ### Operations -/

/-- An operation comes to the renamed endpoint, or fails for the same cause. -/
theorem ofSite_rename (h : Renames f known known') (schemas : Fields SchemaOrRef) (site : Site) :
    ofSite known' schemas site = (ofSite known schemas site).map (rename f) := by
  unfold ofSite
  simp only [pathParameters_rename h, operationBody_rename h, responseInfos_rename h,
    degradedCodes_rename h, summarize_rename hf]
  -- The steps fail at the same place, since none depends on a name.
  cases site.operation.operationId with
  | none => rfl
  | some operationId =>
    simp only [bind, Except.bind]
    cases Endpoint.pathParameters known (site.pathParameters ++ site.operation.parameters) with
    | error cause => rfl
    | ok parameters =>
      simp only [Except.map]
      cases operationBody known schemas site.operation with
      | error cause => rfl
      | ok body => rfl

theorem resolve_rename (h : Renames f known known') (schemas : Fields SchemaOrRef) (site : Site) :
    resolve known' schemas site = (resolve known schemas site).map (rename f) := by
  unfold resolve
  rw [ofSite_rename hf h]
  cases ofSite known schemas site with
  | error cause => rfl
  | ok endpoint => rfl

omit hf in
theorem addOutcome_rename (endpoints : Resolution Endpoint)
    (outcome : Except DefinitionError Endpoint) :
    addOutcome (renameEndpoints f endpoints) (outcome.map (rename f)) =
      renameEndpoints f (addOutcome endpoints outcome) := by
  cases outcome with
  | error failure => rfl
  | ok endpoint => simp [addOutcome, renameEndpoints, Except.map]

/-- The endpoints of a document with a renamed table are renamed, and the failures the same. -/
theorem resolveEndpoints_rename (h : Renames f known known') (schemas : Fields SchemaOrRef)
    (paths : Fields PathItem) : resolveEndpoints known' schemas paths =
      renameEndpoints f (resolveEndpoints known schemas paths) := by
  have hfold : ∀ (sites : List Site) (endpoints : Resolution Endpoint),
      (sites.map (resolve known' schemas)).foldl addOutcome (renameEndpoints f endpoints) =
        renameEndpoints f ((sites.map (resolve known schemas)).foldl addOutcome endpoints) := by
    intro sites
    induction sites with
    | nil => exact fun _ => rfl
    | cons site rest ih =>
      intro endpoints
      rw [List.map_cons, List.map_cons, List.foldl_cons, List.foldl_cons, resolve_rename hf h,
        addOutcome_rename]
      exact ih _
  exact hfold (sites paths) .none

end

end Endpoint

open Endpoint (renameEndpoints resolveEndpoints)
open Model (Options resolveModels)

/-- The models and the endpoints of a document with any naming are those with plain names in which
each class is renamed: its model, its parent, the interfaces and children, the values of mappings,
the types at any depth, the names in collisions and in the table of aliases, and the names of
wrappers after their renamed types.  All else is the same and in the same order, failures included.
-/
theorem resolve_eq_renamed (document : ApiDocument) (options : Options) :
    let plain := resolveModels document.schemas { options with naming := .plain }
    let named := resolveModels document.schemas options
    named = plain.rename options.naming ∧
      resolveEndpoints named.known document.schemas (document.paths.getD []) =
        renameEndpoints options.naming.decorate
          (resolveEndpoints plain.known document.schemas (document.paths.getD [])) := by
  intro plain named
  have hmodels : named = plain.rename options.naming :=
    Model.resolveModels_rename document.schemas options
  have hplain : plain.known.naming = .plain := KnownTypes.naming_scan
  have hrenames : Renames options.naming.decorate plain.known named.known := by
    rw [hmodels]
    exact KnownTypes.renames_rename hplain options.naming
  exact ⟨hmodels, Endpoint.resolveEndpoints_rename options.naming.decorate_injective hrenames
    document.schemas _⟩

end FunctionForge
