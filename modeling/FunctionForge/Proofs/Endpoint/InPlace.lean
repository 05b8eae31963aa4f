import FunctionForge.Proofs.Endpoint.Contents

/-!
# Operations without references to components

A reference in the place of a parameter or of a body is the only thing that makes an operation fail
for a reference that is not resolved, and one in the place of a response the only thing that such a
response comes from.  So where everything is given in place there is no such failure
(`noReference_of_mem_failures`) and no such response (`unresolved_not_mem_responseOutcomes`).
-/

namespace FunctionForge

open Document (Discriminator MediaType Parameter PathItem Referable Schema SchemaOrRef)

/-! ### Causes -/

/-- A cause is not that a reference to a component is not resolved. -/
def Cause.NoReference (cause : Cause) : Prop :=
  ∀ path, cause ≠ .unresolvedParameter path ∧ cause ≠ .unresolvedBody path

namespace Endpoint

/-- If a step fails, then not because a reference to a component is not resolved. -/
abbrev NoReference {α : Type} (step : Except Cause α) : Prop :=
  FailsOnly Cause.NoReference step

variable {known : KnownTypes} {schemas : Fields SchemaOrRef}

theorem noReference_ofSchema (schema : Schema) : NoReference (ScalarType.ofSchema schema) := by
  unfold ScalarType.ofSchema ScalarType.ofType
  split
  · exact .ok _
  · exact .ok _
  · exact .ok _
  · exact .ok _
  · exact .error fun _ => ⟨nofun, nofun⟩
  · exact .error fun _ => ⟨nofun, nofun⟩

theorem noReference_elementOfSchema (schema : Schema) :
    NoReference (elementOfSchema known schema) := by
  unfold elementOfSchema
  split_ifs
  · exact (noReference_ofSchema schema).map _
  · split
    · exact .ok _
    · exact .error fun _ => ⟨nofun, nofun⟩
  · exact .error fun _ => ⟨nofun, nofun⟩

theorem noReference_resolveElement (schema : SchemaOrRef) :
    NoReference (resolveElement known schema) := by
  cases schema with
  | inline schema => exact noReference_elementOfSchema schema
  | ref path =>
    rw [resolveElement]
    split
    · exact .ok _
    · exact noReference_elementOfSchema _

theorem noReference_jsonSchema? (content : Fields MediaType) :
    NoReference (jsonSchema? content) := by
  unfold jsonSchema?
  split
  · exact .ok _
  · split_ifs
    · exact .ok _
    · exact .error fun _ => ⟨nofun, nofun⟩
  · exact .error fun _ => ⟨nofun, nofun⟩

theorem noReference_unionCases (discriminator : Discriminator) (members : List SchemaOrRef) :
    NoReference (unionCases known discriminator members) := by
  fun_induction unionCases known discriminator members with
  | case1 => exact .ok _
  | case2 => exact .error fun _ => ⟨nofun, nofun⟩
  | case3 path rest candidate hr value ih => exact ih.map _
  | case4 rest schema hs ih => exact ih
  | case5 => exact .error fun _ => ⟨nofun, nofun⟩

theorem noReference_resolveUnion (schema : Schema) : NoReference (resolveUnion known schema) := by
  unfold resolveUnion
  cases schema.discriminator with
  | none => exact .error fun _ => ⟨nofun, nofun⟩
  | some discriminator => exact (noReference_unionCases _ _).bind fun _ => .ok _

/-- What a body holds may be of no use, but there is no reference to be resolved. -/
theorem noReference_resolveBody (content : Fields MediaType) :
    NoReference (resolveBody known schemas content) := by
  unfold resolveBody
  refine (noReference_jsonSchema? content).bind fun schema => ?_
  cases schema with
  | none => exact .ok _
  | some schema =>
    dsimp only
    split
    · exact (noReference_resolveUnion _).bind fun _ => .ok _
    · exact (noReference_resolveElement schema).bind fun _ => .ok _

/-! ### Operations -/

/-- Something is given in place. -/
def IsInPlace {α : Type} (entry : Referable α) : Prop :=
  ∃ value, entry = .inline value

/-- All that an operation consists of is given in place. -/
structure Site.IsInPlace (site : Site) : Prop where
  parameters : ∀ entry ∈ site.pathParameters ++ site.operation.parameters,
    Endpoint.IsInPlace entry
  requestBody : ∀ entry ∈ site.operation.requestBody, Endpoint.IsInPlace entry
  responses : ∀ entry ∈ site.operation.responses, Endpoint.IsInPlace entry.2

/-- Parameters that are given in place fail for their types only. -/
theorem noReference_pathParameters {entries : List (Referable Parameter)}
    (h : ∀ entry ∈ entries, IsInPlace entry) : NoReference (pathParameters known entries) := by
  induction entries with
  | nil => exact .ok _
  | cons entry rest ih =>
    obtain ⟨parameter, rfl⟩ := h entry List.mem_cons_self
    -- What is given in place is looked at for its type alone.
    have hfirst : NoReference (pathParameter? known (.inline parameter)) := by
      unfold pathParameter?
      dsimp only
      split_ifs
      · exact .ok _
      · split
        · exact .error fun _ => ⟨nofun, nofun⟩
        · split
          · exact .ok _
          · exact .error fun _ => ⟨nofun, nofun⟩
    have hrest := ih fun entry hm => h entry (List.mem_cons_of_mem _ hm)
    exact hfirst.bind fun _ => hrest.bind fun _ => .ok _

theorem noReference_operationBody {site : Site} (h : site.IsInPlace) :
    NoReference (operationBody known schemas site.operation) := by
  unfold operationBody
  cases hb : site.operation.requestBody with
  | none => exact .ok _
  | some entry =>
    obtain ⟨body, rfl⟩ := h.requestBody entry hb
    exact noReference_resolveBody body.content

/-- An operation with everything in place fails for no reference. -/
theorem noReference_of_resolve {site : Site} (h : site.IsInPlace) {failure : DefinitionError}
    (hf : resolve known schemas site = .error failure) : failure.cause.NoReference := by
  obtain ⟨-, hcause⟩ := resolve_eq_error_iff.mp hf
  generalize failure.cause = cause at hcause
  cases hcause with
  | operationId _ => exact fun _ => ⟨nofun, nofun⟩
  | parameters _ hp => exact noReference_pathParameters h.parameters _ hp
  | body _ _ hb => exact noReference_operationBody h _ hb

/-- Where everything is given in place, no operation fails for a reference. -/
theorem noReference_of_mem_failures {paths : Fields PathItem}
    (h : ∀ site ∈ sites paths, site.IsInPlace) {failure : DefinitionError}
    (hf : failure ∈ (resolveEndpoints known schemas paths).failures) :
    failure.cause.NoReference := by
  rw [resolveEndpoints_eq] at hf
  obtain ⟨outcome, ho, hf⟩ := List.mem_filterMap.mp hf
  obtain ⟨site, hm, rfl⟩ := List.mem_map.mp ho
  cases hr : resolve known schemas site with
  | ok endpoint =>
    rw [hr] at hf
    exact absurd hf nofun
  | error cause =>
    rw [hr] at hf
    obtain rfl := Option.some.inj hf
    exact noReference_of_resolve (h site hm) hr

/-- A response that is given in place is resolved. -/
theorem unresolved_not_mem_responseOutcomes {site : Site} (h : site.IsInPlace) (code : Nat) :
    .unresolved code ∉ responseOutcomes known site.operation := by
  intro hm
  obtain ⟨⟨key, given⟩, he, ho⟩ := List.mem_filterMap.mp hm
  obtain ⟨response, rfl⟩ := h.responses _ he
  obtain ⟨found, -, ho⟩ := Option.map_eq_some_iff.mp ho
  dsimp only at ho
  split at ho
  · exact absurd ho nofun
  · exact absurd ho nofun

end Endpoint

end FunctionForge
