import FunctionForge.Proofs.Agreement.Types
import FunctionForge.Proofs.Agreement.Unions
import FunctionForge.Proofs.Model.Mentions
import FunctionForge.Proofs.Redirects

/-!
# Bodies behind redirects

The body of a request may refer to a component that is nothing but a reference.  Its type is looked
up in the table, which follows redirects (`resolve_eq_of_leadsTo`), but whether it is a union is
asked of the component itself.  So a redirect to a component without `oneOf` makes no difference,
and one to a component with `oneOf` always does: then the body is of the type of the interface, and
is not dispatched (`resolveBody_redirected_iff`).
-/

namespace FunctionForge

open Document (Schema SchemaOrRef)
open Endpoint (BodySummary jsonMediaType resolveBody resolveElement resolveUnion unionSchema?)
open Naming (ClassNaming refName)

variable {schemas : Fields SchemaOrRef} {naming : ClassNaming} {admits : String → Bool}
  {path path' mediaType : String} {schema : Schema}

/-! ### Types -/

/-- A reference that is led to another one stands for the same. -/
theorem KnownTypes.resolve_eq_of_leadsTo (hd : schemas.keys.Nodup)
    (h : LeadsTo schemas (refName path) (refName path'))
    (hl : schemas.get? (refName path') = some (.inline schema)) :
    (scan schemas naming admits).resolve path = (scan schemas naming admits).resolve path' := by
  rw [resolve, resolve, followRedirects_of_leadsTo hd h hl,
    followRedirects_of_leadsTo hd (.here _) hl]

theorem resolveElement_eq_of_leadsTo (hd : schemas.keys.Nodup)
    (h : LeadsTo schemas (refName path) (refName path'))
    (hl : schemas.get? (refName path') = some (.inline schema)) :
    resolveElement (.scan schemas naming admits) (.ref path) =
      resolveElement (.scan schemas naming admits) (.ref path') := by
  rw [resolveElement, resolveElement, KnownTypes.resolve_eq_of_leadsTo hd h hl]

/-- A reference always has a type, since an alias is a bare primitive. -/
theorem exists_resolveElement_ref {known : KnownTypes} (hk : known.AliasesPrimitive)
    (path : String) : ∃ type, resolveElement known (.ref path) = .ok type := by
  rw [resolveElement]
  rcases hr : known.resolve path with body | name
  · have hp := KnownTypes.isPrimitive_of_resolve hk hr
    obtain ⟨hproperties, type, ht⟩ := isPrimitive_iff.mp hp
    exact ⟨_, elementOfSchema_of_scalar known hproperties ht⟩
  · exact ⟨_, rfl⟩

/-! ### Unions -/

theorem LeadsTo.exists_ref {key last : String} (h : LeadsTo schemas key last) (hne : key ≠ last) :
    ∃ path, schemas.get? key = some (.ref path) := by
  cases h with
  | here => exact absurd rfl hne
  | step hk _ => exact ⟨_, hk⟩

/-- A component that is nothing but a reference is no union. -/
theorem unionSchema?_of_redirect {next : String}
    (hk : schemas.get? (refName path) = some (.ref next)) :
    unionSchema? schemas (.ref path) = none := by
  simp only [unionSchema?, hk, Option.bind_some, SchemaOrRef.schema?, Option.filter_none]

theorem unionSchema?_of_oneOf_eq_nil (hk : schemas.get? (refName path) = some (.inline schema))
    (hone : schema.oneOf = []) : unionSchema? schemas (.ref path) = none := by
  simp only [unionSchema?, hk, Option.bind_some, SchemaOrRef.schema?]
  rw [Option.filter_some, if_neg]
  simp [hone]

/-- The references lead to the same schema, or that schema is none of a union. -/
theorem unionSchema?_eq_of_leadsTo (h : LeadsTo schemas (refName path) (refName path'))
    (hl : schemas.get? (refName path') = some (.inline schema))
    (hs : refName path = refName path' ∨ schema.oneOf = []) :
    unionSchema? schemas (.ref path) = unionSchema? schemas (.ref path') := by
  by_cases hkey : refName path = refName path'
  · rw [unionSchema?, unionSchema?, hkey]
  · obtain ⟨next, hk⟩ := h.exists_ref hkey
    have hone := hs.resolve_left hkey
    rw [unionSchema?_of_redirect hk, unionSchema?_of_oneOf_eq_nil hl hone]

/-- What is dispatched is not of one type. -/
theorem simple_ne_union (known : KnownTypes) (schema : Schema) (type : TypeRef) :
    (Except.ok (some (.simple type)) : Except Cause (Option BodySummary)).mapError Cause.kind ≠
      ((resolveUnion known schema).map some).mapError Cause.kind := by
  cases hu : resolveUnion known schema with
  | error cause => exact nofun
  | ok summary =>
    obtain ⟨discriminator, -, -, rfl⟩ := Endpoint.resolveUnion_eq_ok_iff.mp hu
    exact nofun

/-! ### Bodies -/

/-- A body gives the same by a reference and by the one that it leads to exactly if both name the
same component or that component is no union.  A redirect is never dispatched: the body is of the
type that the component has in other places. -/
theorem resolveBody_redirected_iff (naming : ClassNaming) (admits : String → Bool)
    (hd : schemas.keys.Nodup) (h : LeadsTo schemas (refName path) (refName path'))
    (hl : schemas.get? (refName path') = some (.inline schema))
    (hj : Text.sameIgnoringCase mediaType jsonMediaType = true) :
    let known := KnownTypes.scan schemas naming admits
    let body path := resolveBody known schemas [(mediaType, ⟨some (.ref path)⟩)]
    ((body path).mapError Cause.kind = (body path').mapError Cause.kind ↔
      refName path = refName path' ∨ schema.oneOf = []) ∧
    (refName path = refName path' ∨ schema.oneOf = [] → body path = body path') ∧
    (refName path ≠ refName path' → ∃ type, resolveElement known (.ref path') = .ok type ∧
      body path = .ok (some (.simple type))) ∧
    (schema.oneOf ≠ [] → body path' = (resolveUnion known schema).map some) := by
  intro known body
  have hbody (path : String) : body path = _ := resolveBody_of_json known schemas (.ref path) hj
  have htype : resolveElement known (.ref path) = resolveElement known (.ref path') :=
    resolveElement_eq_of_leadsTo hd h hl
  have hsame (hs : refName path = refName path' ∨ schema.oneOf = []) : body path = body path' := by
    rw [hbody, hbody, unionSchema?_eq_of_leadsTo h hl hs, htype]
  have hsimple (hne : refName path ≠ refName path') : ∃ type,
      resolveElement known (.ref path') = .ok type ∧ body path = .ok (some (.simple type)) := by
    obtain ⟨next, hk⟩ := h.exists_ref hne
    obtain ⟨type, ht⟩ := exists_resolveElement_ref
      (KnownTypes.aliasesPrimitive_scan schemas naming admits) path'
    refine ⟨type, ht, ?_⟩
    rw [hbody, unionSchema?_of_redirect hk, htype, ht]
    rfl
  have hunion (hone : schema.oneOf ≠ []) : body path' = (resolveUnion known schema).map some := by
    rw [hbody, unionSchema?_of_component hl hone]
  refine ⟨⟨fun heq => ?_, fun hs => by rw [hsame hs]⟩, hsame, hsimple, hunion⟩
  by_contra hno
  obtain ⟨hne, hone⟩ := not_or.mp hno
  obtain ⟨type, -, hpath⟩ := hsimple hne
  rw [hpath, hunion hone] at heq
  exact simple_ne_union known schema type heq

/-! ### Visits -/

/-- Cats, which are pets, and two names for these. -/
def visitSchemas : Fields SchemaOrRef :=
  [("Cat", .inline .blank), ("Pet", .inline (petUnion [])),
    ("Guest", .ref "#/components/schemas/Cat"), ("Visitor", .ref "#/components/schemas/Pet")]

/-- What is sent for a visit, by a reference. -/
def visitBody (path : String) : Except Cause (Option BodySummary) :=
  resolveBody (.scan visitSchemas .plain fun _ => true) visitSchemas
    [("application/json", ⟨some (.ref path)⟩)]

/-- A guest is sent as the cat that it is. -/
theorem resolveBody_redirected_guest :
    visitSchemas.keys.Nodup ∧ LeadsTo visitSchemas "Guest" "Cat" ∧
      visitBody "#/components/schemas/Guest" = visitBody "#/components/schemas/Cat" ∧
      visitBody "#/components/schemas/Cat" = .ok (some (.simple (.entity "Cat"))) := by
  have hd : visitSchemas.keys.Nodup := by decide +kernel
  have hguest : refName "#/components/schemas/Guest" = "Guest" := by decide +kernel
  have hcat : refName "#/components/schemas/Cat" = "Cat" := by decide +kernel
  have hleads : LeadsTo visitSchemas "Guest" (refName "#/components/schemas/Cat") :=
    .step rfl (.here _)
  have hjson : Text.sameIgnoringCase "application/json" jsonMediaType = true := by decide +kernel
  obtain ⟨-, hsame, -, -⟩ := resolveBody_redirected_iff .plain (fun _ => true) hd
    (hguest.symm ▸ hleads) (by rw [hcat]; rfl) hjson
  exact ⟨hd, hcat ▸ hleads, hsame (Or.inr rfl), by decide +kernel⟩

/-- A visitor is a pet, but what is sent for it is not dispatched over the kinds of pets. -/
theorem visitBody_visitor :
    LeadsTo visitSchemas "Visitor" "Pet" ∧ visitSchemas.get? "Pet" = some (.inline (petUnion [])) ∧
      visitBody "#/components/schemas/Visitor" = .ok (some (.simple (.entity "Pet"))) ∧
      visitBody "#/components/schemas/Pet" =
        .ok (some (.union ["Cat"] [("Cat", "Cat")] "kind")) ∧
      (visitBody "#/components/schemas/Visitor").mapError Cause.kind ≠
        (visitBody "#/components/schemas/Pet").mapError Cause.kind := by
  have hpet : refName "#/components/schemas/Pet" = "Pet" := by decide +kernel
  have hleads : LeadsTo visitSchemas "Visitor" (refName "#/components/schemas/Pet") :=
    .step rfl (.here _)
  have hvisitor : visitBody "#/components/schemas/Visitor" = .ok (some (.simple (.entity "Pet"))) :=
    by decide +kernel
  have hunion : visitBody "#/components/schemas/Pet" =
      .ok (some (.union ["Cat"] [("Cat", "Cat")] "kind")) := by decide +kernel
  refine ⟨hpet ▸ hleads, rfl, hvisitor, hunion, ?_⟩
  rw [hvisitor, hunion]
  exact nofun

end FunctionForge
