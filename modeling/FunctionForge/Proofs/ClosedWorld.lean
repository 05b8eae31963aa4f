import FunctionForge.Proofs.Document.Loading
import FunctionForge.Proofs.Endpoint.Mentions
import FunctionForge.Proofs.Model.Coverage
import FunctionForge.Proofs.Reference.Closure
import FunctionForge.Run.Open

/-!
# No class is missing

The models and the endpoints of a document mention classes by name, and both take the names from one
table.  A name that one of them mentions is what a reference of the document stands for.  If
references lead from there to a component that is given in place and admitted, the name is that of a
model, or the component is a list, or a failure says why it has no model (`modelled_of_mention`).

The table is made before any model is, so the proof has to compare what the table takes for an alias
with what is passed over when models are made: a component that is neither an alias nor a list is
eligible for a model (`eligible?_of_resolve`).
-/

namespace FunctionForge

open Document (ApiDocument Schema SchemaOrRef)
open Endpoint (resolveEndpoints)
open Model (Entity IsAt Options eligible? resolveModels)
open Naming (refName)

/-- The names of classes that models and endpoints are made of. -/
def mentions (models : List Entity) (endpoints : List Endpoint) : List String :=
  models.flatMap Entity.mentions ++ endpoints.flatMap Endpoint.mentions

variable {document : ApiDocument} {schemas : Fields SchemaOrRef} {options : Options}
  {name path target : String} {schema : Schema}

/-! ### Where names come from -/

/-- A mentioned name is what a reference of the document stands for. -/
theorem names_of_mention
    (hn : name ∈ mentions (resolveModels document.schemas options).models.items
      (resolveEndpoints (resolveModels document.schemas options).known document.schemas
        (document.paths.getD [])).items) :
    (resolveModels document.schemas options).known.Names document.references name := by
  have hk := KnownTypes.aliasesPrimitive_scan document.schemas options.naming options.admits
  rcases List.mem_append.mp hn with hn | hn
  · obtain ⟨item, hm, hn⟩ := List.mem_flatMap.mp hn
    obtain ⟨key, schema, entity, he, hr, -, hmentions⟩ := Model.exists_entry_of_item hm
    rw [hmentions] at hn
    refine (Model.names_of_resolveEntity hk hr hn).mono fun r hr => ?_
    refine document.references_of_mem_schemas (List.mem_flatMap.mpr ⟨.inline schema, ?_, hr⟩)
    exact List.mem_map_of_mem he
  · obtain ⟨endpoint, hm, hn⟩ := List.mem_flatMap.mp hn
    exact Endpoint.names_of_resolveEndpoints hk hm hn

/-! ### What names stand for -/

theorem className_of_resolve (hd : schemas.keys.Nodup)
    (hr : (resolveModels schemas options).known.resolve path = .entity name)
    (hl : LeadsTo schemas (refName path) target)
    (ht : schemas.get? target = some (.inline schema)) :
    name = options.naming.className target ∧
      (resolveModels schemas options).known.isAlias name = false := by
  change (KnownTypes.scan schemas options.naming options.admits).resolve path = _ at hr
  change _ ∧ (KnownTypes.scan schemas options.naming options.admits).isAlias name = false
  rw [KnownTypes.resolve, KnownTypes.naming_scan,
    KnownTypes.followRedirects_of_leadsTo hd hl ht] at hr
  split at hr
  · cases hr
  · rename_i ha
    obtain rfl := ResolvedRef.entity.inj hr
    refine ⟨rfl, ?_⟩
    rw [KnownTypes.isAlias, Fields.has, ha, Option.isSome_none]

/-- What a reference to a class leads to is eligible for a model unless it is a list. -/
theorem eligible?_of_resolve (hd : schemas.keys.Nodup)
    (hr : (resolveModels schemas options).known.resolve path = .entity name)
    (hl : LeadsTo schemas (refName path) target)
    (ht : schemas.get? target = some (.inline schema)) (ha : options.admits target = true)
    (harray : schema.primaryType ≠ some .array) :
    eligible? options (target, .inline schema) = some schema := by
  obtain ⟨rfl, halias⟩ := className_of_resolve hd hr hl ht
  -- A bare primitive would be an alias, but the reference stands for a class.
  have hprimitive : schema.isPrimitive = false := by
    rw [← Bool.not_eq_true]
    intro hp
    have hscan := @KnownTypes.isAlias_scan schemas options.naming options.admits target schema
      (Fields.mem_of_get? ht) ha hp
    exact absurd (hscan.symm.trans halias) nofun
  simp only [eligible?, ha, hprimitive]
  rw [if_pos]
  simpa using harray

theorem modelled_of_resolve (hd : schemas.keys.Nodup)
    (hr : (resolveModels schemas options).known.resolve path = .entity name)
    (hl : LeadsTo schemas (refName path) target)
    (ht : schemas.get? target = some (.inline schema)) (ha : options.admits target = true) :
    (∃ item ∈ (resolveModels schemas options).models.items, item.name = name) ∨
      schema.primaryType = some .array ∨
      ∃ failure ∈ (resolveModels schemas options).models.failures, IsAt target schema failure := by
  by_cases harray : schema.primaryType = some .array
  · exact Or.inr (Or.inl harray)
  · have he := eligible?_of_resolve hd hr hl ht ha harray
    rcases Model.accounted_of_eligible (Fields.mem_of_get? ht) he with ⟨item, hm, hn⟩ | hf
    · exact Or.inl ⟨item, hm, hn.trans (className_of_resolve hd hr hl ht).1.symm⟩
    · exact Or.inr (Or.inr hf)

/-! ### Documents -/

/-- The components of a document that has been opened have distinct names. -/
theorem nodup_of_openDocument {files : Files.FileTree} {file : Files.Path}
    (h : (Run.openDocument files file).document = .ok document) : document.schemas.keys.Nodup := by
  rw [Run.openDocument] at h
  split at h
  · exact absurd h nofun
  · rename_i loaded hl
    simp only at h
    split at h
    · exact absurd h nofun
    · rename_i result hr
      obtain rfl := Except.ok.inj h
      exact Reference.Resolver.nodup_of_resolve (Document.nodup_of_load hl) hr

/-- Every class that the models and the endpoints of a document mention is what a reference of the
document stands for.  Whenever such a reference leads to a component that is given in place and
admitted, the class is generated, or the component is a list, or a failure is at the place of the
component or of one of its properties.  So if nothing fails, and all references of the document lead
to such components that are no lists, then all classes that are mentioned are generated. -/
theorem modelled_of_mention (document : ApiDocument) (options : Options)
    (hd : document.schemas.keys.Nodup) :
    let resolution := resolveModels document.schemas options
    let models := resolution.models
    let endpoints :=
      resolveEndpoints resolution.known document.schemas (document.paths.getD [])
    (∀ name ∈ mentions models.items endpoints.items,
      (∃ path ∈ document.references, resolution.known.resolve path = .entity name) ∧
      ∀ path target schema, resolution.known.resolve path = .entity name →
        LeadsTo document.schemas (refName path) target →
        document.schemas.get? target = some (.inline schema) → options.admits target = true →
        (∃ item ∈ models.items, item.name = name) ∨ schema.primaryType = some .array ∨
          ∃ failure ∈ models.failures, IsAt target schema failure) ∧
    (models.failures = [] →
      (∀ path ∈ document.references, ∃ target schema,
        LeadsTo document.schemas (refName path) target ∧
        document.schemas.get? target = some (.inline schema) ∧ options.admits target = true ∧
        schema.primaryType ≠ some .array) →
      ∀ name ∈ mentions models.items endpoints.items, ∃ item ∈ models.items, item.name = name) := by
  intro resolution models endpoints
  refine ⟨fun name hn => ⟨names_of_mention hn, fun path target schema hr hl ht ha =>
    modelled_of_resolve hd hr hl ht ha⟩, fun hclean hall name hn => ?_⟩
  -- Without failures, a class that is mentioned can only be missing for a list.
  obtain ⟨path, hp, hr⟩ := names_of_mention hn
  obtain ⟨target, schema, hl, ht, ha, harray⟩ := hall path hp
  rcases modelled_of_resolve hd hr hl ht ha with hitem | harray' | ⟨failure, hf, -⟩
  · exact hitem
  · exact absurd harray' harray
  · change failure ∈ models.failures at hf
    rw [hclean] at hf
    exact absurd hf List.not_mem_nil

/-! ### A kennel -/

/-- A schema of a type with properties. -/
def typed (type : Document.SchemaType) (properties : Fields SchemaOrRef) : SchemaOrRef :=
  .inline { Schema.blank with types := some (.single type), properties }

/-- The schemas of a kennel: pets and their owners, who are persons, and what has a name. -/
def kennelSchemas : Fields SchemaOrRef :=
  [("Name", typed .string []),
    ("Person", .ref "#/components/schemas/Owner"),
    ("Pet", typed .object
      [("name", .ref "#/components/schemas/Name"), ("owner", .ref "#/components/schemas/Person")]),
    ("Owner", typed .object
      [("pets", .inline { Schema.blank with
        types := some (.single .array), items := some (.ref "#/components/schemas/Pet") })]),
    ("Being", .inline { Schema.blank with
      oneOf := [.ref "#/components/schemas/Pet", .ref "#/components/schemas/Person"],
      discriminator := some ⟨"kind", []⟩ }),
    ("Legacy", typed .object [])]

/-- A kennel, to which beings are brought and which gives back their owners. -/
def kennelDocument : ApiDocument where
  openapi := "3.0.3"
  info := ⟨"Kennel", none, "1"⟩
  paths := some [("/beings", { Document.PathItem.blank with
    operations := [(.post, {
      operationId := some "bring"
      summary := none
      description := none
      parameters := []
      requestBody := some (.inline ⟨none,
        [("application/json", ⟨some (.ref "#/components/schemas/Being")⟩)], true⟩)
      responses := [("200", .inline ⟨"The owner",
        [("application/json", ⟨some (.ref "#/components/schemas/Person")⟩)]⟩)] })] })]
  components := some { Document.Components.none with schemas := kennelSchemas }

/-- The models of a kennel are classes with a mark; what is out of date is left out. -/
def kennelOptions : Options := ⟨⟨"", "Dto"⟩, ["Legacy"], []⟩

/-- All classes that a kennel mentions are generated. -/
theorem modelled_of_mention_kennel :
    let resolution := resolveModels kennelDocument.schemas kennelOptions
    let endpoints :=
      resolveEndpoints resolution.known kennelDocument.schemas (kennelDocument.paths.getD [])
    kennelDocument.schemas.keys.Nodup ∧ resolution.models.failures = [] ∧
      mentions resolution.models.items endpoints.items =
        ["OwnerDto", "PetDto", "PetDto", "OwnerDto", "PetDto", "OwnerDto", "OwnerDto", "OwnerDto",
          "PetDto", "OwnerDto", "PetDto", "OwnerDto"] ∧
      ∀ name ∈ mentions resolution.models.items endpoints.items,
        ∃ item ∈ resolution.models.items, item.name = name := by
  have hd : kennelDocument.schemas.keys.Nodup := by decide +kernel
  have hclean : (resolveModels kennelDocument.schemas kennelOptions).models.failures = [] := by
    decide +kernel
  refine ⟨hd, hclean, by decide +kernel,
    (modelled_of_mention kennelDocument kennelOptions hd).2 hclean fun path hp => ?_⟩
  have hhere {key : String} (hk : refName path = key) :
      LeadsTo kennelSchemas (refName path) key := by
    rw [hk]
    exact .here key
  have hsub : kennelDocument.references ⊆ ["#/components/schemas/Name",
      "#/components/schemas/Person", "#/components/schemas/Owner", "#/components/schemas/Pet",
      "#/components/schemas/Being"] := by
    decide +kernel
  have hcases := hsub hp
  simp only [List.mem_cons, List.not_mem_nil, or_false] at hcases
  rcases hcases with rfl | rfl | rfl | rfl | rfl
  · exact ⟨"Name", _, hhere (by decide +kernel), rfl, by decide +kernel, nofun⟩
  · have hperson : refName "#/components/schemas/Person" = "Person" := by decide +kernel
    have howner : refName "#/components/schemas/Owner" = "Owner" := by decide +kernel
    have hleads : LeadsTo kennelSchemas "Person" (refName "#/components/schemas/Owner") :=
      .step rfl (.here _)
    rw [howner, ← hperson] at hleads
    exact ⟨"Owner", _, hleads, rfl, by decide +kernel, nofun⟩
  · exact ⟨"Owner", _, hhere (by decide +kernel), rfl, by decide +kernel, nofun⟩
  · exact ⟨"Pet", _, hhere (by decide +kernel), rfl, by decide +kernel, nofun⟩
  · exact ⟨"Being", _, hhere (by decide +kernel), rfl, by decide +kernel, nofun⟩

end FunctionForge
