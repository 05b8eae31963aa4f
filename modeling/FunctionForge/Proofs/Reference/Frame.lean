import FunctionForge.Model.Entity
import FunctionForge.Proofs.Document.Unchanged
import FunctionForge.Proofs.Reference.Inlined

/-!
# Resolving leaves the rest of a document as it is

Resolving the references of a document keeps its component schemas, in front and in their order, and
changes nothing in them but the texts of references to other files, which become references to
components; what comes after them are imported schemas under names that the document has not taken
(`frame_of_resolve`).  The names of the other components stay, and so do the version and the title.
A document without references to other files keeps its components altogether, and what has been
resolved is such a document, so that resolving it again changes nothing, whatever files there are
(`result_of_inside`).
-/

namespace FunctionForge.Reference

open Document (ApiDocument Components LoadError SchemaOrRef)
open Files (Path)

namespace Bundle

variable {load : Path → Except LoadError Value} {folder : Path} {imports : Fields SchemaOrRef}
  {document : ApiDocument}

theorem file?_of_parts {path : String} (h : (parts path).1 = "") :
    file? (documentOrigin folder) path = .ok none := by
  rw [file?, h]
  rfl

/-- References that lead into the document are looked at, and nothing else happens. -/
theorem visited_of_inside {refs : List String} (h : ∀ path ∈ refs, (parts path).1 = "")
    (st : Bundling) : Visited load (documentOrigin folder) refs st (.ok ()) st := by
  induction refs with
  | nil => exact .nil
  | cons path rest ih =>
    have hf : file? (documentOrigin folder) path = .ok none :=
      file?_of_parts (h path List.mem_cons_self)
    have he : exec (enter load (documentOrigin folder) path) st = some (.ok none, st) := by
      rw [enter, hf, liftExcept_ok_bind]
      rfl
    exact .settled he (ih fun other ho => h other (List.mem_cons_of_mem path ho))

theorem openapi_merged (imports : Fields SchemaOrRef) (document : ApiDocument) :
    (merged imports document).openapi = document.openapi := by
  rw [merged]
  split_ifs
  · rfl
  · rfl

theorem info_merged (imports : Fields SchemaOrRef) (document : ApiDocument) :
    (merged imports document).info = document.info := by
  rw [merged]
  split_ifs
  · rfl
  · rfl

/-- A reference to another file has become one to a component, any other is kept. -/
def Localized (names : List String) (path path' : String) : Prop :=
  (parts path).1 = "" ∧ path' = path ∨
    (parts path).1 ≠ "" ∧ ∃ name ∈ names, path' = localRef name

/-- A component is what a resolver has imported under its name: the schema that stands where the
name was marked, with its references replaced. -/
def IsImport (load : Path → Except LoadError Value) (resolver : Resolver)
    (entry : String × SchemaOrRef) : Prop :=
  ∃ mark ∈ resolver.imported, importedName? mark = some entry.1 ∧
    ∃ (file : Path) (value : Value) (schema : SchemaOrRef), file.plainText = mark.1 ∧
      Holds load mark.1 value ∧ schemaAt? value mark.2 = some schema ∧
      schema.SameUpTo (fun path path' => path' = rewritten (originIn file) path) entry.2

theorem Imported.isImport {st : Bundling} {mark : String × String} {arrival : Arrival}
    (h : Imported load st mark arrival) (hm : mark ∈ st.resolver.imported) :
    IsImport load st.resolver (arrival.name, arrival.bundled) := by
  obtain ⟨value, hv, hs⟩ := h.schema
  exact ⟨mark, hm, h.name, arrival.file, value, arrival.schema, h.file, hv, hs,
    arrival.schema.sameUpTo_mapReferences _ _ fun _ _ => rfl⟩

end Bundle

namespace Resolver

open Reference.Bundle

variable {folder : Path} {load : Path → Except LoadError Value} {document result : ApiDocument}
  {st : Bundling}

/-- Where no reference leads to another file, all that resolving does is to put components in
place. -/
theorem result_of_inside (resolver : Resolver) (load : Path → Except LoadError Value)
    (h : ∀ path ∈ document.references, (parts path).1 = "") :
    (resolver.resolve load document).result = inlineComponents document := by
  have hb : resolver.Bundles load document (.ok ()) ⟨resolver, [], []⟩ := visited_of_inside h _
  rw [(resolve_of_bundles hb).1]
  change inlineComponents (document.mapReferences (rewritten (documentOrigin resolver.folder))) = _
  rw [document.mapReferences_eq_self fun path hp =>
    rewritten_of_inside (file?_of_parts (h path hp))]

/-- The references of a document are replaced as they should be. -/
theorem Bundles.localized (h : (Resolver.fresh folder).Bundles load document (.ok ()) st)
    (hi : inlineComponents (merged st.imports (document.mapReferences (Bundle.rewritten
      (documentOrigin folder)))) = .ok result) {path : String} (hp : path ∈ document.references) :
    Localized result.schemas.keys path (Bundle.rewritten (documentOrigin folder) path) := by
  by_cases hparts : (parts path).1 = ""
  · exact Or.inl ⟨hparts, rewritten_of_inside (file?_of_parts hparts)⟩
  · rcases h.kept_or_replaced hi hp with ⟨hinside, -⟩ | hname
    · exact absurd hinside hparts
    · exact Or.inr ⟨hparts, hname⟩

/-- The components of the document come first, and then imported ones. -/
theorem Bundles.schemas_eq_append (h : (Resolver.fresh folder).Bundles load document (.ok ()) st)
    (hi : inlineComponents (merged st.imports (document.mapReferences (Bundle.rewritten
      (documentOrigin folder)))) = .ok result) :
    ∃ kept further, result.schemas = kept ++ further ∧
      List.Forall₂ (fun given kept => kept.1 = given.1 ∧
        given.2.SameUpTo (Localized result.schemas.keys) kept.2) document.schemas kept ∧
      ∀ entry ∈ further,
        entry.1 ∉ document.schemas.keys ∧ IsImport load st.resolver entry := by
  obtain ⟨further, heq, hfurther⟩ := exists_mergeImports_eq_append st.imports
    (document.schemas.mapValues
      (SchemaOrRef.mapReferences (Bundle.rewritten (documentOrigin folder))))
  refine ⟨_, further, (schemas_of_inlineComponents hi).trans heq, ?_, fun entry he => ?_⟩
  · rw [Fields.mapValues, List.forall₂_map_right_iff, List.forall₂_same]
    refine fun given hg => ⟨rfl, given.2.sameUpTo_mapReferences _ _ fun path hp => ?_⟩
    refine h.localized hi (document.references_of_mem_schemas ?_)
    exact List.mem_flatMap.mpr ⟨given.2, List.mem_map_of_mem hg, hp⟩
  · obtain ⟨hm, hn⟩ := hfurther entry he
    rw [Fields.keys_mapValues] at hn
    obtain ⟨mark, hmark, arrival, ha, rfl⟩ := h.imported.2.1 entry hm
    exact ⟨hn, ha.isImport hmark⟩

/-- Resolving keeps the components of a document, up to the texts of references to other files, and
adds imported ones.  Resolving what has been resolved changes nothing. -/
theorem frame_of_resolve
    (h : ((Resolver.fresh folder).resolve load document).result = .ok result) :
    let resolver := ((Resolver.fresh folder).resolve load document).resolver
    let before := document.components.getD .none
    let after := result.components.getD .none
    (result.openapi = document.openapi ∧ result.info = document.info) ∧
    (∃ kept further, result.schemas = kept ++ further ∧
      List.Forall₂ (fun given kept => kept.1 = given.1 ∧
        given.2.SameUpTo (Localized result.schemas.keys) kept.2) document.schemas kept ∧
      ∀ entry ∈ further, entry.1 ∉ document.schemas.keys ∧ IsImport load resolver entry) ∧
    (after.parameters.keys = before.parameters.keys ∧
      after.requestBodies.keys = before.requestBodies.keys ∧
      after.responses.keys = before.responses.keys) ∧
    ((∀ path ∈ document.references, (parts path).1 = "") →
      result.components = document.components ∧ ∀ options,
        Model.resolveModels result.schemas options =
          Model.resolveModels document.schemas options) ∧
    ∀ folder' load', ((Resolver.fresh folder').resolve load' result).result = .ok result := by
  intro resolver before after
  obtain ⟨st, hb, hresolver, hi⟩ := exists_bundles_of_resolve h
  change inlineComponents (merged st.imports
    (document.mapReferences (Bundle.rewritten (documentOrigin folder)))) = .ok result at hi
  have hkept := sectionsKept_merged st.imports document
    (SchemaOrRef.mapReferences (rewritten (documentOrigin folder)))
  rw [← ApiDocument.mapReferences, ← components_inlineComponents hi] at hkept
  refine ⟨?_, ?_, ?_, fun hinside => ?_, fun folder' load' => ?_⟩
  · obtain ⟨paths, rfl⟩ := exists_paths_of_inlineComponents hi
    exact ⟨openapi_merged st.imports _, info_merged st.imports _⟩
  · change ∃ kept further, _ ∧ _ ∧ ∀ entry ∈ further, _ ∧
      IsImport load ((Resolver.fresh folder).resolve load document).resolver entry
    rw [hresolver]
    exact hb.schemas_eq_append hi
  · rw [hkept.parameters, hkept.requestBodies, hkept.responses]
    exact ⟨Fields.keys_mapValues _ _, Fields.keys_mapValues _ _, Fields.keys_mapValues _ _⟩
  · rw [result_of_inside _ _ hinside] at h
    have hcomponents := components_inlineComponents h
    have hschemas : result.schemas = document.schemas := by
      rw [ApiDocument.schemas, hcomponents, ApiDocument.schemas]
    exact ⟨hcomponents, fun options => by rw [hschemas]⟩
  -- No reference of what has been resolved leads to another file, and its components are in place.
  · have hinside : ∀ path ∈ result.references, (parts path).1 = "" := by
      intro path hp
      rcases hb.mem_references hi hp with ⟨-, hparts⟩ | ⟨name, -, rfl⟩
      · exact hparts
      · exact parts_localRef name
    rw [result_of_inside _ _ hinside]
    exact (pathsInPlace hi).inlineComponents_eq

/-- A litter stays in front of the pet that it refers to, and resolving it again changes nothing. -/
theorem frame_of_resolve_litter : ∃ result,
    ((Resolver.fresh .here).resolve petFile litterDocument).result = .ok result ∧
      (∃ litter further, result.schemas = ("Litter", litter) :: further ∧
        ∀ entry ∈ further, entry.1 ≠ "Litter") ∧
      ((Resolver.fresh .here).resolve petFile result).result = .ok result := by
  obtain ⟨result, h⟩ := @exists_resolve_eq_ok (Resolver.fresh .here) petFile litterDocument 3
    (by decide +kernel)
  obtain ⟨-, ⟨kept, further, heq, hkept, hfurther⟩, -, -, hagain⟩ := frame_of_resolve h
  obtain ⟨⟨name, litter⟩, ⟨hname, -⟩, rfl⟩ := eq_singleton_of_forall₂ hkept
  obtain rfl : name = "Litter" := hname
  refine ⟨result, h, ⟨litter, further, heq, fun entry he hentry => ?_⟩, hagain .here petFile⟩
  exact (hfurther entry he).1 (hentry ▸ List.mem_singleton_self "Litter")

end Resolver

end FunctionForge.Reference
