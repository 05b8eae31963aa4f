import FunctionForge.Proofs.Files.Reading
import FunctionForge.Proofs.Redirects
import FunctionForge.Proofs.Reference.Closure

/-!
# Components that refer to other files

A component that is nothing but a reference into another file becomes one to the name under which
the schema there is imported (`get?_of_redirect`).  It leads to that schema exactly if the name is
free among the document's components and has no slash (`leadsTo_import_iff`): a component of the
name, even if it is nothing but a reference itself, stands in the way of the import, and the slash
of a name is not escaped in the reference.  So a component `Pet` that is a reference to `Pet.yml`
becomes a reference to itself (`eq_of_leadsTo_of_redirect`).
-/

namespace FunctionForge.Reference

open Document (ApiDocument LoadError Schema SchemaOrRef loadValueAnyLength)
open Files (FileTree Path)
open Naming (refName)

namespace Bundle

/-! ### Names in references -/

theorem toList_localRef_eq_append (name : String) :
    (localRef name).toList = "#/components/schemas".toList ++ '/' :: name.toList := by
  have hlead : "/components/schemas/".toList = "/components/schemas".toList ++ ['/'] := by
    decide +kernel
  have hmark : "#/components/schemas".toList = '#' :: "/components/schemas".toList := by
    decide +kernel
  rw [toList_localRef, hlead, hmark, List.append_assoc, List.singleton_append, List.cons_append]

theorem refName_localRef {name : String} (h : '/' ∉ name.toList) :
    refName (localRef name) = name := by
  rw [refName, toList_localRef_eq_append, Text.afterLast_append_cons h, String.ofList_toList]

/-! ### Spellings of a path -/

/-- Where a reference in a file leads does not depend on how the file's path is spelled. -/
theorem file?_originIn_congr {file other : Path} (h : file.segments = other.segments)
    (path : String) : (∃ cause, file? (originIn file) path = .error cause ∧
        file? (originIn other) path = .error cause) ∨
      ∃ target target', file? (originIn file) path = .ok (some target) ∧
        file? (originIn other) path = .ok (some target') ∧ target.segments = target'.segments := by
  rw [file?, file?]
  by_cases he : (parts path).1.isEmpty = true
  · rw [if_pos he, if_pos he]
    exact Or.inr ⟨file, other, rfl, rfl, h⟩
  · rw [if_neg he, if_neg he]
    by_cases hr : isRemote (parts path).1 = true
    · rw [if_pos hr, if_pos hr]
      exact Or.inl ⟨_, rfl, rfl⟩
    · rw [if_neg hr, if_neg hr]
      exact Or.inr ⟨_, _, rfl, rfl,
        Path.segments_join_congr (Path.segments_parent_congr h) (parts path).1⟩

theorem importName_congr {file other : Path} (h : file.segments = other.segments) (path : String) :
    importName path file = importName path other := by
  rw [importName, importName, Path.stem?_congr h]

theorem rewritten_originIn_congr {file other : Path} (h : file.segments = other.segments) :
    rewritten (originIn file) = rewritten (originIn other) := by
  funext path
  rcases file?_originIn_congr h path with ⟨cause, hf, hf'⟩ | ⟨target, target', hf, hf', ht⟩
  · rw [rewritten, rewritten, hf, hf']
  · rw [rewritten, rewritten, hf, hf']
    simp only [importName_congr ht]

theorem Settled.congr {file other : Path} (h : file.segments = other.segments) {path : String}
    {st : Bundling} (hs : Settled (originIn file) path st) : Settled (originIn other) path st := by
  rcases hs with hnone | ⟨found, name, hfound, hn, hk⟩
  · exact absurd hnone file?_originIn_ne_none
  · rcases file?_originIn_congr h path with ⟨cause, hf, -⟩ | ⟨target, target', hf, hf', ht⟩
    · exact absurd (hf.symm.trans hfound) nofun
    · obtain rfl := Option.some.inj (Except.ok.inj (hf.symm.trans hfound))
      refine Or.inr ⟨target', name, hf', (importName_congr ht path).symm.trans hn, ?_⟩
      rwa [key, ← Path.plainText_eq_iff.mpr ht]

theorem mem_references_of_get? {document : ApiDocument} {key path : String}
    (h : document.schemas.get? key = some (.ref path)) : path ∈ document.references := by
  rw [ApiDocument.references]
  cases hc : document.components with
  | none =>
    rw [ApiDocument.schemas, hc] at h
    cases h
  | some components =>
    rw [ApiDocument.schemas, hc] at h
    have hm : SchemaOrRef.ref path ∈ components.schemas.values :=
      List.mem_map_of_mem (Fields.mem_of_get? h)
    exact List.mem_append_left _ (List.mem_append_left _
      (List.mem_flatMap.mpr ⟨_, hm, List.mem_singleton_self _⟩))

end Bundle

namespace Resolver

open Reference.Bundle

variable {files : FileTree} {folder : Path} {document result : ApiDocument} {st : Bundling}
  {key path name : String} {file : Path} {value : Value} {schema : SchemaOrRef}

/-- What is imported under a name that only one thing marked has. -/
theorem get?_imports
    (hb : (Resolver.fresh folder).Bundles (Document.loadValue files) document (.ok ()) st)
    (hm : Bundle.key file path ∈ st.resolver.imported)
    (hv : loadValueAnyLength files file = .ok value)
    (hs : schemaAt? value (parts path).2 = some schema) (hn : importName path file = .ok name)
    (hother : ∀ mark ∈ st.resolver.imported, importedName? mark = some name →
      mark = Bundle.key file path) :
    st.imports.get? name = some (schema.mapReferences (Bundle.rewritten (originIn file))) := by
  rw [importName_eq_ok_iff] at hn
  obtain ⟨arrival, ha, hk⟩ := hb.imported.1 _ hm
  obtain rfl : arrival.name = name := Option.some.inj (ha.name.symm.trans hn)
  obtain ⟨found, hfound⟩ := Fields.exists_get?_of_mem_keys hk
  obtain ⟨mark, hmark, other, ho, heq⟩ := hb.imported.2.1 _ (Fields.mem_of_get? hfound)
  obtain ⟨hname, rfl⟩ := Prod.mk.inj heq
  -- Only this mark has the name, so the import under it comes from this file and pointer.
  obtain rfl := hother mark hmark (by rw [ho.name, hname])
  obtain ⟨value', ⟨file', hplain, hload⟩, hat⟩ := ho.schema
  have hvalue : value' = value :=
    Document.loadValueAnyLength_congr hplain (Document.loadValue_eq_ok_iff.mp hload).2 hv
  rw [hvalue] at hat
  have hschema : other.schema = schema := Option.some.inj (hat.symm.trans hs)
  have hsegments : other.file.segments = file.segments := Path.plainText_eq_iff.mp ho.file
  rw [hfound, Arrival.bundled, hschema, rewritten_originIn_congr hsegments]

theorem get?_of_inlineComponents
    (hi : inlineComponents (merged st.imports (document.mapReferences (Bundle.rewritten
      (documentOrigin folder)))) = .ok result) (name : String) :
    result.schemas.get? name = ((document.schemas.get? name).map
      (SchemaOrRef.mapReferences (Bundle.rewritten (documentOrigin folder)))).or
        (st.imports.get? name) := by
  rw [schemas_of_inlineComponents hi, get?_mergeImports, Fields.get?_mapValues]

/-- A component that is nothing but a reference into another file becomes one to the name under
which the schema there is imported. -/
theorem get?_of_redirect {load : Path → Except LoadError Value}
    (h : ((Resolver.fresh folder).resolve load document).result = .ok result)
    (hk : document.schemas.get? key = some (.ref path))
    (hf : file? (documentOrigin folder) path = .ok (some file))
    (hn : importName path file = .ok name) :
    result.schemas.get? key = some (.ref (localRef name)) := by
  obtain ⟨st, -, -, hi⟩ := exists_bundles_of_resolve h
  have hget := get?_of_inlineComponents hi key
  rw [hk, Option.map_some, Option.some_or, SchemaOrRef.mapReferences_ref] at hget
  exact hget.trans (congrArg some (congrArg SchemaOrRef.ref (rewritten_of_file hf hn)))

/-- A component that is imported under its own name becomes a reference to itself. -/
theorem eq_of_leadsTo_of_redirect {load : Path → Except LoadError Value}
    (h : ((Resolver.fresh folder).resolve load document).result = .ok result)
    (hk : document.schemas.get? key = some (.ref path))
    (hf : file? (documentOrigin folder) path = .ok (some file))
    (hn : importName path file = .ok key) (hslash : '/' ∉ key.toList) {last : String}
    (hl : LeadsTo result.schemas key last) : last = key :=
  hl.eq_of_self (get?_of_redirect h hk hf hn) (refName_localRef hslash)

/-- A component refers to a schema in another file, which is the only import of its name, and no
component given in place has the name.  Then going along references from the component ends at the
imported schema exactly if no component at all has the name and it has no slash. -/
theorem leadsTo_import_iff {schema : Schema}
    (h : ((Resolver.fresh folder).resolve (Document.loadValue files) document).result = .ok result)
    (hk : document.schemas.get? key = some (.ref path))
    (hf : file? (documentOrigin folder) path = .ok (some file))
    (hv : loadValueAnyLength files file = .ok value)
    (hs : schemaAt? value (parts path).2 = some (.inline schema))
    (hn : importName path file = .ok name)
    (hlocal : ∀ given, document.schemas.get? name ≠ some (.inline given))
    (hother : ∀ mark ∈ ((Resolver.fresh folder).resolve (Document.loadValue files)
      document).resolver.imported, importedName? mark = some name → mark = Bundle.key file path) :
    (LeadsTo result.schemas key name ∧ result.schemas.get? name =
      some (.inline (schema.mapReferences (Bundle.rewritten (originIn file))))) ↔
        name ∉ document.schemas.keys ∧ '/' ∉ name.toList := by
  have hkey := get?_of_redirect h hk hf hn
  obtain ⟨st, hb, hresolver, hi⟩ := exists_bundles_of_resolve h
  rw [hresolver] at hother
  have hget := get?_of_inlineComponents hi
  have hmark : Bundle.key file path ∈ st.resolver.imported := by
    rcases hb.imported.2.2 path (mem_references_of_get? hk) with hnone | ⟨file', _, hf', _, hm⟩
    · exact absurd (hf.symm.trans hnone) nofun
    · obtain rfl := Option.some.inj (Except.ok.inj (hf.symm.trans hf'))
      exact hm
  have himport := get?_imports hb hmark hv hs hn hother
  constructor
  · rintro ⟨hleads, hname⟩
    -- Merging keeps a component of the name, and none is given in place.
    have hfree : name ∉ document.schemas.keys := by
      intro hmem
      obtain ⟨given, hg⟩ := Fields.exists_get?_of_mem_keys hmem
      rw [hget, hg, Option.map_some, Option.some_or] at hname
      cases given with
      | ref other => exact absurd hname nofun
      | inline other => exact hlocal other hg
    refine ⟨hfree, hleads.eq_or_not_mem.resolve_left ?_⟩
    rintro rfl
    exact hfree (Fields.mem_keys_of_mem (Fields.mem_of_get? hk))
  · rintro ⟨hfree, hslash⟩
    refine ⟨.step hkey ?_, ?_⟩
    · rw [refName_localRef hslash]
      exact .here name
    · rw [hget, Fields.get?_eq_none_iff.mpr hfree, Option.map_none, Option.none_or, himport]
      rfl

/-! ### A pet in its own file -/

/-- A folder with the description of a pet. -/
def petTree : FileTree :=
  ⟨[("Pet.yml", .file (.text "type: object\nproperties: \x7bname: \x7btype: string\x7d\x7d\n"))]⟩

/-- A document with one component, which refers to the description of a pet. -/
def petDocument (component : String) : ApiDocument where
  openapi := "3.0.3"
  info := ⟨"Pets", none, "1"⟩
  paths := none
  components := some { Document.Components.none with schemas := [(component, .ref "Pet.yml")] }

theorem imported_petDocument (component : String)
    (h : (((Resolver.fresh .here).resolveWithin (Document.loadValue petTree)
      (petDocument component) 2).map fun r => (r.result.isOk, r.resolver.imported)) =
        some (true, [("./Pet.yml", "")])) :
    (∃ result, ((Resolver.fresh .here).resolve (Document.loadValue petTree)
      (petDocument component)).result = .ok result) ∧
    ((Resolver.fresh .here).resolve (Document.loadValue petTree)
      (petDocument component)).resolver.imported = [("./Pet.yml", "")] :=
  exists_resolve_and_imported h

theorem exists_pet : ∃ value schema, loadValueAnyLength petTree ⟨"./Pet.yml"⟩ = .ok value ∧
    schemaAt? value "" = some (.inline schema) := by
  have h : ((loadValueAnyLength petTree ⟨"./Pet.yml"⟩).toOption.bind fun value =>
      (schemaAt? value "").bind SchemaOrRef.schema?).isSome = true := by decide +kernel
  obtain ⟨schema, h⟩ := Option.isSome_iff_exists.mp h
  obtain ⟨value, hv, h⟩ := Option.bind_eq_some_iff.mp h
  obtain ⟨found, hs, h⟩ := Option.bind_eq_some_iff.mp h
  refine ⟨value, schema, ?_, ?_⟩
  · cases hl : loadValueAnyLength petTree ⟨"./Pet.yml"⟩ with
    | error cause =>
      rw [hl] at hv
      exact absurd hv nofun
    | ok read =>
      rw [hl] at hv
      rw [Option.some.inj hv]
  · cases found with
    | ref path => exact absurd h nofun
    | inline given => rw [hs, Option.some.inj h]

/-- An animal leads to the pet that it refers to. -/
theorem leadsTo_import_animal : ∃ result value schema,
    ((Resolver.fresh .here).resolve (Document.loadValue petTree)
      (petDocument "Animal")).result = .ok result ∧
    loadValueAnyLength petTree ⟨"./Pet.yml"⟩ = .ok value ∧
    schemaAt? value "" = some (.inline schema) ∧
    LeadsTo result.schemas "Animal" "Pet" ∧
    result.schemas.get? "Pet" = some (.inline (schema.mapReferences
      (Bundle.rewritten (originIn ⟨"./Pet.yml"⟩)))) := by
  obtain ⟨⟨result, h⟩, himported⟩ := imported_petDocument "Animal" (by decide +kernel)
  obtain ⟨value, schema, hv, hs⟩ := exists_pet
  have hother : ∀ mark ∈ ((Resolver.fresh .here).resolve (Document.loadValue petTree)
      (petDocument "Animal")).resolver.imported, importedName? mark = some "Pet" →
        mark = Bundle.key ⟨"./Pet.yml"⟩ "Pet.yml" := by
    intro mark hm _
    rw [himported, List.mem_singleton] at hm
    rw [hm]
    decide +kernel
  have hk : (petDocument "Animal").schemas.get? "Animal" = some (.ref "Pet.yml") := rfl
  have hf : file? (documentOrigin .here) "Pet.yml" = .ok (some ⟨"./Pet.yml"⟩) := by decide +kernel
  have hn : importName "Pet.yml" ⟨"./Pet.yml"⟩ = .ok "Pet" := by decide +kernel
  have hfree : "Pet" ∉ (petDocument "Animal").schemas.keys := by decide +kernel
  have hlocal : ∀ given, (petDocument "Animal").schemas.get? "Pet" ≠ some (.inline given) := by
    rw [Fields.get?_eq_none_iff.mpr hfree]
    nofun
  obtain ⟨hleads, hget⟩ := (leadsTo_import_iff h hk hf hv hs hn hlocal hother).mpr
    ⟨hfree, by decide +kernel⟩
  exact ⟨result, value, schema, h, hv, hs, hleads, hget⟩

/-- A pet that refers to its own file is a reference to itself. -/
theorem eq_of_leadsTo_pet : ∃ result value schema,
    ((Resolver.fresh .here).resolve (Document.loadValue petTree)
      (petDocument "Pet")).result = .ok result ∧
    loadValueAnyLength petTree ⟨"./Pet.yml"⟩ = .ok value ∧
    schemaAt? value "" = some (.inline schema) ∧
    ((Resolver.fresh .here).resolve (Document.loadValue petTree)
      (petDocument "Pet")).resolver.imported = [("./Pet.yml", "")] ∧
    result.schemas.get? "Pet" = some (.ref (localRef "Pet")) ∧
    ∀ last, LeadsTo result.schemas "Pet" last → last = "Pet" := by
  obtain ⟨⟨result, h⟩, himported⟩ := imported_petDocument "Pet" (by decide +kernel)
  obtain ⟨value, schema, hv, hs⟩ := exists_pet
  have hf : file? (documentOrigin .here) "Pet.yml" = .ok (some ⟨"./Pet.yml"⟩) := by decide +kernel
  have hn : importName "Pet.yml" ⟨"./Pet.yml"⟩ = .ok "Pet" := by decide +kernel
  exact ⟨result, value, schema, h, hv, hs, himported, get?_of_redirect h rfl hf hn,
    fun _ hl => eq_of_leadsTo_of_redirect h rfl hf hn (by decide +kernel) hl⟩

end Resolver

end FunctionForge.Reference
