import FunctionForge.Proofs.Reference.Component
import FunctionForge.Proofs.Reference.Imports

/-!
# Bundling closes a document

When the references of a document have been resolved, none of its schemas refers to another file any
more, and every reference that has been replaced leads to a schema among its components
(`closed_of_resolve`).  The components are those of the document and the imported ones whose names
are free (`get?_mergeImports`); all that a run without an error has come to is imported
(`Bundles.imported`), so that no replaced reference is left without its schema, whatever has been
left out of the components because its name was taken.
-/

namespace FunctionForge.Reference

open Document (ApiDocument Components LoadError SchemaOrRef)
open Files (Path)

/-! ### Merging -/

namespace Bundle

/-- One imported schema is merged. -/
def mergeStep (merging : Fields SchemaOrRef × List Notice) (entry : String × SchemaOrRef) :
    Fields SchemaOrRef × List Notice :=
  if merging.1.has entry.1 then (merging.1, merging.2 ++ [.shadowedImport entry.1])
  else (merging.1.insert entry.1 entry.2, merging.2)

theorem mergeStep_of_mem {merging : Fields SchemaOrRef × List Notice}
    {entry : String × SchemaOrRef} (h : entry.1 ∈ merging.1.keys) :
    (mergeStep merging entry).1 = merging.1 := by
  rw [mergeStep, if_pos (Fields.has_iff_mem_keys.mpr h)]

theorem mergeStep_of_not_mem {merging : Fields SchemaOrRef × List Notice}
    {entry : String × SchemaOrRef} (h : entry.1 ∉ merging.1.keys) :
    (mergeStep merging entry).1 = merging.1 ++ [entry] := by
  rw [mergeStep, if_neg (mt Fields.has_iff_mem_keys.mp h)]
  exact Fields.insert_of_not_mem entry.2 h

/-- A name keeps its schema when another one is merged, and a free name gets the new one. -/
theorem get?_mergeStep (merging : Fields SchemaOrRef × List Notice) (entry : String × SchemaOrRef)
    (name : String) : (mergeStep merging entry).1.get? name =
      (merging.1.get? name).or (if name = entry.1 then some entry.2 else none) := by
  by_cases hk : entry.1 ∈ merging.1.keys
  · rw [mergeStep_of_mem hk]
    split_ifs with hn
    · obtain ⟨found, hf⟩ := Fields.exists_get?_of_mem_keys hk
      rw [hn, hf, Option.some_or]
    · rw [Option.or_none]
  · rw [mergeStep, if_neg (mt Fields.has_iff_mem_keys.mp hk), Fields.get?_insert]
    split_ifs with hn
    · rw [hn, Fields.get?_eq_none_iff.mpr hk, Option.none_or]
    · rw [Option.or_none]

/-- A schema of the document takes precedence over an imported one of its name. -/
theorem get?_foldl_mergeStep (imports : Fields SchemaOrRef)
    (merging : Fields SchemaOrRef × List Notice) (name : String) :
    (imports.foldl mergeStep merging).1.get? name =
      (merging.1.get? name).or (imports.get? name) := by
  induction imports generalizing merging with
  | nil => rw [List.foldl_nil, Fields.get?_nil, Option.or_none]
  | cons entry rest ih =>
    rw [List.foldl_cons, ih, get?_mergeStep, Fields.get?_cons, Option.or_assoc]
    split_ifs
    · rw [Option.some_or]
    · rw [Option.none_or]

/-- Of a name that is in both, the schema of the document counts. -/
theorem get?_mergeImports (imports schemas : Fields SchemaOrRef) (name : String) :
    (mergeImports imports schemas).1.get? name = (schemas.get? name).or (imports.get? name) :=
  get?_foldl_mergeStep imports (schemas, []) name

theorem mem_keys_mergeImports {imports schemas : Fields SchemaOrRef} {name : String} :
    name ∈ (mergeImports imports schemas).1.keys ↔ name ∈ schemas.keys ∨ name ∈ imports.keys := by
  rw [← not_iff_not, not_or, ← Fields.get?_eq_none_iff, ← Fields.get?_eq_none_iff,
    ← Fields.get?_eq_none_iff, get?_mergeImports, Option.or_eq_none_iff]

/-- Merging keeps the names distinct. -/
theorem nodup_keys_mergeImports (imports : Fields SchemaOrRef) {schemas : Fields SchemaOrRef}
    (hd : schemas.keys.Nodup) : (mergeImports imports schemas).1.keys.Nodup := by
  have hfold : ∀ (imports : Fields SchemaOrRef) (merging : Fields SchemaOrRef × List Notice),
      merging.1.keys.Nodup → (imports.foldl mergeStep merging).1.keys.Nodup := by
    intro imports
    induction imports with
    | nil => exact fun _ hd => hd
    | cons entry rest ih =>
      refine fun merging hd => ih _ ?_
      rw [mergeStep]
      split_ifs
      · exact hd
      · exact Fields.nodup_keys_insert hd entry.1 entry.2
  exact hfold imports (schemas, []) hd

theorem mem_foldl_mergeStep {imports : Fields SchemaOrRef}
    {merging : Fields SchemaOrRef × List Notice} {entry : String × SchemaOrRef}
    (h : entry ∈ (imports.foldl mergeStep merging).1) : entry ∈ merging.1 ∨ entry ∈ imports := by
  induction imports generalizing merging with
  | nil => exact Or.inl h
  | cons field rest ih =>
    rw [List.foldl_cons] at h
    rcases ih h with hm | hm
    · by_cases hk : field.1 ∈ merging.1.keys
      · rw [mergeStep_of_mem hk] at hm
        exact Or.inl hm
      · rw [mergeStep_of_not_mem hk, List.mem_append, List.mem_singleton] at hm
        rcases hm with hm | rfl
        · exact Or.inl hm
        · exact Or.inr List.mem_cons_self
    · exact Or.inr (List.mem_cons_of_mem _ hm)

/-- What has been merged is from the document or imported. -/
theorem mem_mergeImports {imports schemas : Fields SchemaOrRef} {entry : String × SchemaOrRef}
    (h : entry ∈ (mergeImports imports schemas).1) : entry ∈ schemas ∨ entry ∈ imports :=
  mem_foldl_mergeStep h

/-- Merging appends imported schemas of new names, and leaves what was there in front. -/
theorem exists_foldl_mergeStep_eq_append (imports : Fields SchemaOrRef)
    (merging : Fields SchemaOrRef × List Notice) :
    ∃ further, (imports.foldl mergeStep merging).1 = merging.1 ++ further ∧
      ∀ entry ∈ further, entry ∈ imports ∧ entry.1 ∉ merging.1.keys := by
  induction imports generalizing merging with
  | nil => exact ⟨[], (List.append_nil _).symm, nofun⟩
  | cons field rest ih =>
    obtain ⟨further, heq, hfurther⟩ := ih (mergeStep merging field)
    rw [List.foldl_cons, heq]
    by_cases hk : field.1 ∈ merging.1.keys
    · rw [mergeStep_of_mem hk] at hfurther ⊢
      exact ⟨further, rfl, fun entry he =>
        (hfurther entry he).imp_left (List.mem_cons_of_mem field)⟩
    · rw [mergeStep_of_not_mem hk] at hfurther ⊢
      refine ⟨field :: further, by rw [List.append_assoc, List.singleton_append],
        fun entry he => ?_⟩
      rcases List.mem_cons.mp he with rfl | he
      · exact ⟨List.mem_cons_self, hk⟩
      · obtain ⟨hm, hn⟩ := hfurther entry he
        rw [Fields.keys, List.map_append, List.mem_append, not_or] at hn
        exact ⟨List.mem_cons_of_mem field hm, hn.1⟩

/-- The schemas of the document come first and in their order, then imported ones. -/
theorem exists_mergeImports_eq_append (imports schemas : Fields SchemaOrRef) :
    ∃ further, (mergeImports imports schemas).1 = schemas ++ further ∧
      ∀ entry ∈ further, entry ∈ imports ∧ entry.1 ∉ schemas.keys :=
  exists_foldl_mergeStep_eq_append imports (schemas, [])

variable {imports : Fields SchemaOrRef} {document : ApiDocument}

theorem schemas_eq_getD (document : ApiDocument) :
    (document.components.getD .none).schemas = document.schemas := by
  rw [ApiDocument.schemas]
  cases document.components with
  | none => rfl
  | some components => rfl

/-- The schemas of the merged document are the merged schemas. -/
theorem schemas_merged (imports : Fields SchemaOrRef) (document : ApiDocument) :
    (merged imports document).schemas = (mergeImports imports document.schemas).1 := by
  rw [merged]
  cases imports with
  | nil => rfl
  | cons entry rest =>
    change (mergeImports (entry :: rest) (document.components.getD .none).schemas).1 = _
    rw [schemas_eq_getD]

/-- The references of a merged document are those of the document and those of the imports. -/
theorem mem_references_merged {r : String} (h : r ∈ (merged imports document).references) :
    r ∈ document.references ∨ ∃ entry ∈ imports, r ∈ entry.2.references := by
  rw [merged] at h
  split at h
  · exact Or.inl h
  · rw [ApiDocument.references, List.mem_append] at h ⊢
    rcases h with h | h
    · rw [Document.optionReferences, Components.references, List.mem_append] at h
      rcases h with h | h
      · obtain ⟨schema, hs, hr⟩ := List.mem_flatMap.mp h
        obtain ⟨entry, he, rfl⟩ := List.mem_map.mp hs
        -- Only the schemas have been added to, and the other parts of the components are the
        -- document's.
        rcases mem_mergeImports he with hm | hm
        · cases hc : document.components with
          | none =>
            rw [hc] at hm
            exact absurd hm List.not_mem_nil
          | some components =>
            rw [hc] at hm
            exact Or.inl (Or.inl (List.mem_append_left _
              (List.mem_flatMap.mpr ⟨_, List.mem_map_of_mem hm, hr⟩)))
        · exact Or.inr ⟨entry, hm, hr⟩
      · cases hc : document.components with
        | none =>
          rw [hc] at h
          exact absurd h List.not_mem_nil
        | some components =>
          rw [hc] at h
          exact Or.inl (Or.inl (List.mem_append_right _ h))
    · exact Or.inl (Or.inr h)

/-! ### References -/

theorem parts_of_file?_eq_none {folder : Path} {path : String}
    (h : file? (documentOrigin folder) path = .ok none) : (parts path).1 = "" := by
  rw [file?] at h
  by_cases he : (parts path).1.isEmpty = true
  · exact String.isEmpty_iff.mp he
  · simp only [if_neg he] at h
    split_ifs at h
    exact absurd h nofun

/-- In an imported file every reference is into some file, be it the same one. -/
theorem file?_originIn_ne_none {file : Path} {path : String} :
    file? (originIn file) path ≠ .ok none := by
  rw [file?]
  split_ifs
  · nofun
  · nofun
  · nofun

theorem toList_localRef (name : String) :
    (localRef name).toList = '#' :: ("/components/schemas/".toList ++ name.toList) := by
  have hlead : "#/components/schemas/".toList = '#' :: "/components/schemas/".toList := by
    decide +kernel
  have happend : (localRef name).toList = "#/components/schemas/".toList ++ name.toList := by
    unfold localRef
    exact String.toList_append
  rw [happend, hlead, List.cons_append]

@[simp]
theorem parts_localRef (name : String) : (parts (localRef name)).1 = "" := by
  have hs : Text.splitFirst '#' (localRef name).toList =
      some ([], "/components/schemas/".toList ++ name.toList) :=
    Text.splitFirst_eq_some_iff.mpr ⟨List.not_mem_nil, toList_localRef name⟩
  rw [parts, Text.cutFirst, hs, Option.map_some, Option.getD_some]

end Bundle

namespace Resolver

open Reference.Bundle

variable {load : Path → Except LoadError Value} {document result : ApiDocument} {folder : Path}
  {st : Bundling}

/-- What a run on a fresh resolver has marked is imported, and what it has imported was marked. -/
theorem Bundles.imported (h : (Resolver.fresh folder).Bundles load document (.ok ()) st) :
    (∀ mark ∈ st.resolver.imported,
      ∃ arrival, Imported load st mark arrival ∧ arrival.name ∈ st.imports.keys) ∧
    (∀ entry ∈ st.imports, ∃ mark ∈ st.resolver.imported, ∃ arrival,
      Imported load st mark arrival ∧ entry = (arrival.name, arrival.bundled)) ∧
    ∀ path ∈ document.references, Settled (documentOrigin folder) path st := by
  have hr : Remembers load ⟨Resolver.fresh folder, [], []⟩ := nofun
  obtain ⟨hp, hs⟩ := Visited.progress h hr
  refine ⟨fun mark hm => ?_, fun entry he => ?_, hs⟩
  · rcases hp.done mark hm with hm | hd
    · exact absurd hm List.not_mem_nil
    · exact hd
  · rcases hp.added entry he with he | ha
    · exact absurd he List.not_mem_nil
    · exact ha

/-- A settled reference is replaced by one to an import, unless it leads into the document. -/
theorem Bundles.rewritten (h : (Resolver.fresh folder).Bundles load document (.ok ()) st)
    {origin : Origin} {path : String} (hs : Settled origin path st) :
    file? origin path = .ok none ∨
      ∃ name ∈ st.imports.keys, Bundle.rewritten origin path = localRef name := by
  rcases hs with hf | ⟨file, name, hf, hn, hk⟩
  · exact Or.inl hf
  · obtain ⟨arrival, hi, hname⟩ := h.imported.1 _ hk
    rw [importName_eq_ok_iff] at hn
    have heq : arrival.name = name := Option.some.inj (hi.name.symm.trans hn)
    refine Or.inr ⟨name, heq ▸ hname, rewritten_of_file hf (importName_eq_ok_iff.mpr hn)⟩

/-- What has been resolved has the components of the document and the imported ones. -/
theorem schemas_of_inlineComponents
    (h : inlineComponents (merged st.imports (document.mapReferences (Bundle.rewritten
      (documentOrigin folder)))) = .ok result) :
    result.schemas = (mergeImports st.imports (document.schemas.mapValues
      (SchemaOrRef.mapReferences (Bundle.rewritten (documentOrigin folder))))).1 := by
  rw [ApiDocument.schemas, components_inlineComponents h, ← ApiDocument.schemas, schemas_merged,
    ApiDocument.schemas_mapReferences]

/-- Resolving references keeps the names of the components distinct. -/
theorem nodup_of_resolve (hd : document.schemas.keys.Nodup)
    (h : ((Resolver.fresh folder).resolve load document).result = .ok result) :
    result.schemas.keys.Nodup := by
  obtain ⟨st, -, -, hi⟩ := exists_bundles_of_resolve h
  rw [schemas_of_inlineComponents hi]
  exact nodup_keys_mergeImports _ (by rwa [Fields.keys_mapValues])

/-- Every imported name is one of the components at the end. -/
theorem mem_keys_of_mem_imports
    (hi : inlineComponents (merged st.imports (document.mapReferences (Bundle.rewritten
      (documentOrigin folder)))) = .ok result) {name : String} (hn : name ∈ st.imports.keys) :
    name ∈ result.schemas.keys := by
  rw [schemas_of_inlineComponents hi]
  exact mem_keys_mergeImports.mpr (Or.inr hn)

/-- A reference of the document is kept if it has no file part, and replaced if it has one. -/
theorem Bundles.kept_or_replaced (h : (Resolver.fresh folder).Bundles load document (.ok ()) st)
    (hi : inlineComponents (merged st.imports (document.mapReferences (Bundle.rewritten
      (documentOrigin folder)))) = .ok result) {path : String} (hp : path ∈ document.references) :
    (parts path).1 = "" ∧ Bundle.rewritten (documentOrigin folder) path = path ∨
      ∃ name ∈ result.schemas.keys,
        Bundle.rewritten (documentOrigin folder) path = localRef name := by
  rcases h.rewritten (h.imported.2.2 path hp) with hf | ⟨name, hn, heq⟩
  · exact Or.inl ⟨parts_of_file?_eq_none hf, rewritten_of_inside hf⟩
  · exact Or.inr ⟨name, mem_keys_of_mem_imports hi hn, heq⟩

/-- All references of what is imported are replaced. -/
theorem Bundles.replaced_of_import (h : (Resolver.fresh folder).Bundles load document (.ok ()) st)
    (hi : inlineComponents (merged st.imports (document.mapReferences (Bundle.rewritten
      (documentOrigin folder)))) = .ok result) {entry : String × SchemaOrRef}
    (he : entry ∈ st.imports) {r : String} (hr : r ∈ entry.2.references) :
    ∃ name ∈ result.schemas.keys, r = localRef name := by
  obtain ⟨mark, -, arrival, ha, rfl⟩ := h.imported.2.1 entry he
  rw [Arrival.bundled, SchemaOrRef.references_mapReferences] at hr
  obtain ⟨path, hp, rfl⟩ := List.mem_map.mp hr
  rcases h.rewritten (ha.settled path hp) with hf | ⟨name, hn, heq⟩
  · exact absurd hf file?_originIn_ne_none
  · exact ⟨name, mem_keys_of_mem_imports hi hn, heq⟩

/-- The references of the result are those that were kept and those that took the place of
others. -/
theorem Bundles.mem_references (h : (Resolver.fresh folder).Bundles load document (.ok ()) st)
    (hi : inlineComponents (merged st.imports (document.mapReferences (Bundle.rewritten
      (documentOrigin folder)))) = .ok result) {r : String} (hr : r ∈ result.references) :
    r ∈ document.references ∧ (parts r).1 = "" ∨
      ∃ name ∈ result.schemas.keys, r = localRef name := by
  rcases mem_references_merged (references_inlineComponents hi hr) with hr | ⟨entry, he, hr⟩
  · rw [ApiDocument.references_mapReferences] at hr
    obtain ⟨path, hp, rfl⟩ := List.mem_map.mp hr
    rcases h.kept_or_replaced hi hp with ⟨hparts, heq⟩ | hn
    · rw [heq]
      exact Or.inl ⟨hp, hparts⟩
    · exact Or.inr hn
  · exact Or.inr (h.replaced_of_import hi he hr)

/-- A resolved document is closed: none of its references has a file part; those of the document
that had one have been replaced by references to components that it has, those of its imported
components are references to components that it has, and all others are the document's own. -/
theorem closed_of_resolve
    (h : ((Resolver.fresh folder).resolve load document).result = .ok result) :
    (∀ r ∈ result.references, (parts r).1 = "") ∧
    (∀ path ∈ document.references, (parts path).1 ≠ "" →
      ∃ name ∈ result.schemas.keys,
        Bundle.rewritten (documentOrigin folder) path = localRef name) ∧
    (∀ key schema, result.schemas.get? key = some schema → key ∉ document.schemas.keys →
      ∀ r ∈ schema.references, ∃ name ∈ result.schemas.keys, r = localRef name) ∧
    ∀ r ∈ result.references,
      r ∈ document.references ∨ ∃ name ∈ result.schemas.keys, r = localRef name := by
  obtain ⟨st, hb, -, hi⟩ := exists_bundles_of_resolve h
  change inlineComponents (merged st.imports
    (document.mapReferences (Bundle.rewritten (documentOrigin folder)))) = .ok result at hi
  refine ⟨fun r hr => ?_, fun path hp hparts => ?_, fun key schema hk hnot r hr => ?_,
    fun r hr => (hb.mem_references hi hr).imp_left And.left⟩
  · rcases hb.mem_references hi hr with ⟨-, hparts⟩ | ⟨name, -, rfl⟩
    · exact hparts
    · exact parts_localRef name
  · exact (hb.kept_or_replaced hi hp).resolve_left fun hkept => hparts hkept.1
  -- A component that the document does not have is an imported one.
  · rw [schemas_of_inlineComponents hi, get?_mergeImports, Fields.get?_mapValues,
      Fields.get?_eq_none_iff.mpr hnot, Option.map_none, Option.none_or] at hk
    exact hb.replaced_of_import hi (Fields.mem_of_get? hk) hr

/-- A litter of pets, which are described in another file. -/
def litterDocument : ApiDocument where
  openapi := "3.0.3"
  info := ⟨"Litters", none, "1"⟩
  paths := none
  components := some { Components.none with
    schemas := [("Litter", .inline { Document.Schema.blank with
      items := some (.ref "pets.yml#/Pet") })] }

/-- A pet, whose description refers to that of its owner. -/
def petFile (_ : Path) : Except LoadError Value :=
  .ok (.object [("Pet", .object [("properties",
    .object [("owner", .object [("$ref", .string "#/Owner")])])]), ("Owner", .object [])])

/-- The litter's reference is replaced by one to an imported schema. -/
theorem closed_of_resolve_litter : ∃ result,
    ((Resolver.fresh .here).resolve petFile litterDocument).result = .ok result ∧
      (∀ r ∈ result.references, (parts r).1 = "") ∧
      ∃ name ∈ result.schemas.keys,
        Bundle.rewritten (documentOrigin .here) "pets.yml#/Pet" = localRef name := by
  obtain ⟨result, h⟩ := @exists_resolve_eq_ok (Resolver.fresh .here) petFile litterDocument 3
    (by decide +kernel)
  obtain ⟨hparts, hrewritten, -, -⟩ := closed_of_resolve h
  exact ⟨result, h, hparts, hrewritten _ List.mem_cons_self (by decide +kernel)⟩

end Resolver

end FunctionForge.Reference
