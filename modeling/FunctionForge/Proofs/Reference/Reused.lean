import FunctionForge.Proofs.Reference.Alongside
import FunctionForge.Proofs.Reference.Frame

/-!
# Resolvers that are used again

A resolver imports from nothing that it remembers to have imported from, but the schemas that it
has imported belong to the document that it imported them for.  So where two documents lead to the
same target, the second one is left with a reference to a component that it does not have
(`resolve_pet_twice`).

`resolve_again` says what becomes of the second document.  It has its own components and the
imports of what the first one did not come to (`mem_keys_resolve_again`).  If it comes to no file
that the first one came to, nothing is different, whether there were errors or not
(`resolve_again_of_apart`).  If both are bundled without an error, it is what a fresh resolver makes
of it but for the components of the names in `lostNames` (`without_of_resolve_again`).
-/

namespace FunctionForge.Reference

open Document (ApiDocument Components LoadError SchemaOrRef loadValue)
open Files (FileTree Path)

namespace Bundle

variable {names lost : List String} {imports imports' : Fields SchemaOrRef}
  {document : ApiDocument}

/-! ### Merging fewer imports -/

theorem mem_keys_mergeStep {merging : Fields SchemaOrRef × List Notice} {name : String}
    (h : name ∈ merging.1.keys) (entry : String × SchemaOrRef) :
    name ∈ (mergeStep merging entry).1.keys := by
  by_cases hk : entry.1 ∈ merging.1.keys
  · rwa [mergeStep_of_mem hk]
  · rw [mergeStep_of_not_mem hk, Fields.keys, List.map_append]
    exact List.mem_append_left _ h

/-- Of the imports that are left out, those are missed in the end whose names were not there. -/
theorem foldl_mergeStep_besides (imports : Fields SchemaOrRef)
    {merging merging' : Fields SchemaOrRef × List Notice} (hlost : ∀ name ∈ lost, name ∈ names)
    (hkeys : ∀ name ∈ names, name ∉ lost → name ∈ merging.1.keys)
    (h : merging'.1 = besides lost merging.1) :
    ((besides names imports).foldl mergeStep merging').1 =
      besides lost (imports.foldl mergeStep merging).1 := by
  induction imports generalizing merging merging' with
  | nil => exact h
  | cons entry rest ih =>
    have hkeys' : ∀ name ∈ names, name ∉ lost → name ∈ (mergeStep merging entry).1.keys :=
      fun name hn hl => mem_keys_mergeStep (hkeys name hn hl) entry
    -- An entry that is left out counts only if its name is lost, and any other one is merged on
    -- both sides.
    by_cases hn : entry.1 ∈ names
    · have hskip : besides names (entry :: rest) = besides names rest :=
        List.filter_cons_of_neg (by simpa using hn)
      rw [hskip]
      refine ih hkeys' ?_
      by_cases hk : entry.1 ∈ merging.1.keys
      · rw [h, mergeStep_of_mem hk]
      · have hl : entry.1 ∈ lost := by
          by_contra hnot
          exact hk (hkeys _ hn hnot)
        rw [h, mergeStep_of_not_mem hk, besides, besides, List.filter_append,
          List.filter_cons_of_neg (by simpa using hl), List.filter_nil, List.append_nil]
    · have hkeep : besides names (entry :: rest) = entry :: besides names rest :=
        List.filter_cons_of_pos (by simpa using hn)
      have hl : entry.1 ∉ lost := mt (hlost _) hn
      have hmem : entry.1 ∈ merging'.1.keys ↔ entry.1 ∈ merging.1.keys := by
        rw [h]
        exact mem_keys_besides hl merging.1
      rw [hkeep]
      refine ih hkeys' ?_
      by_cases hk : entry.1 ∈ merging.1.keys
      · rw [mergeStep_of_mem (hmem.mpr hk), mergeStep_of_mem hk, h]
      · rw [mergeStep_of_not_mem (mt hmem.mp hk), mergeStep_of_not_mem hk, h, besides, besides,
          List.filter_append, List.filter_cons_of_pos (by simpa using hl), List.filter_nil]

theorem mergeImports_besides (names : List String) (imports schemas : Fields SchemaOrRef) :
    (mergeImports (besides names imports) schemas).1 =
      besides (names.filter (· ∉ schemas.keys)) (mergeImports imports schemas).1 := by
  refine @foldl_mergeStep_besides names _ imports (schemas, []) (schemas, []) (fun name hn => ?_)
    (fun name hn hl => ?_) ?_
  · exact List.mem_of_mem_filter hn
  · by_contra hk
    exact hl (List.mem_filter.mpr ⟨hn, by simpa using hk⟩)
  · refine (List.filter_eq_self.mpr fun entry he => ?_).symm
    have hk : entry.1 ∈ schemas.keys := List.mem_map_of_mem he
    simpa using Or.inr hk

/-- Of the imports, those with names of components do not count. -/
theorem mergeImports_congr {schemas : Fields SchemaOrRef}
    (h : besides schemas.keys imports = besides schemas.keys imports') :
    (mergeImports imports schemas).1 = (mergeImports imports' schemas).1 := by
  have hall : ∀ imports : Fields SchemaOrRef,
      (mergeImports (besides schemas.keys imports) schemas).1 =
        (mergeImports imports schemas).1 := by
    intro imports
    have hnone : schemas.keys.filter (· ∉ schemas.keys) = [] :=
      List.filter_eq_nil_iff.mpr fun name hn => by simpa using hn
    rw [mergeImports_besides, hnone]
    exact List.filter_eq_self.mpr fun _ _ => rfl
  rw [← hall imports, h, hall]

theorem components_merged (imports : Fields SchemaOrRef) (document : ApiDocument) :
    (merged imports document).components.getD .none =
      { document.components.getD .none with
        schemas := (mergeImports imports document.schemas).1 } := by
  rw [merged, ← schemas_eq_getD]
  cases imports with
  | nil => rfl
  | cons entry rest => rfl

theorem merged_congr (h : besides document.schemas.keys imports =
      besides document.schemas.keys imports') :
    merged imports document = merged imports' document := by
  cases hc : document.components with
  | none =>
    -- Without components there are no names to leave out.
    have hall : ∀ imports : Fields SchemaOrRef,
        besides document.schemas.keys imports = imports := by
      intro imports
      rw [ApiDocument.schemas, hc]
      exact List.filter_eq_self.mpr fun _ _ => rfl
    rw [hall, hall] at h
    rw [h]
  | some components =>
    have hmerged : ∀ imports : Fields SchemaOrRef, merged imports document =
        { document with components := some { components with
            schemas := (mergeImports imports document.schemas).1 } } := by
      intro imports
      rw [merged, ApiDocument.schemas, hc]
      split_ifs with hi
      · rw [List.isEmpty_iff.mp hi]
        change document = { document with components := some components }
        rw [← hc]
      · rfl
    rw [hmerged, hmerged, mergeImports_congr h]

/-- What is put in the place of references does not depend on the schemas. -/
theorem inlineComponents_merged (imports : Fields SchemaOrRef) (document : ApiDocument) :
    inlineComponents (merged imports document) =
      (inlineComponents document).map (merged imports) := by
  rw [merged]
  split_ifs with hi
  · have hid : merged imports = id := by
      funext other
      rw [merged, if_pos hi, id]
    rw [hid]
    cases inlineComponents document with
    | error cause => rfl
    | ok inlined => rfl
  · have hmerged : merged imports = fun document : ApiDocument => { document with
        components := some { document.components.getD .none with
          schemas := (mergeImports imports (document.components.getD .none).schemas).1 } } := by
      funext other
      rw [merged, if_neg hi]
    rw [hmerged]
    -- Putting in place looks at no schema, so it comes to the same before and after the merge.
    obtain ⟨openapi, info, paths, components⟩ := document
    cases paths with
    | none => rfl
    | some paths =>
      change (paths.mapValuesM (inlinePathItem (components.getD .none)) >>= _) =
        (paths.mapValuesM (inlinePathItem (components.getD .none)) >>= _).map _
      cases paths.mapValuesM (inlinePathItem (components.getD .none)) with
      | error cause => rfl
      | ok inlined => rfl

end Bundle

namespace Resolver

open Reference.Bundle

/-- The names of what a resolver has imported from that another one has imported from as well. -/
def sharedNames (used alone : Resolver) : List String :=
  (alone.imported.filter (· ∈ used.imported)).filterMap importedName?

/-- The shared names that are not those of components of a document. -/
def lostNames (used alone : Resolver) (document : ApiDocument) : List String :=
  (sharedNames used alone).filter (· ∉ document.schemas.keys)

theorem mem_sharedNames {used alone : Resolver} {name : String} :
    name ∈ sharedNames used alone ↔
      ∃ mark ∈ alone.imported, mark ∈ used.imported ∧ importedName? mark = some name := by
  rw [sharedNames, List.mem_filterMap]
  simp only [List.mem_filter, decide_eq_true_eq, and_assoc]

/-- All that a resolver has imported from has a name of its own. -/
def DistinctNames (resolver : Resolver) : Prop :=
  ∀ mark ∈ resolver.imported, ∀ other ∈ resolver.imported,
    importedName? mark = importedName? other → mark = other

/-- A document is another one but for the components of some names. -/
structure Without (names : List String) (document rest : ApiDocument) : Prop where
  openapi : rest.openapi = document.openapi
  info : rest.info = document.info
  paths : rest.paths = document.paths
  components : rest.components.getD .none =
    { document.components.getD .none with schemas := besides names document.schemas }

theorem Without.not_mem {names : List String} {document rest : ApiDocument}
    (h : Without names document rest) {name : String} (hn : name ∈ names) :
    name ∉ rest.schemas.keys := by
  rw [← schemas_eq_getD, h.components]
  intro hk
  obtain ⟨entry, he, rfl⟩ := List.mem_map.mp hk
  exact of_decide_eq_true (List.mem_filter.mp he).2 hn

variable {files : FileTree} {load : Path → Except LoadError Value} {folder : Path}
  {first second result : ApiDocument} {r : Except ResolveError Unit} {st st₀ again : Bundling}

/-! ### Apart from each other -/

/-- A document that comes to no file that an earlier one came to is resolved as by a fresh
resolver. -/
theorem resolve_again_of_apart
    (h₀ : (Resolver.fresh folder).Bundles load first r st₀) {r' : Except ResolveError Unit}
    (h : (Resolver.fresh folder).Bundles load second r' st)
    (hapart : ∀ mark ∈ st.resolver.imported, ∀ other ∈ st₀.resolver.imported,
      other.1 ≠ mark.1) :
    (st₀.resolver.resolve load second).result =
      ((Resolver.fresh folder).resolve load second).result := by
  have hfolder : st₀.resolver.folder = folder := h₀.grown.folder
  have hagain : st₀.resolver.Bundles load second r' (Bundle.recalling st₀.resolver st) :=
    Bundles.recalling (hfolder.symm ▸ h) fun mark hm => h₀.unknown (hapart mark hm)
  rw [(resolve_of_bundles hagain).1, (resolve_of_bundles h).1, hfolder]
  rfl

/-! ### What is imported again -/

/-- The components of a document that is resolved after another one are its own and the imports of
what the other one did not come to. -/
theorem mem_keys_resolve_again (hr : Remembers load ⟨st₀.resolver, [], []⟩)
    (hb : st₀.resolver.Bundles load second (.ok ()) st)
    (hi : inlineComponents (merged st.imports (second.mapReferences (Bundle.rewritten
      (documentOrigin st₀.resolver.folder)))) = .ok result) (name : String) :
    name ∈ result.schemas.keys ↔ name ∈ second.schemas.keys ∨
      ∃ mark ∈ st.resolver.imported, mark ∉ st₀.resolver.imported ∧
        importedName? mark = some name := by
  rw [schemas_of_inlineComponents hi, mem_keys_mergeImports, Fields.keys_mapValues]
  refine or_congr_right ⟨fun hn => ?_, ?_⟩
  · exact ((Visited.grown hb hr).names name hn).resolve_left List.not_mem_nil
  · rintro ⟨mark, hm, hnew, hname⟩
    obtain ⟨arrival, ha, hn⟩ := ((Visited.progress hb hr).1.done mark hm).resolve_left hnew
    rwa [Option.some.inj (ha.name.symm.trans hname)] at hn

/-- The references into files are replaced all the same. -/
theorem rewritten_of_resolve_again (hr : Remembers load ⟨st₀.resolver, [], []⟩)
    (hb : st₀.resolver.Bundles load second (.ok ()) st) {path : String}
    (hp : path ∈ second.references) (hparts : (parts path).1 ≠ "") :
    ∃ mark ∈ st.resolver.imported, ∃ name, importedName? mark = some name ∧
      Bundle.rewritten (documentOrigin st₀.resolver.folder) path = localRef name := by
  rcases (Visited.progress hb hr).2 path hp with hnone | ⟨file, name, hf, hn, hk⟩
  · exact absurd (parts_of_file?_eq_none hnone) hparts
  · exact ⟨_, hk, name, importName_eq_ok_iff.mp hn, rewritten_of_file hf hn⟩

/-! ### What is lost -/

/-- What a resolver remembers of a document that it has bundled. -/
theorem Bundles.complete
    (h : (Resolver.fresh folder).Bundles (loadValue files) first (.ok ()) st₀) :
    Complete (loadValue files) st₀.resolver where
  remembers := h.grown.remembers
  imported mark hm := by
    obtain ⟨arrival, ha, -⟩ := h.imported.1 mark hm
    exact ⟨arrival, ha.mono fun _ => id⟩
  read := by
    have hread : AllRead st₀ := Visited.allRead h nofun nofun
    exact hread

/-- After a document that it has bundled, a resolver bundles what a fresh one does. -/
theorem Bundles.alongside
    (h₀ : (Resolver.fresh folder).Bundles (loadValue files) first (.ok ()) st₀)
    (h : (Resolver.fresh folder).Bundles (loadValue files) second (.ok ()) st)
    {names : List String} (hn : SharedNames st₀.resolver st names) :
    ∃ again, st₀.resolver.Bundles (loadValue files) second (.ok ()) again ∧
      Alongside (loadValue files) st₀.resolver names st again := by
  have hfolder : st₀.resolver.folder = folder := h₀.grown.folder
  have hstart := Alongside.start h₀.complete names
  rw [hfolder] at hstart
  obtain ⟨again, hb, ha⟩ := Visited.alongside h₀.complete h hn hstart
  rw [← hfolder] at hb
  exact ⟨again, hb, ha⟩

/-- If no name is lost, nothing is different. -/
theorem resolve_again_of_lostNames_eq_nil
    (h₀ : (Resolver.fresh folder).Bundles (loadValue files) first (.ok ()) st₀)
    (h : (Resolver.fresh folder).Bundles (loadValue files) second (.ok ()) st)
    (hl : lostNames st₀.resolver st.resolver second = []) :
    (st₀.resolver.resolve (loadValue files) second).result =
      ((Resolver.fresh folder).resolve (loadValue files) second).result := by
  have hfolder : st₀.resolver.folder = folder := h₀.grown.folder
  have hshared : SharedNames st₀.resolver st second.schemas.keys := by
    intro mark hm hu name hn
    have hkey := List.filter_eq_nil_iff.mp hl name (mem_sharedNames.mpr ⟨mark, hm, hu, hn⟩)
    simpa using hkey
  obtain ⟨again, hb, ha⟩ := h₀.alongside h hshared
  rw [(resolve_of_bundles hb).1, (resolve_of_bundles h).1, hfolder]
  refine congrArg inlineComponents (merged_congr ?_)
  rw [ApiDocument.schemas_mapReferences, Fields.keys_mapValues]
  exact ha.imports

/-- Where all names are distinct, the imports of the shared ones are left out. -/
theorem imports_of_alongside (hd : DistinctNames st.resolver)
    (ha : Alongside load st₀.resolver (sharedNames st₀.resolver st.resolver) st again)
    (hg : Grown load ⟨st₀.resolver, [], []⟩ again) :
    again.imports = besides (sharedNames st₀.resolver st.resolver) st.imports := by
  rw [← ha.imports]
  refine (List.filter_eq_self.mpr fun entry he => ?_).symm
  rw [decide_eq_true_eq, mem_sharedNames]
  rintro ⟨other, ho, hused, hname⟩
  obtain ⟨mark, hm, hnew, hname'⟩ :=
    (hg.names _ (Fields.mem_keys_of_mem he)).resolve_left List.not_mem_nil
  have hmark : mark ∈ st.resolver.imported := ((ha.marks mark).mp hm).resolve_right hnew
  obtain rfl := hd mark hmark other ho (hname'.trans hname.symm)
  exact hnew hused

theorem without_merged {imports : Fields SchemaOrRef} {names : List String}
    (document : ApiDocument) : Without (names.filter (· ∉ document.schemas.keys))
      (merged imports document) (merged (besides names imports) document) where
  openapi := by rw [openapi_merged, openapi_merged]
  info := by rw [info_merged, info_merged]
  paths := by rw [paths_merged, paths_merged]
  components := by
    rw [components_merged, components_merged, schemas_merged, mergeImports_besides]

/-- Where all names are distinct, the components of the lost names are missing, and nothing else is
different. -/
theorem without_of_resolve_again
    (h₀ : (Resolver.fresh folder).Bundles (loadValue files) first (.ok ()) st₀)
    (h : (Resolver.fresh folder).Bundles (loadValue files) second (.ok ()) st)
    (hd : DistinctNames st.resolver)
    (hr : ((Resolver.fresh folder).resolve (loadValue files) second).result = .ok result) :
    ∃ rest, (st₀.resolver.resolve (loadValue files) second).result = .ok rest ∧
      Without (lostNames st₀.resolver st.resolver second) result rest := by
  have hfolder : st₀.resolver.folder = folder := h₀.grown.folder
  obtain ⟨again, hb, ha⟩ := h₀.alongside h fun mark hm hu name hn =>
    mem_sharedNames.mpr ⟨mark, hm, hu, hn⟩
  -- What the second call imports is what a fresh one does, but for the names that are shared.
  have himports := imports_of_alongside hd ha (Visited.grown hb h₀.grown.remembers)
  rw [(resolve_of_bundles h).1, finished] at hr
  change inlineComponents (merged st.imports _) = _ at hr
  rw [inlineComponents_merged] at hr
  obtain ⟨inlined, hin, rfl⟩ := map_eq_ok.mp hr
  refine ⟨merged again.imports inlined, ?_, ?_⟩
  · rw [(resolve_of_bundles hb).1, finished, hfolder]
    change inlineComponents (merged again.imports _) = _
    rw [inlineComponents_merged]
    exact map_eq_ok.mpr ⟨inlined, hin, rfl⟩
  · have hkeys : inlined.schemas.keys = second.schemas.keys := by
      rw [ApiDocument.schemas, components_inlineComponents hin, ← ApiDocument.schemas,
        ApiDocument.schemas_mapReferences, Fields.keys_mapValues]
    rw [himports, lostNames, ← hkeys]
    exact without_merged inlined

/-- A lost name is that of a component of what a fresh resolver makes of the document. -/
theorem mem_keys_of_mem_lostNames {used : Resolver} {name : String}
    (h : (Resolver.fresh folder).Bundles load second (.ok ()) st)
    (hr : ((Resolver.fresh folder).resolve load second).result = .ok result)
    (hn : name ∈ lostNames used st.resolver second) : name ∈ result.schemas.keys := by
  obtain ⟨mark, hm, -, hname⟩ := mem_sharedNames.mp (List.mem_of_mem_filter hn)
  obtain ⟨arrival, ha, hkey⟩ := h.imported.1 mark hm
  rw [(resolve_of_bundles h).1] at hr
  rw [Option.some.inj (ha.name.symm.trans hname)] at hkey
  exact mem_keys_of_mem_imports hr hkey

/-! ### Using a resolver again -/

/-- A resolver that has been used for a document, with an error or without one, is used for another
one.  If that comes to no file that the first one came to, nothing is different.  If it is resolved,
all its references into files are replaced, but its components are its own and the imports of what
the first one did not come to.  If both can be bundled on their own, nothing is different as long as
no name is lost; and where all names are distinct, the components of the lost names are missing and
all else is the same. -/
theorem resolve_again (files : FileTree) (folder : Path) (first second : ApiDocument) :
    let fresh := Resolver.fresh folder
    let earlier := (fresh.resolve (loadValue files) first).resolver
    let alone := fresh.resolve (loadValue files) second
    let again := earlier.resolve (loadValue files) second
    ((∀ mark ∈ alone.resolver.imported, ∀ other ∈ earlier.imported, other.1 ≠ mark.1) →
      again.result = alone.result) ∧
    (∀ result, again.result = .ok result →
      (∀ path ∈ second.references, (parts path).1 ≠ "" →
        ∃ mark ∈ again.resolver.imported, ∃ name, importedName? mark = some name ∧
          Bundle.rewritten (documentOrigin folder) path = localRef name) ∧
      ∀ name, name ∈ result.schemas.keys ↔ name ∈ second.schemas.keys ∨
        ∃ mark ∈ again.resolver.imported, mark ∉ earlier.imported ∧
          importedName? mark = some name) ∧
    (fresh.BundlesSchemas (loadValue files) first → fresh.BundlesSchemas (loadValue files) second →
      (lostNames earlier alone.resolver second = [] → again.result = alone.result) ∧
      (DistinctNames alone.resolver → ∀ result, alone.result = .ok result →
        ∃ rest, again.result = .ok rest ∧
          Without (lostNames earlier alone.resolver second) result rest ∧
          ∀ name ∈ lostNames earlier alone.resolver second,
            name ∈ result.schemas.keys ∧ name ∉ rest.schemas.keys)) := by
  intro fresh earlier alone again
  obtain ⟨r₀, st₀, h₀⟩ := exists_bundles files folder first
  obtain ⟨r, st, h⟩ := exists_bundles files folder second
  have hearlier : earlier = st₀.resolver := (resolve_of_bundles h₀).2
  have halone : alone.resolver = st.resolver := (resolve_of_bundles h).2
  have hfolder : st₀.resolver.folder = folder := h₀.grown.folder
  simp only [again]
  rw [hearlier, halone]
  refine ⟨resolve_again_of_apart h₀ h, fun result hresult => ?_, fun hfirst hsecond => ?_⟩
  · obtain ⟨st', hb, hresolver, hi⟩ := exists_bundles_of_resolve hresult
    have hr := h₀.grown.remembers
    rw [hresolver]
    refine ⟨fun path hp hparts => ?_, mem_keys_resolve_again hr hb hi⟩
    obtain ⟨mark, hm, name, hname, heq⟩ := rewritten_of_resolve_again hr hb hp hparts
    exact ⟨mark, hm, name, hname, hfolder ▸ heq⟩
  · -- Both runs have one outcome, so it is the one without an error.
    obtain ⟨st₀', h₀'⟩ := bundlesSchemas_iff.mp hfirst
    obtain ⟨st', h'⟩ := bundlesSchemas_iff.mp hsecond
    obtain ⟨-, rfl⟩ := Visited.unique h₀ h₀'
    obtain ⟨-, rfl⟩ := Visited.unique h h'
    refine ⟨resolve_again_of_lostNames_eq_nil h₀' h', fun hd result hresult => ?_⟩
    obtain ⟨rest, hrest, hwithout⟩ := without_of_resolve_again h₀' h' hd hresult
    exact ⟨rest, hrest, hwithout, fun name hn =>
      ⟨mem_keys_of_mem_lostNames h' hresult hn, hwithout.not_mem hn⟩⟩

/-! ### Pets and their keeper -/

theorem bundlesSchemas_of_resolve {resolver : Resolver}
    (h : (resolver.resolve load second).result = .ok result) :
    resolver.BundlesSchemas load second := by
  obtain ⟨st, hb, -⟩ := exists_bundles_of_resolve h
  exact bundlesSchemas_iff.mpr ⟨st, hb⟩

/-- What a resolver tells of a document if it is used for it right after another one. -/
theorem resolve_twice_of_resolveWithin {resolver : Resolver} {limit : Nat}
    {p : Except ResolveError ApiDocument → Except ResolveError ApiDocument → Bool}
    (h : ((resolver.resolveWithin load first limit).bind fun r =>
      (r.resolver.resolveWithin load second limit).map fun r' => p r.result r'.result) =
        some true) :
    p (resolver.resolve load first).result
      ((resolver.resolve load first).resolver.resolve load second).result = true := by
  obtain ⟨resolved, hw, h⟩ := Option.bind_eq_some_iff.mp h
  obtain ⟨resolved', hw', hp⟩ := Option.map_eq_some_iff.mp h
  rw [(resolve_of_resolveWithin hw).1, (resolve_of_resolveWithin hw).2,
    (resolve_of_resolveWithin hw').1, hp]

/-- A folder with the descriptions of a pet and of its keeper. -/
def keeperTree : FileTree :=
  ⟨("Keeper.yml", .file (.text "type: object\n")) :: petTree.entries⟩

/-- A document whose components are references to files. -/
def listing (components : List (String × String)) : ApiDocument where
  openapi := "3.0.3"
  info := ⟨"Pets", none, "1"⟩
  paths := none
  components := some { Components.none with
    schemas := components.map fun (name, path) => (name, .ref path) }

/-- An animal is a pet.  After it, a person and a component named like the pet are resolved as on
their own, but an animal and a person are left without the pet. -/
theorem resolve_again_listing :
    let load := loadValue keeperTree
    let fresh := Resolver.fresh .here
    let earlier := (fresh.resolve load (listing [("Animal", "Pet.yml")])).resolver
    let person := listing [("Person", "Keeper.yml")]
    let pet := listing [("Pet", "Pet.yml")]
    let both := listing [("Animal", "Pet.yml"), ("Person", "Keeper.yml")]
    (earlier.resolve load person).result = (fresh.resolve load person).result ∧
    (earlier.resolve load pet).result = (fresh.resolve load pet).result ∧
    ∃ result rest, (fresh.resolve load both).result = .ok result ∧
      (earlier.resolve load both).result = .ok rest ∧ Without ["Pet"] result rest ∧
      "Pet" ∈ result.schemas.keys ∧ "Pet" ∉ rest.schemas.keys ∧
      ∃ mark ∈ (earlier.resolve load both).resolver.imported, ∃ name,
        importedName? mark = some name ∧
          Bundle.rewritten (documentOrigin .here) "Pet.yml" = localRef name := by
  intro load fresh earlier person pet both
  obtain ⟨⟨first, hfirst⟩, hmarks⟩ := @exists_resolve_and_imported fresh load
    (listing [("Animal", "Pet.yml")]) 2 [("./Pet.yml", "")] (by decide +kernel)
  obtain ⟨-, hperson⟩ := @exists_resolve_and_imported fresh load person 2
    [("./Keeper.yml", "")] (by decide +kernel)
  obtain ⟨⟨other, hother⟩, hpet⟩ := @exists_resolve_and_imported fresh load pet 2
    [("./Pet.yml", "")] (by decide +kernel)
  obtain ⟨⟨result, hresult⟩, hboth⟩ := @exists_resolve_and_imported fresh load both 2
    [("./Keeper.yml", ""), ("./Pet.yml", "")] (by decide +kernel)
  have hbundled := bundlesSchemas_of_resolve hfirst
  refine ⟨(resolve_again keeperTree .here (listing [("Animal", "Pet.yml")]) person).1 ?_,
    ((resolve_again keeperTree .here (listing [("Animal", "Pet.yml")]) pet).2.2 hbundled
      (bundlesSchemas_of_resolve hother)).1 ?_, ?_⟩
  · rw [hperson, hmarks]
    decide +kernel
  · rw [lostNames, sharedNames, hpet, hmarks]
    decide +kernel
  · obtain ⟨-, hresolved, hwithout⟩ :=
      resolve_again keeperTree .here (listing [("Animal", "Pet.yml")]) both
    have hdistinct : DistinctNames (fresh.resolve load both).resolver := by
      rw [DistinctNames, hboth]
      decide +kernel
    have hlost : lostNames earlier (fresh.resolve load both).resolver both = ["Pet"] := by
      rw [lostNames, sharedNames, hboth, hmarks]
      decide +kernel
    obtain ⟨rest, hrest, hw, hmissing⟩ :=
      (hwithout hbundled (bundlesSchemas_of_resolve hresult)).2 hdistinct result hresult
    rw [hlost] at hw hmissing
    obtain ⟨hin, hout⟩ := hmissing "Pet" List.mem_cons_self
    exact ⟨result, rest, hresult, hrest, hw, hin, hout,
      (hresolved rest hrest).1 "Pet.yml" List.mem_cons_self (by decide +kernel)⟩

/-- An animal that is resolved a second time is left with a reference to a pet that is missing.
Where there is no file of the pet, this is an error the first time only. -/
theorem resolve_pet_twice :
    let fresh := Resolver.fresh .here
    let present := fresh.resolve (loadValue petTree) (petDocument "Animal")
    let absent := fresh.resolve (loadValue ⟨[]⟩) (petDocument "Animal")
    (∃ result rest, present.result = .ok result ∧
      (present.resolver.resolve (loadValue petTree) (petDocument "Animal")).result = .ok rest ∧
      result.schemas.keys = ["Animal", "Pet"] ∧ rest.schemas.keys = ["Animal"] ∧
      rest.references = [localRef "Pet"]) ∧
    ∃ cause rest, absent.result = .error cause ∧
      (absent.resolver.resolve (loadValue ⟨[]⟩) (petDocument "Animal")).result = .ok rest ∧
      rest.schemas.keys = ["Animal"] ∧ rest.references = [localRef "Pet"] := by
  intro fresh present absent
  constructor
  · have h := @resolve_twice_of_resolveWithin (loadValue petTree) (petDocument "Animal")
      (petDocument "Animal") fresh 2 (fun first again =>
        first.toOption.map (fun result => result.schemas.keys) = some ["Animal", "Pet"] ∧
        again.toOption.map (fun rest => (rest.schemas.keys, rest.references)) =
          some (["Animal"], [localRef "Pet"])) (by decide +kernel)
    obtain ⟨hfirst, hagain⟩ := of_decide_eq_true h
    obtain ⟨result, hresult, hkeys⟩ := Option.map_eq_some_iff.mp hfirst
    obtain ⟨rest, hrest, heq⟩ := Option.map_eq_some_iff.mp hagain
    obtain ⟨hkeys', hrefs⟩ := Prod.mk.inj heq
    exact ⟨result, rest, eq_ok_of_toOption hresult, eq_ok_of_toOption hrest, hkeys, hkeys', hrefs⟩
  · -- Without the file the first call fails, and the mark that it leaves hides this from the
    -- second.
    have h := @resolve_twice_of_resolveWithin (loadValue ⟨[]⟩) (petDocument "Animal")
      (petDocument "Animal") fresh 2 (fun first again => first.isOk = false ∧
        again.toOption.map (fun rest => (rest.schemas.keys, rest.references)) =
          some (["Animal"], [localRef "Pet"])) (by decide +kernel)
    obtain ⟨hfirst, hagain⟩ := of_decide_eq_true h
    obtain ⟨rest, hrest, heq⟩ := Option.map_eq_some_iff.mp hagain
    obtain ⟨hkeys, hrefs⟩ := Prod.mk.inj heq
    cases hcause : absent.result with
    | error cause => exact ⟨cause, rest, rfl, eq_ok_of_toOption hrest, hkeys, hrefs⟩
    | ok result =>
      rw [hcause] at hfirst
      exact absurd hfirst nofun

end Resolver

end FunctionForge.Reference
