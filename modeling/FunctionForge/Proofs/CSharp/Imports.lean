import FunctionForge.CSharp.ModelSource
import FunctionForge.Proofs.CSharp.ModelFiles
import FunctionForge.Proofs.Firsts
import FunctionForge.Proofs.Model.Interfaces
import FunctionForge.Proofs.Text.Cut
import FunctionForge.Proofs.Text.Ends
import Mathlib.Data.List.Induction

/-!
# What a class needs beside itself

A class needs namespaces for its collections and for its tables of values, and a converter for its
dates.  The capabilities of a class say so exactly (`Capable`), since they are gathered from all of
its properties.  What its file imports is read off the lines at the front of the file (`importsOf`,
`importsOfFile_modelFile`): the namespaces of every class, then each namespace once that is needed
or that the target wants (`importsFor_objectImports`).  The converter is written once behind the
files of the models, if one of them has a date (`modelFiles_of_capable`).
-/

namespace FunctionForge.CSharp

open Model (Capability Entity ObjectModel Options Property resolveModels resolveObject)

/-! ### Merging imports -/

/-- Adding names one by one keeps the first of each. -/
theorem addImports_nil_eq_firsts (names : List String) : addImports [] names = firsts id names := by
  induction names using List.reverseRecOn with
  | nil => rfl
  | append_singleton before name ih =>
    unfold addImports at ih ⊢
    rw [List.foldl_append, List.foldl_cons, List.foldl_nil, ih, firsts_append]
    have hmem : (firsts id before).contains name = true ↔ name ∈ before.map id := by
      rw [List.contains_iff_mem, ← mem_map_firsts_iff, List.map_id]
    -- A name that has come before is dropped on both sides, and a new one is kept.
    by_cases hm : name ∈ before.map id
    · have hnone : ((firsts id [name]).filter fun other => id other ∉ before.map id) = [] := by
        simpa [firsts_cons] using hm
      rw [if_pos (hmem.mpr hm), hnone, List.append_nil]
    · have hone : ((firsts id [name]).filter fun other => id other ∉ before.map id) = [name] := by
        simpa [firsts_cons] using hm
      rw [if_neg (mt hmem.mp hm), hone]

/-- Lists of imports are merged by keeping the first of each name. -/
theorem mergeImports_eq_firsts (lists : List (List String)) :
    mergeImports lists = firsts id lists.flatten := by
  rw [← addImports_nil_eq_firsts, mergeImports]
  unfold addImports
  rw [List.foldl_flatten]

/-- Merging loses no name and adds none. -/
theorem mem_mergeImports_iff {lists : List (List String)} {name : String} :
    name ∈ mergeImports lists ↔ ∃ names ∈ lists, name ∈ names := by
  have hfirsts : name ∈ (firsts id lists.flatten).map id ↔ name ∈ lists.flatten.map id :=
    mem_map_firsts_iff
  rwa [List.map_id, List.map_id, ← mergeImports_eq_firsts, List.mem_flatten] at hfirsts

theorem nodup_mergeImports (lists : List (List String)) : (mergeImports lists).Nodup := by
  have hnodup : ((firsts id lists.flatten).map id).Nodup := nodup_map_firsts lists.flatten
  rwa [List.map_id, ← mergeImports_eq_firsts] at hnodup

/-! ### Capabilities -/

/-- A property is a list or a map. -/
def IsCollection (property : Property) : Prop :=
  property.isList = true ∨ property.typeRef.isMap = true

/-- The capabilities of a class say what its properties need. -/
structure Capable (model : ObjectModel) : Prop where
  collections : .collections ∈ model.capabilities ↔
    ∃ property ∈ model.properties, IsCollection property
  immutable : .immutable ∈ model.capabilities ↔
    ∃ property ∈ model.properties, property.enumTable.isSome = true
  dateConverter : .dateConverter ∈ model.capabilities ↔
    ∃ property ∈ model.properties, property.isDate = true

theorem mem_ofProperties_iff {properties : List Property} {capability : Capability} :
    capability ∈ Capability.ofProperties properties ↔
      ∃ property ∈ properties, capability.neededBy property = true := by
  have hall : capability ∈ Capability.all := by cases capability <;> decide
  rw [Capability.ofProperties, List.mem_filter, and_iff_right hall, List.any_eq_true]

/-- Capabilities that are gathered from the properties say what the properties need. -/
theorem capable_of_eq {model : ObjectModel}
    (h : model.capabilities = Capability.ofProperties model.properties) : Capable model where
  collections := by
    rw [h, mem_ofProperties_iff]
    simp only [Capability.neededBy, Bool.or_eq_true, IsCollection]
  immutable := by
    rw [h, mem_ofProperties_iff]
    simp only [Capability.neededBy]
  dateConverter := by
    rw [h, mem_ofProperties_iff]
    simp only [Capability.neededBy]

/-- The capabilities of a class are gathered from all of its properties. -/
theorem capabilities_of_resolveObject {known : KnownTypes} {rawName : String}
    {schema : Document.Schema} {model : ObjectModel}
    (h : resolveObject known rawName schema = .ok model) :
    model.capabilities = Capability.ofProperties model.properties := by
  obtain ⟨inherited, properties, -, -, rfl⟩ := Model.resolveObject_eq_ok_iff.mp h
  rfl

/-- Linking a class to its interfaces leaves its properties and its capabilities as they are. -/
theorem capable_of_item {schemas : Fields Document.SchemaOrRef} {options : Options}
    {model : ObjectModel} (h : .object model ∈ (resolveModels schemas options).models.items) :
    Capable model := by
  obtain ⟨key, schema, entity, entities, -, hr, hlink⟩ := Model.exists_linked_of_item h
  cases entity with
  | interface other => exact absurd hlink nofun
  | object made =>
    have hmade := capabilities_of_resolveObject (Model.resolveEntity_eq_object_iff.mp hr).2
    obtain rfl := Entity.object.inj hlink
    exact capable_of_eq hmade

/-! ### Imports of a class -/

/-- The namespace that a line imports, if it is a line that imports one. -/
def importOf? (line : String) : Option String :=
  (Text.dropLead? "using " line).map fun rest => String.ofList rest.toList.dropLast

/-- The namespaces that the first lines of a source with imports import. -/
def importsOf (source : Source) : List String :=
  ((source.dropWhile fun line => (importOf? line).isNone).takeWhile fun line =>
    (importOf? line).isSome).filterMap importOf?

/-- The namespaces that every class imports. -/
def classImports (target : ModelTarget) : List String :=
  ["System", "Newtonsoft.Json"] ++
    if edition target.version .model = .base then ["Newtonsoft.Json.Linq"] else []

theorem importOf?_using (name : String) : importOf? ("using " ++ name ++ ";") = some name := by
  have hdrop : Text.dropLead? "using " ("using " ++ name ++ ";") = some (name ++ ";") :=
    Text.dropLead?_eq_some_iff.mpr String.append_assoc
  have hmark : ";".toList = [';'] := by decide
  rw [importOf?, hdrop, Option.map_some, String.toList_append, hmark, List.dropLast_concat,
    String.ofList_toList]

/-- A line that does not start as a directive does imports nothing. -/
theorem importOf?_of_start {line : String} (h : Text.start 1 line ≠ ['u']) :
    importOf? line = none := by
  rw [importOf?, Option.map_eq_none_iff, Option.eq_none_iff_forall_ne_some]
  intro rest hdrop
  rw [Text.dropLead?_eq_some_iff.mp hdrop, Text.start_append (by decide)] at h
  exact h (by decide)

/-- The imports are read off a source in which nothing before them is an import. -/
theorem importsOf_append {front : Source} (hfront : ∀ line ∈ front, importOf? line = none)
    {names : List String} (hnames : names ≠ []) (back : Source) :
    importsOf (front ++ (usings names ++ "" :: back)) = names := by
  have hskip : ∀ line ∈ front, (importOf? line).isNone = true := by
    intro line hm
    rw [hfront line hm]
    rfl
  have htake : ∀ line ∈ usings names, (importOf? line).isSome = true := by
    intro line hm
    obtain ⟨name, -, rfl⟩ := List.mem_map.mp hm
    rw [importOf?_using]
    rfl
  have hread : (usings names).filterMap importOf? = names := by
    rw [usings, List.filterMap_map]
    have hsome : importOf? ∘ (fun name => "using " ++ name ++ ";") = some :=
      funext fun name => importOf?_using name
    rw [hsome, List.filterMap_some]
  have hdrop : (usings names ++ "" :: back).dropWhile (fun line => (importOf? line).isNone) =
      usings names ++ "" :: back := by
    cases names with
    | nil => exact absurd rfl hnames
    | cons first rest =>
      rw [usings, List.map_cons, List.cons_append,
        List.dropWhile_cons_of_neg (by simp [importOf?_using])]
  -- The blank line is no import, so that nothing behind it is read.
  have hblank : (importOf? "").isSome = false := by decide
  rw [importsOf, List.dropWhile_append_of_pos hskip, hdrop, List.takeWhile_append_of_pos htake,
    List.takeWhile_cons_of_neg (by simp [hblank]), List.append_nil, hread]

theorem usings_classImports (target : ModelTarget) :
    usings (classImports target) = ["using System;", "using Newtonsoft.Json;"] ++
      if edition target.version .model = .base then ["using Newtonsoft.Json.Linq;"] else [] := by
  rw [classImports]
  split_ifs
  · decide
  · decide

/-- A source starts with a comment, and a blank line ends its imports.  The namespace of the class
comes behind that line. -/
theorem exists_objectSource_eq (model : ObjectModel) (target : ModelTarget) :
    ∃ back, back ≠ [] ∧ objectSource model target = header (fromSchema model.rawName) ++
      (usings (classImports target ++ objectImports model target) ++ "" :: back) := by
  have husings : usings (classImports target ++ objectImports model target) =
      usings (classImports target) ++ usings (objectImports model target) := List.map_append
  rw [husings, usings_classImports, objectSource]
  simp only [List.append_assoc, List.cons_append, List.nil_append]
  exact ⟨_, List.cons_ne_nil _ _, rfl⟩

/-- The lines at the head of a file import nothing. -/
theorem importOf?_header (origin : String) : ∀ line ∈ header origin, importOf? line = none := by
  have horigin : Text.start 1 ("//     Generated by oafn" ++ origin ++
      ". Changes will be lost on the next run.") = ['/'] := by
    rw [String.append_assoc, Text.start_append (by decide)]
    decide
  -- The origin is any text, so only the start of its line can be computed.
  intro line hm
  refine importOf?_of_start ?_
  simp only [header, List.mem_cons, List.not_mem_nil, or_false] at hm
  rcases hm with rfl | rfl | rfl
  · decide
  · rw [horigin]
    decide
  · decide

/-- What a class imports is read off its lines: what every class needs, and what this one needs. -/
theorem importsOf_objectSource (model : ObjectModel) (target : ModelTarget) :
    importsOf (objectSource model target) = classImports target ++ objectImports model target := by
  obtain ⟨back, -, hsource⟩ := exists_objectSource_eq model target
  rw [hsource]
  refine importsOf_append (importOf?_header _) ?_ back
  exact List.append_ne_nil_of_left_ne_nil (List.cons_ne_nil _ _) _

/-- What a class imports besides what every class does. -/
structure ImportsFor (model : ObjectModel) (target : ModelTarget) (imports : List String) :
    Prop where
  nodup : imports.Nodup
  wanted : target.imports ⊆ imports
  generic : "System.Collections.Generic" ∈ imports ↔
    (∃ property ∈ model.properties, IsCollection property) ∨
      "System.Collections.Generic" ∈ target.imports
  immutable : "System.Collections.Immutable" ∈ imports ↔
    (∃ property ∈ model.properties, property.enumTable.isSome = true) ∨
      "System.Collections.Immutable" ∈ target.imports
  linq : "System.Linq" ∈ imports ↔
    (∃ property ∈ model.properties,
        IsCollection property ∨ property.enumTable.isSome = true) ∨
      "System.Linq" ∈ target.imports
  others : ∀ name ∈ imports, name ∈ target.imports ∨
    name ∈ ["System.Collections.Generic", "System.Collections.Immutable", "System.Linq"]

/-- A class imports what one of its capabilities asks for, and what the target wants. -/
theorem mem_objectImports_iff {model : ObjectModel} {target : ModelTarget} {name : String} :
    name ∈ objectImports model target ↔
      (∃ capability ∈ model.capabilities, name ∈ capabilityImports capability) ∨
        name ∈ target.imports := by
  rw [objectImports, mem_mergeImports_iff]
  simp only [List.mem_cons, List.not_mem_nil, or_false, exists_eq_or_imp, exists_eq_left,
    mem_mergeImports_iff, List.mem_map, exists_exists_and_eq_and]

theorem exists_mem_capabilityImports_iff {capabilities : List Capability} {name : String} :
    (∃ capability ∈ capabilities, name ∈ capabilityImports capability) ↔
      .collections ∈ capabilities ∧ name ∈ ["System.Collections.Generic", "System.Linq"] ∨
        .immutable ∈ capabilities ∧ name ∈ ["System.Collections.Immutable", "System.Linq"] := by
  constructor
  · rintro ⟨capability, hm, hname⟩
    cases capability with
    | collections => exact Or.inl ⟨hm, hname⟩
    | immutable => exact Or.inr ⟨hm, hname⟩
    | dateConverter => exact absurd hname List.not_mem_nil
  · rintro (⟨hm, hname⟩ | ⟨hm, hname⟩)
    · exact ⟨_, hm, hname⟩
    · exact ⟨_, hm, hname⟩

/-- A class imports each namespace that it needs once, and no other but those that are wanted. -/
theorem importsFor_objectImports {model : ObjectModel} (h : Capable model) (target : ModelTarget) :
    ImportsFor model target (objectImports model target) where
  nodup := nodup_mergeImports _
  wanted := fun name hm => mem_objectImports_iff.mpr (Or.inr hm)
  generic := by
    rw [mem_objectImports_iff, exists_mem_capabilityImports_iff, h.collections]
    simp
  immutable := by
    rw [mem_objectImports_iff, exists_mem_capabilityImports_iff, h.immutable]
    simp
  linq := by
    -- Collections and tables are apart among the capabilities, so the condition is taken apart
    -- alike.
    have heither : (∃ property ∈ model.properties,
          IsCollection property ∨ property.enumTable.isSome = true) ↔
        (∃ property ∈ model.properties, IsCollection property) ∨
          ∃ property ∈ model.properties, property.enumTable.isSome = true := by
      simp only [and_or_left, exists_or]
    rw [mem_objectImports_iff, exists_mem_capabilityImports_iff, h.collections, h.immutable,
      heither]
    simp
  others := by
    intro name hm
    rcases mem_objectImports_iff.mp hm with hneeded | hwanted
    · refine Or.inr ?_
      rw [exists_mem_capabilityImports_iff] at hneeded
      simp only [List.mem_cons, List.not_mem_nil, or_false] at hneeded ⊢
      tauto
    · exact Or.inl hwanted

/-! ### Files of models -/

/-- One of the classes among some models has a date. -/
def HasDates (entities : List Entity) : Prop :=
  ∃ model, .object model ∈ entities ∧ ∃ property ∈ model.properties, property.isDate = true

/-- The converter is asked for exactly if one of the classes has a date. -/
theorem any_needsDateConverter_iff {entities : List Entity}
    (h : ∀ model, .object model ∈ entities → Capable model) :
    entities.any needsDateConverter = true ↔ HasDates entities := by
  rw [List.any_eq_true]
  constructor
  · rintro ⟨entity, hm, hneeds⟩
    cases entity with
    | interface interface => exact (Bool.false_ne_true hneeds).elim
    | object model =>
      have hcapability : .dateConverter ∈ model.capabilities := List.contains_iff_mem.mp hneeds
      exact ⟨model, hm, (h model hm).dateConverter.mp hcapability⟩
  · rintro ⟨model, hm, hdate⟩
    have hcapability := (h model hm).dateConverter.mpr hdate
    exact ⟨.object model, hm, List.contains_iff_mem.mpr hcapability⟩

/-- The namespaces that a file imports, read off its lines. -/
def importsOfFile (file : GeneratedFile) : List String :=
  importsOf (Text.cut '\n' file.content)

/-- What a class and its target put into the lines up to the imports is on a single line each. -/
def IsSingleLined (model : ObjectModel) (target : ModelTarget) : Prop :=
  '\n' ∉ model.rawName.toList ∧ ∀ name ∈ target.imports, '\n' ∉ name.toList

/-- A file of a class holds the lines of the class. -/
theorem content_modelFile (model : ObjectModel) (target : ModelTarget) :
    (modelFile target (.object model)).content = (objectSource model target).text := rfl

theorem not_mem_of_mem_header {origin line : String} (h : '\n' ∉ origin.toList)
    (hline : line ∈ header origin) : '\n' ∉ line.toList := by
  simp only [header, List.mem_cons, List.not_mem_nil, or_false] at hline
  rcases hline with rfl | rfl | rfl
  · decide
  · rw [String.toList_append, String.toList_append, List.mem_append, List.mem_append]
    rintro ((hm | hm) | hm)
    · exact absurd hm (by decide)
    · exact h hm
    · exact absurd hm (by decide)
  · decide

/-- Directives are single lines if the names in them are. -/
theorem not_mem_of_mem_usings {names : List String} (h : ∀ name ∈ names, '\n' ∉ name.toList)
    {line : String} (hline : line ∈ usings names) : '\n' ∉ line.toList := by
  obtain ⟨name, hname, rfl⟩ := List.mem_map.mp hline
  rw [String.toList_append, String.toList_append, List.mem_append, List.mem_append]
  rintro ((hm | hm) | hm)
  · exact absurd hm (by decide)
  · exact h name hname hm
  · exact absurd hm (by decide)

/-- Every imported namespace is on a single line if those are that the target wants. -/
theorem not_mem_of_mem_imports {model : ObjectModel} {target : ModelTarget}
    (h : ∀ name ∈ target.imports, '\n' ∉ name.toList)
    (hfor : ImportsFor model target (objectImports model target)) :
    ∀ name ∈ classImports target ++ objectImports model target, '\n' ∉ name.toList := by
  intro name hm
  rcases List.mem_append.mp hm with hclass | hobject
  · -- What every class imports is one of three known names.
    have hnames : name ∈ ["System", "Newtonsoft.Json", "Newtonsoft.Json.Linq"] := by
      unfold classImports at hclass
      split_ifs at hclass
      · exact hclass
      · exact List.mem_append_left ["Newtonsoft.Json.Linq"] hclass
    simp only [List.mem_cons, List.not_mem_nil, or_false] at hnames
    rcases hnames with rfl | rfl | rfl <;> decide
  · rcases hfor.others name hobject with hwanted | hneeded
    · exact h name hwanted
    · simp only [List.mem_cons, List.not_mem_nil, or_false] at hneeded
      rcases hneeded with rfl | rfl | rfl <;> decide

/-- The lines of a file up to its imports are those of its source, unless what they say breaks them.
So its imports can be read off the text. -/
theorem importsOfFile_modelFile {model : ObjectModel} {target : ModelTarget}
    (h : IsSingleLined model target)
    (hfor : ImportsFor model target (objectImports model target)) :
    importsOfFile (modelFile target (.object model)) =
      classImports target ++ objectImports model target := by
  obtain ⟨back, hback, hsource⟩ := exists_objectSource_eq model target
  have horigin : '\n' ∉ (fromSchema model.rawName).toList := by
    rw [fromSchema, String.toList_append, String.toList_append, List.mem_append, List.mem_append]
    rintro ((hm | hm) | hm)
    · exact absurd hm (by decide)
    · exact h.1 hm
    · exact absurd hm (by decide)
  have hlines : ∀ line ∈ header (fromSchema model.rawName) ++
      usings (classImports target ++ objectImports model target) ++ [""],
      '\n' ∉ line.toList := by
    intro line hm
    rw [List.mem_append, List.mem_append, List.mem_singleton] at hm
    rcases hm with (hm | hm) | rfl
    · exact not_mem_of_mem_header horigin hm
    · exact not_mem_of_mem_usings (not_mem_of_mem_imports h.2 hfor) hm
    · decide
  -- Behind the blank line, the text is cut otherwise where a description has several lines.
  have hcut : Text.cut '\n' (objectSource model target).text =
      header (fromSchema model.rawName) ++
        (usings (classImports target ++ objectImports model target) ++
          "" :: Text.cut '\n' (Source.text back)) := by
    have hfront : objectSource model target = header (fromSchema model.rawName) ++
        usings (classImports target ++ objectImports model target) ++ [""] ++ back := by
      simp [hsource]
    have hmark : "\n" = String.singleton '\n' := by decide
    rw [hfront, Source.text, Source.text, hmark, Text.cut_join_append hlines hback]
    simp
  rw [importsOfFile, content_modelFile, hcut]
  refine importsOf_append (importOf?_header _) ?_ _
  exact List.append_ne_nil_of_left_ne_nil (List.cons_ne_nil _ _) _

/-- The classes that are made of schemas, also after they are linked to their interfaces, have the
capabilities that their properties need.  With such classes among them, models get one file each, in
order, and behind these comes that of the converter exactly if a class has a date.  The file of a
class is the text of lines of which the first with imports say what every class imports, and then
each namespace once that the properties of the class need or that the target wants; these are the
lines of the file itself unless a line break comes with a name. -/
theorem modelFiles_of_capable :
    (∀ known rawName schema model, resolveObject known rawName schema = .ok model →
      Capable model) ∧
    (∀ schemas options model, .object model ∈ (resolveModels schemas options).models.items →
      Capable model) ∧
    ∀ entities target, (∀ model, .object model ∈ entities → Capable model) →
      (HasDates entities → modelFiles entities target =
        entities.map (modelFile target) ++ [converterFile target]) ∧
      (¬HasDates entities → modelFiles entities target = entities.map (modelFile target)) ∧
      ∀ model, .object model ∈ entities →
        (modelFile target (.object model)).content = Text.join "\n" (objectSource model target) ∧
          importsOf (objectSource model target) =
            classImports target ++ objectImports model target ∧
          (IsSingleLined model target →
            importsOfFile (modelFile target (.object model)) =
              classImports target ++ objectImports model target) ∧
          ImportsFor model target (objectImports model target) := by
  refine ⟨fun known rawName schema model h => capable_of_eq (capabilities_of_resolveObject h),
    fun schemas options model => capable_of_item, fun entities target hcapable => ?_⟩
  have hneeds := any_needsDateConverter_iff hcapable
  have hfiles : modelFiles entities target = entities.map (modelFile target) ++
      if entities.any needsDateConverter then [converterFile target] else [] := rfl
  refine ⟨fun hdates => ?_, fun hdates => ?_, fun model hm => ?_⟩
  · rw [hfiles, if_pos (hneeds.mpr hdates)]
  · rw [hfiles, if_neg (mt hneeds.mp hdates), List.append_nil]
  · have hfor := importsFor_objectImports (hcapable model hm) target
    exact ⟨content_modelFile model target, importsOf_objectSource model target,
      fun h => importsOfFile_modelFile h hfor, hfor⟩

/-- A visit on a day with some treatments. -/
def visitSchemas : Fields Document.SchemaOrRef :=
  let text : Document.Schema := { Document.Schema.blank with types := some (.single .string) }
  let day : Document.Schema := { text with format := some "date" }
  let treatments : Document.Schema :=
    { Document.Schema.blank with types := some (.single .array), items := some (.inline text) }
  [("visit", .inline { Document.Schema.blank with
    types := some (.single .object)
    properties := [("day", .inline day), ("treatments", .inline treatments)] })]

/-- The class of a visit imports what lists need, although the target has only wanted a part of it,
and the converter follows the class. -/
theorem modelFiles_of_capable_visit :
    let entities := (resolveModels visitSchemas .plain).models.items
    let target := { petFolder with imports := ["Pets.Shared", "System.Linq"] }
    modelFiles entities target = entities.map (modelFile target) ++ [converterFile target] ∧
      ∃ model, .object model ∈ entities ∧ (objectImports model target).Nodup ∧
        importsOfFile (modelFile target (.object model)) =
          classImports target ++ objectImports model target ∧
        "Pets.Shared" ∈ objectImports model target ∧
        "System.Collections.Generic" ∈ objectImports model target := by
  intro entities target
  have hmade : (entities.filterMap Entity.object?).map (fun model => (model.rawName,
      model.properties.map fun property => (property.isDate, property.isList))) =
        [("visit", [(true, false), (false, true)])] := by decide +kernel
  obtain ⟨model, hmodel, hpair⟩ := List.map_eq_singleton_iff.mp hmade
  obtain ⟨hname, hproperties⟩ := Prod.mk.inj hpair
  have hm : .object model ∈ entities := by
    have hmem : model ∈ entities.filterMap Entity.object? := hmodel ▸ List.mem_cons_self
    obtain ⟨entity, he, hobject⟩ := List.mem_filterMap.mp hmem
    cases entity with
    | interface interface => exact absurd hobject nofun
    | object other => exact Option.some.inj hobject ▸ he
  have hproperty (flags : Bool × Bool) (h : flags ∈ [(true, false), (false, true)]) :
      ∃ property ∈ model.properties, (property.isDate, property.isList) = flags := by
    rw [← hproperties] at h
    exact List.mem_map.mp h
  -- The first property makes the converter necessary, and the second one the namespace of lists.
  obtain ⟨day, hday, hdate⟩ := hproperty (true, false) (by decide)
  obtain ⟨treatments, htreatments, hlist⟩ := hproperty (false, true) (by decide)
  have hsingle : IsSingleLined model target := by
    refine ⟨?_, by decide⟩
    rw [hname]
    decide
  obtain ⟨-, hitems, hall⟩ := modelFiles_of_capable
  obtain ⟨hfiles, -, himports⟩ := hall entities target (hitems visitSchemas .plain)
  obtain ⟨-, -, hread, hfor⟩ := himports model hm
  have hcollection : ∃ property ∈ model.properties, IsCollection property :=
    ⟨treatments, htreatments, Or.inl (Prod.mk.inj hlist).2⟩
  exact ⟨hfiles ⟨model, hm, day, hday, (Prod.mk.inj hdate).1⟩, model, hm, hfor.nodup,
    hread hsingle, hfor.wanted List.mem_cons_self, hfor.generic.mpr (Or.inl hcollection)⟩

end FunctionForge.CSharp
