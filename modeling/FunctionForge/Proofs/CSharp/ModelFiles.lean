import FunctionForge.CSharp.ModelSource
import FunctionForge.Proofs.Files.Placement
import FunctionForge.Proofs.Model.Accounts
import FunctionForge.Proofs.Naming.Slashes

/-!
# Where the files of models are written

The file of a model is named after its class, and the class after the schema.  A slash in the name
of the schema stays in both, so that the file stands directly in the folder of the target, under the
name of the class, exactly if neither the name of the schema nor what is written around it has a
slash (`standsIn_modelFiles_iff`).  A schema whose name climbs out of the folder, or starts at the
root, is written elsewhere (`not_standsIn_straySchemas`).
-/

namespace FunctionForge.CSharp

open Document (Schema SchemaOrRef)
open Files (Path)
open Files.Path (StandsIn)
open Model (Entity Options resolveModels)

variable {entities : List Entity} {target : ModelTarget}

/-! ### Files -/

/-- The file of a model. -/
def modelFile (target : ModelTarget) (entity : Entity) : GeneratedFile :=
  outputFile target.folder entity.name (entitySource entity target)

/-- The file of the converter for dates. -/
def converterFile (target : ModelTarget) : GeneratedFile :=
  outputFile target.folder dateConverter (dateConverterSource target)

theorem mem_modelFiles_iff {file : GeneratedFile} : file ∈ modelFiles entities target ↔
    (∃ entity ∈ entities, file = modelFile target entity) ∨
      file = converterFile target ∧ ∃ entity ∈ entities, needsDateConverter entity = true := by
  rw [modelFiles, List.mem_append, List.mem_map]
  refine or_congr ?_ ?_
  · exact exists_congr fun entity => and_congr_right fun _ => eq_comm
  · split_ifs with hdate
    · rw [List.mem_singleton]
      exact (and_iff_left (List.any_eq_true.mp hdate)).symm
    · refine iff_of_false List.not_mem_nil fun h => hdate ?_
      exact List.any_eq_true.mpr h.2

/-- The suffix makes a name of everything, also of nothing and of dots. -/
theorem standsIn_outputFile_iff {folder : Path} {typeName : String} {source : Source} :
    StandsIn folder (typeName ++ fileSuffix) (outputFile folder typeName source).path ↔
      '/' ∉ typeName.toList := by
  have hsuffix : '/' ∉ fileSuffix.toList := by decide
  have hlong {text : String} (h : text.toList.length < fileSuffix.toList.length) :
      typeName ++ fileSuffix ≠ text := by
    rintro rfl
    rw [String.toList_append, List.length_append] at h
    omega
  rw [outputFile, Files.Path.standsIn_join_iff (hlong (by decide)) (hlong (by decide))
    (hlong (by decide)), String.toList_append, List.mem_append, or_iff_left hsuffix]

/-! ### Models -/

/-- The class of a model is named after the schema, which is a component. -/
theorem className_of_item {schemas : Fields SchemaOrRef} {options : Options} {entity : Entity}
    (h : entity ∈ (resolveModels schemas options).models.items) :
    entity.rawName ∈ schemas.keys ∧ entity.name = options.naming.className entity.rawName := by
  obtain ⟨key, schema, made, entities, hm, hr, rfl⟩ := Model.exists_linked_of_item h
  have hnaming : (resolveModels schemas options).known.naming = options.naming :=
    KnownTypes.naming_scan ..
  rw [Model.rawName_linkInterfaces, Model.name_linkInterfaces, Model.rawName_of_resolveEntity hr,
    Model.name_of_resolveEntity hr, hnaming]
  exact ⟨List.mem_map_of_mem hm, rfl⟩

/-- The files of models are those of the models and at most the one of the converter for dates.  The
converter always stands in the folder of the target.  The file of a model stands there, under the
name of its class, exactly if nothing that this name is made of has a slash; a name that starts with
one is a path of its own. -/
theorem standsIn_modelFiles_iff (schemas : Fields SchemaOrRef) (options : Options)
    (target : ModelTarget) :
    let entities := (resolveModels schemas options).models.items
    (∀ file, file ∈ modelFiles entities target ↔
      (∃ entity ∈ entities, file = modelFile target entity) ∨
        file = converterFile target ∧ ∃ entity ∈ entities, needsDateConverter entity = true) ∧
    StandsIn target.folder (dateConverter ++ fileSuffix) (converterFile target).path ∧
    ∀ entity ∈ entities,
      entity.rawName ∈ schemas.keys ∧
      entity.name = options.naming.className entity.rawName ∧
      (StandsIn target.folder (entity.name ++ fileSuffix) (modelFile target entity).path ↔
        '/' ∉ options.naming.lead.toList ∧ '/' ∉ entity.rawName.toList ∧
          '/' ∉ options.naming.trail.toList) ∧
      ((Files.Path.mk entity.name).isAbsolute = true →
        (modelFile target entity).path = ⟨entity.name ++ fileSuffix⟩) := by
  intro entities
  refine ⟨fun file => mem_modelFiles_iff, standsIn_outputFile_iff.mpr (by decide),
    fun entity hm => ?_⟩
  obtain ⟨hkey, hname⟩ := className_of_item hm
  refine ⟨hkey, hname, ?_, fun habsolute => ?_⟩
  · rw [modelFile, standsIn_outputFile_iff, hname, Naming.slash_mem_className_iff, not_or, not_or]
  · -- What stands behind a name does not change how it starts.
    have hstart : (Files.Path.mk (entity.name ++ fileSuffix)).isAbsolute = true := by
      rw [Path.isAbsolute, beq_iff_eq] at habsolute ⊢
      rw [String.toList_append, List.head?_append, habsolute]
      rfl
    rw [modelFile, outputFile, Path.join, if_pos hstart]

/-! ### Pets -/

/-- An owner of pets, since a day. -/
def ownerSchemas : Fields SchemaOrRef :=
  let day : Schema := { Schema.blank with types := some (.single .string), format := some "date" }
  [("pet-owner", .inline { Schema.blank with
    types := some (.single .object)
    properties := [("since", .inline day)] })]

/-- Where the models of pets are written. -/
def petFolder : ModelTarget :=
  ⟨"Pets", ⟨"out/Model"⟩, .plain, [], [], [], 3⟩

/-- The file of an owner stands in the folder of the models, beside that of the converter. -/
theorem standsIn_modelFiles_owner :
    let entities := (resolveModels ownerSchemas .plain).models.items
    entities.map Entity.name = ["PetOwner"] ∧
      (modelFiles entities petFolder).map (fun file => file.path.text) =
        ["out/Model/PetOwner.generated.cs", "out/Model/CustomJsonDateConverter.generated.cs"] ∧
      ∀ entity ∈ entities,
        StandsIn petFolder.folder (entity.name ++ fileSuffix)
          (modelFile petFolder entity).path := by
  intro entities
  refine ⟨by decide +kernel, by decide +kernel, fun entity hm => ?_⟩
  obtain ⟨-, -, hall⟩ := standsIn_modelFiles_iff ownerSchemas .plain petFolder
  obtain ⟨hkey, -, hiff, -⟩ := hall entity hm
  have hraw : entity.rawName = "pet-owner" := List.mem_singleton.mp hkey
  rw [hiff, hraw]
  decide

/-- Names of schemas that climb out of a folder, or start at the root. -/
def straySchemas : Fields SchemaOrRef :=
  let pet : Schema := { Schema.blank with types := some (.single .object) }
  [("../Pet", .inline pet), ("/etc/Pet", .inline pet)]

/-- The file of one schema is written beside the folder of the models, that of the other one below
the root. -/
theorem not_standsIn_straySchemas :
    let entities := (resolveModels straySchemas .plain).models.items
    entities.map Entity.name = ["../Pet", "/etc/Pet"] ∧
      (modelFiles entities petFolder).map (fun file => file.path.text) =
        ["out/Model/../Pet.generated.cs", "/etc/Pet.generated.cs"] ∧
      ∀ entity ∈ entities,
        ¬StandsIn petFolder.folder (entity.name ++ fileSuffix)
          (modelFile petFolder entity).path := by
  intro entities
  have hnames : entities.map Entity.name = ["../Pet", "/etc/Pet"] := by decide +kernel
  refine ⟨hnames, by decide +kernel, fun entity hm => ?_⟩
  have hname : entity.name ∈ ["../Pet", "/etc/Pet"] := hnames ▸ List.mem_map_of_mem hm
  have hslash : ∀ name ∈ ["../Pet", "/etc/Pet"], '/' ∈ name.toList := by decide
  rw [modelFile, standsIn_outputFile_iff]
  exact fun hnot => hnot (hslash _ hname)

end FunctionForge.CSharp
