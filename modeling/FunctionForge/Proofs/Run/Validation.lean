import FunctionForge.CommandLine.Execute
import FunctionForge.Proofs.Renaming.Endpoints
import FunctionForge.Proofs.Run.Policy

/-!
# What validation tells of a service

Validating a document resolves it with plain names, and running a service resolves it with the names
of the service.  Another naming only renames what comes of a document, so that the same definitions
are passed over (`failures_resolve_eq`), and neither what the registry admits nor what the generator
writes changes their number.  So the report of a service that has models of all schemas and
functions counts what validation finds, and is clean exactly if validation succeeds
(`exists_inspection_of_runService`).
-/

namespace FunctionForge.Run

open Document (ApiDocument)
open Endpoint (resolveEndpoints)
open Files (FileTree Path)
open Model (Entity resolveModels)

variable {ε : Type} {generator : Generator ε} {files : FileTree} {target : ServiceTarget}
  {registry : Registry Artifact} {document : ApiDocument}

/-! ### Inspections -/

theorem ofFile_of_openDocument {path : Path}
    (h : (openDocument files path).document = .ok document) :
    (Inspection.ofFile files path).result = .ok (.ofDocument document) := by
  rw [Inspection.ofFile]
  simp only [h]

/-- Validation succeeds if there is no definition that cannot be used. -/
theorem exitCode_validateFile_eq_zero_iff {path : Path} {inspection : Inspection}
    (h : (Inspection.ofFile files path).result = .ok inspection) :
    (CommandLine.validateFile files path).exitCode = 0 ↔ inspection.failures = [] := by
  rw [CommandLine.validateFile]
  simp only [h]
  cases inspection.failures with
  | nil => exact iff_of_true rfl rfl
  | cons failure rest => exact iff_of_false Nat.one_ne_zero (List.cons_ne_nil _ _)

/-- With any naming, the models and the endpoints that validation finds fail, with the classes
renamed that the failures of models name. -/
theorem failures_resolve_eq {components : Document.Components}
    {paths : Fields Document.PathItem} (hc : document.components = some components)
    (hp : document.paths = some paths) (naming : Naming.ClassNaming) :
    let named := resolveModels components.schemas { Model.Options.plain with naming }
    named.models.failures =
      (Inspection.ofDocument document).models.failures.map (.rename naming.decorate) ∧
    (resolveEndpoints named.known document.schemas paths).failures =
      (Inspection.ofDocument document).endpoints.failures := by
  intro named
  have hnamed : named = (resolveModels components.schemas .plain).rename naming :=
    Model.resolveModels_rename components.schemas _
  have hrenames : Renames naming.decorate (resolveModels components.schemas .plain).known
      named.known := by
    rw [hnamed]
    exact KnownTypes.renames_rename KnownTypes.naming_scan naming
  have hendpoints := Endpoint.resolveEndpoints_rename naming.decorate_injective hrenames
    document.schemas paths
  rw [hendpoints, hnamed]
  simp only [Inspection.ofDocument, Inspection.modelsOf, hc, hp]
  exact ⟨rfl, rfl⟩

/-! ### Services -/

/-- What a service renders counts the definitions that validation finds. -/
theorem failures_of_render {model : ModelTarget} {function : FunctionTarget}
    {admitted : List Entity} {written : ServiceReport}
    (hm : target.model = some model) (hf : target.function = some function)
    (hexcludes : model.excludes = []) (hincludes : model.includes = [])
    (h : render generator files target admitted = .ok written) :
    ∃ inspection, (Inspection.ofFile files target.apiPath).result = .ok inspection ∧
      written.failures =
        inspection.models.failures.length + inspection.endpoints.failures.length := by
  obtain ⟨document, found, functions, hd, hfound, hfunctions, rfl⟩ := render_eq_ok h
  rw [hm] at hfound
  rw [hf] at hfunctions
  obtain ⟨components, modelFiles, hc, -, rfl⟩ := renderModels_eq_ok hfound
  obtain ⟨paths, hp, hcount⟩ := renderFunctions_eq_ok hfunctions
  -- All schemas are admitted, so that only the naming is not that of a validation.
  have hoptions : model.options = { Model.Options.plain with naming := model.naming } := by
    rw [ModelTarget.options, hexcludes, hincludes]
    rfl
  obtain ⟨hmodels, hendpoints⟩ := failures_resolve_eq hc hp model.naming
  refine ⟨_, ofFile_of_openDocument hd, ?_⟩
  simp only [hcount, hoptions, Option.getD_some, hmodels, hendpoints, List.length_map]

/-- If a service that has models of all schemas and functions comes to a report, with whatever
registry and naming, its document can be validated, and the report counts the definitions that
validation finds: it is clean exactly if there are none, and then validation succeeds. -/
theorem exists_inspection_of_runService {model : ModelTarget} {function : FunctionTarget}
    {report : ServiceReport} (hm : target.model = some model)
    (hf : target.function = some function) (hexcludes : model.excludes = [])
    (hincludes : model.includes = [])
    (h : (runService files generator target registry).result = .ok report) :
    ∃ inspection, (Inspection.ofFile files target.apiPath).result = .ok inspection ∧
      report.failures =
        inspection.models.failures.length + inspection.endpoints.failures.length ∧
      (report.isClean = true ↔ inspection.failures = []) ∧
      ((CommandLine.validateFile files target.apiPath).exitCode = 0 ↔ report.isClean = true) := by
  rw [result_runService] at h
  obtain ⟨written, hw, -, hfailures⟩ := keep_eq_ok h
  obtain ⟨inspection, hi, hcount⟩ := failures_of_render hm hf hexcludes hincludes hw
  have hclean : report.isClean = true ↔ inspection.failures = [] := by
    rw [ServiceReport.isClean, beq_iff_eq, hfailures, hcount, ← List.length_append,
      List.length_eq_zero_iff]
    rfl
  exact ⟨inspection, hi, hfailures.trans hcount, hclean,
    (exitCode_validateFile_eq_zero_iff hi).trans hclean.symm⟩

/-- A description of pets in which a class is described twice, and an operation has no name. -/
def twicePetFiles : FileTree :=
  ⟨[("api.json", .file (.text ("\x7b\"openapi\": \"3.0.3\", \"info\": \x7b\"title\": \"T\", " ++
    "\"version\": \"1\"\x7d, \"paths\": \x7b\"/pets\": \x7b\"get\": \x7b\"responses\": " ++
    "\x7b\x7d\x7d\x7d\x7d, \"components\": \x7b\"schemas\": \x7b\"Pet\": \x7b\"type\": " ++
    "\"object\"\x7d, \"pet\": \x7b\"type\": \"object\"\x7d\x7d\x7d\x7d")))]⟩

/-- A service with its pets, which have longer names there, and its functions. -/
def twicePetService : Turn :=
  ⟨twicePetFiles, ⟨0, ⟨"./api.json"⟩,
    some { petModels "A" "./a" with naming := ⟨"Api", "Dto"⟩ }, some petFunctions⟩⟩

/-- The service passes over the second class and the operation. -/
theorem exists_report_twicePetService : ∃ report,
    (twicePetService.outcome CSharp.generator (.fresh .overwrite)).result = .ok report ∧
      report.failures = 2 := by
  obtain ⟨document, hd, h⟩ := @exists_openDocument twicePetFiles ⟨"./api.json"⟩ 1
    (fun document => document.components.any fun components =>
      ((renderDocument CSharp.generator document twicePetService.target
        (resolveModels components.schemas ⟨⟨"Api", "Dto"⟩, [], []⟩).models.items).toOption.map
        ServiceReport.failures) = some 2) (by decide +kernel)
  obtain ⟨components, hc, h⟩ := (Option.any_eq_true _ _).mp h
  obtain ⟨report, hr, hcount⟩ := Option.map_eq_some_iff.mp (of_decide_eq_true h)
  refine ⟨report, ?_, hcount⟩
  have hmodels := @serviceModels_of_openDocument twicePetFiles twicePetService.target document
    components { petModels "A" "./a" with naming := ⟨"Api", "Dto"⟩ } hd rfl hc
  have hrender := @render_of_openDocument _ CSharp.generator twicePetFiles twicePetService.target
    document twicePetService.models hd
  rw [result_outcome_of_overwrite rfl]
  exact hrender.trans ((congrArg (renderDocument CSharp.generator document _) hmodels).trans
    (eq_ok_of_toOption hr))

/-- Validation finds both of them, and fails. -/
theorem exists_inspection_twicePetFiles : ∃ inspection,
    (Inspection.ofFile twicePetFiles ⟨"./api.json"⟩).result = .ok inspection ∧
      inspection.models.failures.length + inspection.endpoints.failures.length = 2 ∧
      (CommandLine.validateFile twicePetFiles ⟨"./api.json"⟩).exitCode ≠ 0 := by
  obtain ⟨report, hr, hcount⟩ := exists_report_twicePetService
  obtain ⟨inspection, hi, hfailures, -, hexit⟩ :=
    exists_inspection_of_runService rfl rfl rfl rfl hr
  refine ⟨inspection, hi, hfailures.symm.trans hcount, fun hzero => ?_⟩
  have hclean := hexit.mp hzero
  rw [ServiceReport.isClean, beq_iff_eq, hcount] at hclean
  exact absurd hclean (by decide)

end FunctionForge.Run
