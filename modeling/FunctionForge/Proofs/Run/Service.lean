import FunctionForge.Proofs.NameClashes
import FunctionForge.Proofs.Registry
import FunctionForge.Run.Service

/-!
# What a service writes and records

A service records its models before their files are generated, and the paths of its files at the
end, when nothing can fail any more.  So running a service is to render it with the models that the
registry admits (`render`), and then to ask the registry which of the files are kept
(`runService_eq`).

What a service adds to a registry are the names of its models, in any case, and the paths of the
files that it reports (`mem_names_runService_iff`).
-/

namespace FunctionForge.Run

open Document (ApiDocument)
open Endpoint (resolveEndpoints)
open Files (FileTree)
open Model (Entity resolveModels)

/-- The models that a registry admits. -/
def admitModels (registry : Registry Artifact) (entities : List Entity) :
    Registry.Admission Artifact Entity :=
  registry.submitAll Entity.name Artifact.model entities

/-- The files that a registry admits. -/
def admitFiles (registry : Registry Artifact) (files : List GeneratedFile) :
    Registry.Admission Artifact GeneratedFile :=
  registry.submitAll (fun file => file.path.text) (fun file => .text file.content) files

namespace ServiceRun

variable {ε α β : Type}

/-- What a step comes to, and what is recorded and reported then. -/
def exec (x : ServiceRun ε α) (progress : Progress) : Except (RunError ε) α × Progress :=
  x.run.run progress

/-- Steps are executed one after the other, until one of them fails. -/
theorem exec_bind (x : ServiceRun ε α) (k : α → ServiceRun ε β) (progress : Progress) :
    exec (x >>= k) progress =
      match exec x progress with
      | (.ok a, next) => exec (k a) next
      | (.error cause, next) => (.error cause, next) := by
  change (match x.run.run progress with
    | (result, next) => (ExceptT.bindCont k result).run next) = _
  unfold exec
  rcases x.run.run progress with ⟨_ | _, next⟩
  · rfl
  · rfl

variable {generator : Generator ε} {document : ApiDocument}

theorem exec_opened (files : FileTree) (target : ServiceTarget) (progress : Progress) :
    exec (opened files target : ServiceRun ε ApiDocument) progress =
      (match (openDocument files target.apiPath).document with
        | .ok document => .ok document
        | .error cause => .error (.document cause),
      { progress with
        notices := progress.notices ++ (openDocument files target.apiPath).notices }) := by
  rw [opened]
  rcases openDocument files target.apiPath with ⟨cause | document, notices⟩
  · rfl
  · rfl

/-- The models of a service are recorded before their files are generated. -/
theorem exec_models {components : Document.Components} (h : document.components = some components)
    (service : Nat) (target : ModelTarget) (progress : Progress) :
    ∃ notices, exec (models generator document service target) progress =
      (match generator.models (admitModels progress.registry
          (resolveModels components.schemas target.options).models.items).items target with
        | .ok files => .ok ((resolveModels components.schemas target.options).known,
          ⟨files, (resolveModels components.schemas target.options).models.failures.length⟩)
        | .error cause => .error (.generation cause),
      ⟨(admitModels progress.registry
        (resolveModels components.schemas target.options).models.items).registry, notices⟩) := by
  -- All steps up to the generation of the files come to a result.
  have hsteps : ∃ notices, exec (models generator document service target) progress =
      exec (generated (generator.models (admitModels progress.registry
          (resolveModels components.schemas target.options).models.items).items target) >>=
        fun files => pure ((resolveModels components.schemas target.options).known,
          ⟨files, (resolveModels components.schemas target.options).models.failures.length⟩))
      ⟨(admitModels progress.registry
        (resolveModels components.schemas target.options).models.items).registry, notices⟩ := by
    rw [models, h]
    exact ⟨_, rfl⟩
  obtain ⟨notices, hsteps⟩ := hsteps
  refine ⟨notices, hsteps.trans ?_⟩
  rcases generator.models _ target with cause | files
  · rfl
  · rfl

/-- The models of a service, if it has any, with the types that its functions are to know. -/
def modelReport (generator : Generator ε) (document : ApiDocument) (target : ServiceTarget) :
    ServiceRun ε (Option KnownTypes × ServiceReport) :=
  match target.model with
  | none => pure (none, ⟨[], 0⟩)
  | some model =>
    models generator document target.index model >>= fun found => pure (some found.1, found.2)

/-- The functions of a service, if it has any. -/
def functionReport (generator : Generator ε) (document : ApiDocument) (target : ServiceTarget)
    (known : Option KnownTypes) : ServiceRun ε ServiceReport :=
  match target.function with
  | none => pure ⟨[], 0⟩
  | some function =>
    functions generator document target.index
      (known.getD (knownWithoutModels document function)) function

/-- What a service keeps of the files of its models and functions. -/
def keptReport (models functions : ServiceReport) : ServiceRun ε ServiceReport :=
  submitAll (fun file => file.path.text) (fun file => Artifact.text file.content)
      (models.files ++ functions.files) >>= fun kept =>
    pure ⟨kept, models.failures + functions.failures⟩

/-- A service opens its document, makes its models and then its functions, and keeps what it may. -/
theorem service_eq (files : FileTree) (target : ServiceTarget) :
    service files generator target = opened files target >>= fun document =>
      modelReport generator document target >>= fun found =>
        functionReport generator document target found.1 >>= fun functions =>
          keptReport found.2 functions := by
  unfold service modelReport functionReport
  refine bind_congr fun document => ?_
  cases target.model with
  | none =>
    rw [pure_bind]
    cases target.function with
    | none => rfl
    | some function => rfl
  | some model =>
    rw [bind_assoc]
    refine bind_congr fun found => ?_
    rw [pure_bind]
    cases target.function with
    | none => rfl
    | some function => rfl

end ServiceRun

open ServiceRun

variable {ε : Type} {generator : Generator ε} {files : FileTree} {target : ServiceTarget}
  {registry : Registry Artifact} {document : ApiDocument}

/-- The models of a service: none if it has no models, or its document no components or cannot be
opened. -/
def serviceModels (files : FileTree) (target : ServiceTarget) : List Entity :=
  match (openDocument files target.apiPath).document, target.model with
  | .ok document, some model =>
    match document.components with
    | some components => (resolveModels components.schemas model.options).models.items
    | none => []
  | _, _ => []

/-! ### Opening -/

/-- What a bound that is large enough tells of a document that is opened is true of it. -/
theorem exists_openDocument {path : Files.Path} {limit : Nat} {p : ApiDocument → Bool}
    (h : ((Document.load files path).toOption.bind fun document =>
      ((Reference.Resolver.fresh path.folder).resolveWithin (Document.loadValue files) document
        limit).bind fun resolved => resolved.result.toOption.map p) = some true) :
    ∃ document, (openDocument files path).document = .ok document ∧ p document = true := by
  obtain ⟨loaded, hl, h⟩ := Option.bind_eq_some_iff.mp h
  obtain ⟨document, hresult, hp⟩ := Reference.Resolver.exists_resolve_of_resolveWithin h
  refine ⟨document, ?_, hp⟩
  rw [openDocument, eq_ok_of_toOption hl]
  simp only [hresult]

/-! ### Rendering -/

/-- The files of the models that are admitted, with the types that are known then. -/
def renderModels (generator : Generator ε) (document : ApiDocument) (admitted : List Entity) :
    Option ModelTarget → Except (RunError ε) (Option KnownTypes × ServiceReport)
  | none => .ok (none, ⟨[], 0⟩)
  | some target =>
    match document.components with
    | none => .error (.missingSection .components)
    | some components =>
      let resolution := resolveModels components.schemas target.options
      match generator.models admitted target with
      | .error cause => .error (.generation cause)
      | .ok files => .ok (some resolution.known, ⟨files, resolution.models.failures.length⟩)

/-- The files of functions. -/
def renderFunctions (generator : Generator ε) (document : ApiDocument)
    (known : Option KnownTypes) : Option FunctionTarget → Except (RunError ε) ServiceReport
  | none => .ok ⟨[], 0⟩
  | some target =>
    match document.paths with
    | none => .error (.missingSection .paths)
    | some paths =>
      let endpoints := resolveEndpoints (known.getD (knownWithoutModels document target))
        document.schemas paths
      match generator.functions endpoints.items target with
      | .error cause => .error (.generation cause)
      | .ok files => .ok ⟨files, endpoints.failures.length⟩

/-- All files of a service for a document, those of the admitted models first. -/
def renderDocument (generator : Generator ε) (document : ApiDocument) (target : ServiceTarget)
    (admitted : List Entity) : Except (RunError ε) ServiceReport := do
  let found ← renderModels generator document admitted target.model
  let functions ← renderFunctions generator document found.1 target.function
  return ⟨found.2.files ++ functions.files, found.2.failures + functions.failures⟩

/-- What a service writes if these of its models are admitted.  It does not depend on what is
recorded otherwise. -/
def render (generator : Generator ε) (files : FileTree) (target : ServiceTarget)
    (admitted : List Entity) : Except (RunError ε) ServiceReport :=
  match (openDocument files target.apiPath).document with
  | .error cause => .error (.document cause)
  | .ok document => renderDocument generator document target admitted

/-- What is reported and recorded of the files that were rendered. -/
def keep (registry : Registry Artifact) : Except (RunError ε) ServiceReport →
    Except (RunError ε) ServiceReport × Registry Artifact
  | .error cause => (.error cause, registry)
  | .ok report =>
    (.ok { report with files := (admitFiles registry report.files).items },
      (admitFiles registry report.files).registry)

/-- The models are recorded before their files are made, and so also if that fails. -/
theorem exec_modelReport (hd : (openDocument files target.apiPath).document = .ok document)
    (progress : Progress) : ∃ notices, exec (modelReport generator document target) progress =
      (renderModels generator document
          (admitModels progress.registry (serviceModels files target)).items target.model,
        ⟨(admitModels progress.registry (serviceModels files target)).registry, notices⟩) := by
  unfold modelReport serviceModels
  rw [hd]
  cases target.model with
  | none => exact ⟨progress.notices, rfl⟩
  | some model =>
    cases hc : document.components with
    | none =>
      refine ⟨progress.notices, ?_⟩
      simp only [models, renderModels, hc]
      rfl
    | some components =>
      obtain ⟨notices, hx⟩ := @exec_models ε generator document components hc target.index model
        progress
      refine ⟨notices, ?_⟩
      simp only [renderModels, hc]
      rw [exec_bind, hx]
      cases generator.models _ model with
      | error cause => rfl
      | ok written => rfl

/-- Making functions records nothing. -/
theorem exec_functionReport (known : Option KnownTypes) (progress : Progress) :
    ∃ notices, exec (functionReport generator document target known) progress =
      (renderFunctions generator document known target.function,
        ⟨progress.registry, notices⟩) := by
  unfold functionReport
  cases target.function with
  | none => exact ⟨progress.notices, rfl⟩
  | some function =>
    simp only
    cases hp : document.paths with
    | none =>
      refine ⟨progress.notices, ?_⟩
      simp only [functions, renderFunctions, hp]
      rfl
    | some paths =>
      simp only [renderFunctions, hp]
      generalize known.getD (knownWithoutModels document function) = types
      -- The notices depend on the failures, and nothing else does.
      have hsteps : ∃ notices, exec (functions generator document target.index types function)
            progress =
          exec (generated (generator.functions
              (resolveEndpoints types document.schemas paths).items function) >>=
            fun files => pure
              ⟨files, (resolveEndpoints types document.schemas paths).failures.length⟩)
          ⟨progress.registry, notices⟩ := by
        rw [functions, hp]
        exact ⟨_, rfl⟩
      obtain ⟨notices, hsteps⟩ := hsteps
      refine ⟨notices, hsteps.trans ?_⟩
      rcases generator.functions _ function with cause | files
      · rfl
      · rfl

/-- Running a service is to render it with the models that are admitted, and to keep of the files
what is admitted then. -/
theorem runService_eq (registry : Registry Artifact) :
    ((runService files generator target registry).result,
      (runService files generator target registry).registry) =
    keep (admitModels registry (serviceModels files target)).registry
      (render generator files target
        (admitModels registry (serviceModels files target)).items) := by
  change ((exec (service files generator target) ⟨registry, []⟩).1,
    (exec (service files generator target) ⟨registry, []⟩).2.registry) = _
  rw [service_eq, exec_bind, exec_opened, render]
  generalize ([] : List Notice) ++ (openDocument files target.apiPath).notices = notices
  -- Without a document there are no models, so nothing is recorded.
  cases hd : (openDocument files target.apiPath).document with
  | error cause =>
    have hnone : serviceModels files target = [] := by rw [serviceModels, hd]
    rw [hnone]
    rfl
  | ok document =>
    simp only [renderDocument]
    obtain ⟨notices, hm⟩ := @exec_modelReport ε generator files target document hd
      ⟨registry, notices⟩
    rw [exec_bind, hm]
    cases renderModels generator document
        (admitModels registry (serviceModels files target)).items target.model with
    | error cause => rfl
    | ok found =>
      obtain ⟨notices, hf⟩ := @exec_functionReport ε generator target document found.1
        ⟨(admitModels registry (serviceModels files target)).registry, notices⟩
      simp only
      rw [exec_bind, hf]
      change _ = keep _ (renderFunctions generator document found.1 target.function >>=
        fun functions => pure ⟨found.2.files ++ functions.files,
          found.2.failures + functions.failures⟩)
      cases renderFunctions generator document found.1 target.function with
      | error cause => rfl
      | ok functions => rfl

theorem result_runService (registry : Registry Artifact) :
    (runService files generator target registry).result =
      (keep (admitModels registry (serviceModels files target)).registry (render generator files
        target (admitModels registry (serviceModels files target)).items)).1 :=
  congrArg Prod.fst (runService_eq registry)

theorem registry_runService (registry : Registry Artifact) :
    (runService files generator target registry).registry =
      (keep (admitModels registry (serviceModels files target)).registry (render generator files
        target (admitModels registry (serviceModels files target)).items)).2 :=
  congrArg Prod.snd (runService_eq registry)

theorem render_of_openDocument {admitted : List Entity}
    (h : (openDocument files target.apiPath).document = .ok document) :
    render generator files target admitted =
      renderDocument generator document target admitted := by
  rw [render, h]

/-- What is kept of a report are the files that the registry admits. -/
theorem keep_eq_ok {rendered : Except (RunError ε) ServiceReport} {report : ServiceReport}
    (h : (keep registry rendered).1 = .ok report) :
    ∃ written, rendered = .ok written ∧ report.files = (admitFiles registry written.files).items ∧
      report.failures = written.failures := by
  cases rendered with
  | error cause => exact absurd h nofun
  | ok written =>
    obtain rfl := Except.ok.inj h
    exact ⟨written, rfl, rfl, rfl⟩

/-- Models are only made of components, and their failures are counted. -/
theorem renderModels_eq_ok {admitted : List Entity} {model : ModelTarget}
    {found : Option KnownTypes × ServiceReport}
    (h : renderModels generator document admitted (some model) = .ok found) :
    ∃ components modelFiles, document.components = some components ∧
      generator.models admitted model = .ok modelFiles ∧
      found = (some (resolveModels components.schemas model.options).known,
        ⟨modelFiles, (resolveModels components.schemas model.options).models.failures.length⟩) := by
  rw [renderModels] at h
  split at h
  · exact absurd h nofun
  · rename_i components hc
    simp only at h
    split at h
    · exact absurd h nofun
    · rename_i modelFiles hg
      exact ⟨components, modelFiles, hc, hg, (Except.ok.inj h).symm⟩

theorem renderFunctions_eq_ok {known : Option KnownTypes} {function : FunctionTarget}
    {report : ServiceReport}
    (h : renderFunctions generator document known (some function) = .ok report) :
    ∃ paths, document.paths = some paths ∧
      report.failures = (resolveEndpoints (known.getD (knownWithoutModels document function))
        document.schemas paths).failures.length := by
  rw [renderFunctions] at h
  split at h
  · exact absurd h nofun
  · rename_i paths hp
    simp only at h
    split at h
    · exact absurd h nofun
    · exact ⟨paths, hp, congrArg ServiceReport.failures (Except.ok.inj h).symm⟩

/-- The files of a service are those of its models followed by those of its functions. -/
theorem render_eq_ok {admitted : List Entity} {written : ServiceReport}
    (h : render generator files target admitted = .ok written) :
    ∃ document found functions, (openDocument files target.apiPath).document = .ok document ∧
      renderModels generator document admitted target.model = .ok found ∧
      renderFunctions generator document found.1 target.function = .ok functions ∧
      written = ⟨found.2.files ++ functions.files, found.2.failures + functions.failures⟩ := by
  rw [render] at h
  split at h
  · exact absurd h nofun
  · rename_i document hd
    obtain ⟨found, hfound, h⟩ := bind_eq_ok.mp h
    obtain ⟨functions, hfunctions, h⟩ := bind_eq_ok.mp h
    exact ⟨document, found, functions, hd, hfound, hfunctions, (Except.ok.inj h).symm⟩

/-- The files of the models that are admitted come first. -/
theorem exists_modelFiles_of_render {admitted : List Entity} {model : ModelTarget}
    {written : ServiceReport} (hm : target.model = some model)
    (h : render generator files target admitted = .ok written) :
    ∃ modelFiles functionFiles, generator.models admitted model = .ok modelFiles ∧
      written.files = modelFiles ++ functionFiles := by
  obtain ⟨document, found, functions, -, hfound, -, rfl⟩ := render_eq_ok h
  rw [hm] at hfound
  obtain ⟨components, modelFiles, -, hg, rfl⟩ := renderModels_eq_ok hfound
  exact ⟨modelFiles, functions.files, hg, rfl⟩

section

variable {components : Document.Components} {model : ModelTarget} {admitted : List Entity}
  {modelFiles : List GeneratedFile}
  (hd : (openDocument files target.apiPath).document = .ok document)
  (hm : target.model = some model) (hc : document.components = some components)
include hd hm hc

theorem serviceModels_of_openDocument :
    serviceModels files target = (resolveModels components.schemas model.options).models.items := by
  simp only [serviceModels, hd, hm, hc]

/-- A service without functions renders its models. -/
theorem render_of_no_functions (hg : generator.models admitted model = .ok modelFiles)
    (hf : target.function = none) :
    render generator files target admitted =
      .ok ⟨modelFiles ++ [],
        (resolveModels components.schemas model.options).models.failures.length⟩ := by
  rw [render_of_openDocument hd]
  simp only [renderDocument, renderModels, hm, hc, hg, renderFunctions, hf]
  rfl

/-- A service with functions fails if its document has no paths. -/
theorem result_of_missing_paths {function : FunctionTarget}
    (hg : generator.models (admitModels registry (serviceModels files target)).items model =
      .ok modelFiles)
    (hf : target.function = some function) (hp : document.paths = none) :
    (runService files generator target registry).result = .error (.missingSection .paths) := by
  rw [result_runService, render_of_openDocument hd]
  simp only [renderDocument, renderModels, hm, hc, hg, renderFunctions, hf, hp]
  rfl

end

/-! ### What is recorded -/

/-- A service comes to a report with a file of a path. -/
def Reports (result : Except (RunError ε) ServiceReport) (path : String) : Prop :=
  ∃ report, result = .ok report ∧ ∃ file ∈ report.files, file.path.text = path

/-- At the end the paths of the reported files are recorded. -/
theorem mem_names_keep_iff {rendered : Except (RunError ε) ServiceReport} {name : String} :
    name ∈ (keep registry rendered).2.names ↔
      name ∈ registry.names ∨ Reports (keep registry rendered).1 name := by
  cases rendered with
  | error cause => exact (or_iff_left fun ⟨_, hr, _⟩ => absurd hr nofun).symm
  | ok written =>
    refine Registry.mem_names_submitAll_iff_kept.trans (or_congr_right ?_)
    constructor
    · intro hk
      exact ⟨_, rfl, hk⟩
    · rintro ⟨report, hr, hk⟩
      obtain rfl := Except.ok.inj hr
      exact hk

/-- What is recorded by a service are the names of its models, and the paths of the files that it
reports. -/
theorem mem_names_runService_iff {name : String} :
    name ∈ (runService files generator target registry).registry.names ↔
      name ∈ registry.names ∨ (∃ entity ∈ serviceModels files target, entity.name = name) ∨
        Reports (runService files generator target registry).result name := by
  have hmodels : name ∈ (admitModels registry (serviceModels files target)).registry.names ↔
      name ∈ registry.names ∨ ∃ entity ∈ serviceModels files target, entity.name = name :=
    Registry.mem_names_submitAll_iff
  rw [registry_runService, result_runService, mem_names_keep_iff, hmodels, or_assoc]

/-- A service does not change the policy for duplicates. -/
theorem mode_runService :
    (runService files generator target registry).registry.mode = registry.mode := by
  rw [registry_runService, ← @Registry.mode_submitAll _ _ registry _ Entity.name Artifact.model
    (serviceModels files target)]
  cases render generator files target
      (admitModels registry (serviceModels files target)).items with
  | error cause => rfl
  | ok written => exact Registry.mode_submitAll

/-- No two models of a service have one name. -/
theorem nodup_names_serviceModels :
    ((serviceModels files target).map Entity.name).Nodup := by
  unfold serviceModels
  split
  · split
    · exact Model.nodup_names
    · exact List.nodup_nil
  · exact List.nodup_nil

end FunctionForge.Run
