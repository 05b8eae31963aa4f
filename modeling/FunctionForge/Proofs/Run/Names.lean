import FunctionForge.CSharp.Generator
import FunctionForge.Proofs.Run.Service
import FunctionForge.Run.All

/-!
# Names that a run uses up

Services that have their turns one after the other share a registry (`registryAfter`), each with the
files as they are when its turn comes.  If the first thing of a name stays, a model is left out
exactly if an earlier service has a model of its name or reports a file with that path, even if the
earlier service fails afterwards (`not_admitted_iff`).
-/

namespace FunctionForge.Run

open Files (FileTree)
open Model (Entity)

/-- A service of a run, with the files as they are when its turn comes. -/
structure Turn where
  files : FileTree
  target : ServiceTarget

variable {ε : Type} {generator : Generator ε} {registry : Registry Artifact} {turns : List Turn}
  {turn : Turn} {name : String}

namespace Turn

/-- How the service comes out. -/
def outcome (turn : Turn) (generator : Generator ε) (registry : Registry Artifact) :
    ServiceOutcome ε :=
  runService turn.files generator turn.target registry

/-- The models of the service. -/
def models (turn : Turn) : List Entity :=
  serviceModels turn.files turn.target

/-- The models of the service that a registry admits. -/
def admitted (turn : Turn) (registry : Registry Artifact) : List Entity :=
  (admitModels registry turn.models).items

/-- The service has a model of a name, or reports a file with it as its path. -/
def Takes (turn : Turn) (generator : Generator ε) (registry : Registry Artifact) (name : String) :
    Prop :=
  (∃ entity ∈ turn.models, entity.name = name) ∨
    Reports (turn.outcome generator registry).result name

/-- A service adds the names that it takes to those that are recorded. -/
theorem mem_names_outcome_iff : name ∈ (turn.outcome generator registry).registry.names ↔
    name ∈ registry.names ∨ turn.Takes generator registry name :=
  mem_names_runService_iff

theorem mode_outcome : (turn.outcome generator registry).registry.mode = registry.mode :=
  mode_runService

/-- A model is admitted if its own name is free, since no other model of the service has it. -/
theorem admitted_eq_filter : turn.admitted registry =
    turn.models.filter fun entity => registry.shouldGenerate entity.name :=
  Registry.items_submitAll_of_nodup nodup_names_serviceModels

theorem admitted_eq_nil_iff : turn.admitted registry = [] ↔
    ∀ entity ∈ turn.models, registry.shouldGenerate entity.name = false := by
  simp only [admitted_eq_filter, List.filter_eq_nil_iff, Bool.not_eq_true]

end Turn

/-! ### Turns -/

/-- The registry after some services. -/
def registryAfter (generator : Generator ε) (registry : Registry Artifact) (turns : List Turn) :
    Registry Artifact :=
  turns.foldl (fun registry turn => (turn.outcome generator registry).registry) registry

theorem mode_registryAfter : (registryAfter generator registry turns).mode = registry.mode := by
  induction turns generalizing registry with
  | nil => rfl
  | cons turn rest ih => exact ih.trans Turn.mode_outcome

/-- What is recorded after some services are the names that one of them takes. -/
theorem mem_names_registryAfter_iff :
    name ∈ (registryAfter generator registry turns).names ↔ name ∈ registry.names ∨
      ∃ before earlier after, turns = before ++ earlier :: after ∧
        earlier.Takes generator (registryAfter generator registry before) name := by
  induction turns generalizing registry with
  | nil => simp [registryAfter]
  | cons turn rest ih =>
    -- The first service takes a name, or one of the rest does, with what the first one recorded.
    change name ∈ (registryAfter generator (turn.outcome generator registry).registry
      rest).names ↔ _
    rw [ih, Turn.mem_names_outcome_iff, or_assoc]
    refine or_congr_right ⟨?_, ?_⟩
    · rintro (h | ⟨before, earlier, after, rfl, h⟩)
      · exact ⟨[], turn, rest, rfl, h⟩
      · exact ⟨turn :: before, earlier, after, rfl, h⟩
    · rintro ⟨before, earlier, after, heq, h⟩
      cases before with
      | nil =>
        obtain ⟨rfl, rfl⟩ := List.cons.inj heq
        exact Or.inl h
      | cons first before =>
        obtain ⟨rfl, rfl⟩ := List.cons.inj heq
        exact Or.inr ⟨before, earlier, after, rfl, h⟩

/-! ### Steps of a run -/

theorem registry_conclude (state : RunState) (service : Nat) (report : ServiceReport) :
    (state.conclude service report).registry = state.registry := by
  rw [RunState.conclude]
  split
  · rfl
  · rfl

/-- A step of a run leaves the registry that its service leaves, whatever becomes of the files. -/
theorem registry_step (state : RunState) (target : ServiceTarget) :
    (state.step generator (.ok target)).registry =
      (Turn.outcome ⟨state.files, target⟩ generator state.registry).registry := by
  -- The files are written after the service is over, and that asks no registry.
  rw [RunState.step]
  split
  · rfl
  · exact registry_conclude _ _ _

/-! ### Models that are left out -/

/-- A name is refused after some services exactly if one of them takes it. -/
theorem shouldGenerate_registryAfter_eq_false_iff :
    (registryAfter generator (.fresh .once) turns).shouldGenerate name = false ↔
      ∃ before earlier after, turns = before ++ earlier :: after ∧
        earlier.Takes generator (registryAfter generator (.fresh .once) before) name := by
  have hmode : (registryAfter generator (.fresh .once) turns).mode = .once := mode_registryAfter
  have hfresh : name ∉ (Registry.fresh .once : Registry Artifact).names := List.not_mem_nil
  rw [Registry.shouldGenerate_eq_false_iff, and_iff_right hmode, mem_names_registryAfter_iff,
    or_iff_right hfresh]

/-- A service that fails changes what a registry refuses unless it refused all models of it. -/
theorem shouldGenerate_eq_iff_of_error {cause : RunError ε} (hmode : registry.mode = .once)
    (h : (turn.outcome generator registry).result = .error cause) :
    (∀ name, (turn.outcome generator registry).registry.shouldGenerate name =
      registry.shouldGenerate name) ↔ turn.admitted registry = [] := by
  have hnames (name : String) : name ∈ (turn.outcome generator registry).registry.names ↔
      name ∈ registry.names ∨ ∃ entity ∈ turn.models, entity.name = name := by
    rw [Turn.mem_names_outcome_iff, Turn.Takes, h]
    exact or_congr_right (or_iff_left fun ⟨_, hr, _⟩ => absurd hr nofun)
  rw [Turn.admitted_eq_nil_iff]
  constructor
  · intro hsame entity hm
    rw [← hsame, Registry.shouldGenerate_eq_false_iff, Turn.mode_outcome]
    exact ⟨hmode, (hnames _).mpr (Or.inr ⟨entity, hm, rfl⟩)⟩
  · intro hall name
    -- The names of the models are recorded already, so nothing is added.
    have hold : (∃ entity ∈ turn.models, entity.name = name) → name ∈ registry.names := by
      rintro ⟨entity, hm, rfl⟩
      exact (Registry.shouldGenerate_eq_false_iff.mp (hall entity hm)).2
    exact Registry.shouldGenerate_congr Turn.mode_outcome
      ((hnames name).trans (or_iff_left_of_imp hold))

/-- The files of the models that are admitted are reported, unless their paths are taken. -/
theorem reports_of_models {report : ServiceReport} {model : ModelTarget}
    (h : (turn.outcome generator registry).result = .ok report)
    (hmodel : turn.target.model = some model) :
    ∃ written, generator.models (turn.admitted registry) model = .ok written ∧
      ∀ file ∈ written, file.path.text ∈ (admitModels registry turn.models).registry.names ∨
        ∃ kept ∈ report.files, kept.path.text = file.path.text := by
  rw [Turn.outcome, result_runService] at h
  obtain ⟨rendered, hr, hfiles, -⟩ := keep_eq_ok h
  obtain ⟨modelFiles, functionFiles, hg, hsplit⟩ := exists_modelFiles_of_render hmodel hr
  refine ⟨modelFiles, hg, fun file hf => ?_⟩
  -- The path is recorded in the end: it was before, or a file of that path is admitted.
  have hrecorded : file.path.text ∈
      (admitFiles (admitModels registry turn.models).registry rendered.files).registry.names := by
    refine Registry.mem_names_submitAll_iff.mpr (Or.inr ⟨file, ?_, rfl⟩)
    rw [hsplit]
    exact List.mem_append_left _ hf
  rw [hfiles]
  exact Registry.mem_names_submitAll_iff_kept.mp hrecorded

/-- In a run in which the first thing of a name stays, a model of a service is left out exactly if
an earlier service, failed or not, has a model of its name or reports a file with it as its path.  A
service that fails leaves the registry as it was exactly if none of its models is admitted.  If it
does not fail, the files of the admitted models are reported, as far as their paths are free. -/
theorem not_admitted_iff (generator : Generator ε) (turns : List Turn) (turn : Turn) :
    let registry := registryAfter generator (.fresh .once) turns
    let outcome := turn.outcome generator registry
    (∀ entity ∈ turn.models, entity ∉ turn.admitted registry ↔
      ∃ before earlier after, turns = before ++ earlier :: after ∧
        earlier.Takes generator (registryAfter generator (.fresh .once) before) entity.name) ∧
    (∀ cause, outcome.result = .error cause →
      ((∀ name, outcome.registry.shouldGenerate name = registry.shouldGenerate name) ↔
        turn.admitted registry = [])) ∧
    ∀ report model, outcome.result = .ok report → turn.target.model = some model →
      ∃ written, generator.models (turn.admitted registry) model = .ok written ∧
        ∀ file ∈ written, file.path.text ∈ (admitModels registry turn.models).registry.names ∨
          ∃ kept ∈ report.files, kept.path.text = file.path.text := by
  refine ⟨fun entity hm => ?_, fun cause h => ?_, fun report model h hmodel => ?_⟩
  · rw [Turn.admitted_eq_filter, List.mem_filter, and_iff_right hm, Bool.not_eq_true,
      shouldGenerate_registryAfter_eq_false_iff]
  · exact shouldGenerate_eq_iff_of_error mode_registryAfter h
  · exact reports_of_models h hmodel

/-! ### Two services with the same pet -/

/-- A description of pets that says nothing of paths. -/
def petFiles : FileTree :=
  ⟨[("api.json", .file (.text ("\x7b\"openapi\": \"3.0.3\", \"info\": \x7b\"title\": \"T\", " ++
    "\"version\": \"1\"\x7d, \"components\": \x7b\"schemas\": \x7b\"Pet\": \x7b\"type\": " ++
    "\"object\"\x7d\x7d\x7d\x7d")))]⟩

/-- The model of a pet. -/
def pet : Entity :=
  .object ⟨"Pet", "Pet", none, [], none, [], []⟩

/-- Pets in a namespace. -/
def petModels (rootNamespace folder : String) : ModelTarget :=
  ⟨rootNamespace, ⟨folder⟩, .plain, [], [], [], 3⟩

/-- Functions for pets in a namespace. -/
def petFunctions : FunctionTarget :=
  ⟨"F", "F", ⟨"./f"⟩, "FFunctions", "IFService", "F", ⟨"./f"⟩, "\x7bBASE\x7d", ["A"], .plain, 3⟩

/-- A service with pets and functions. -/
def petService : Turn :=
  ⟨petFiles, ⟨0, ⟨"./api.json"⟩, some (petModels "A" "./a"), some petFunctions⟩⟩

/-- A service that has nothing but pets. -/
def petModelService : Turn :=
  ⟨petFiles, ⟨1, ⟨"./api.json"⟩, some (petModels "B" "./b"), none⟩⟩

theorem exists_petDocument : ∃ document components,
    (openDocument petFiles ⟨"./api.json"⟩).document = .ok document ∧
      document.components = some components ∧ document.paths = none ∧
      (Model.resolveModels components.schemas .plain).models = ⟨[pet], []⟩ := by
  obtain ⟨document, hd, h⟩ := @exists_openDocument petFiles ⟨"./api.json"⟩ 1
    (fun document => document.paths.isNone && document.components.any fun components =>
      (Model.resolveModels components.schemas .plain).models = ⟨[pet], []⟩) (by decide +kernel)
  obtain ⟨hp, h⟩ := Bool.and_eq_true_iff.mp h
  obtain ⟨components, hc, hm⟩ := (Option.any_eq_true _ _).mp h
  exact ⟨document, components, hd, hc, Option.isNone_iff_eq_none.mp hp, of_decide_eq_true hm⟩

theorem models_petService : petService.models = [pet] := by
  obtain ⟨document, components, hd, hc, -, hm⟩ := exists_petDocument
  have hmodels := @serviceModels_of_openDocument petFiles petService.target document components
    (petModels "A" "./a") hd rfl hc
  exact hmodels.trans (congrArg Resolution.items hm)

theorem models_petModelService : petModelService.models = [pet] := by
  obtain ⟨document, components, hd, hc, -, hm⟩ := exists_petDocument
  have hmodels := @serviceModels_of_openDocument petFiles petModelService.target document components
    (petModels "B" "./b") hd rfl hc
  exact hmodels.trans (congrArg Resolution.items hm)

theorem result_petService (registry : Registry Artifact) :
    (petService.outcome CSharp.generator registry).result = .error (.missingSection .paths) := by
  obtain ⟨document, components, hd, hc, hp, -⟩ := exists_petDocument
  exact result_of_missing_paths hd rfl hc rfl rfl hp

theorem render_petModelService (admitted : List Entity) :
    render CSharp.generator petFiles petModelService.target admitted =
      .ok ⟨CSharp.modelFiles admitted (petModels "B" "./b") ++ [], 0⟩ := by
  obtain ⟨document, components, hd, hc, -, hm⟩ := exists_petDocument
  have hoptions : (petModels "B" "./b").options = .plain := rfl
  have hrender := @render_of_no_functions _ CSharp.generator petFiles petModelService.target
    document components (petModels "B" "./b") admitted _ hd rfl hc rfl rfl
  rw [hoptions, hm] at hrender
  exact hrender

theorem result_petModelService (registry : Registry Artifact) :
    (petModelService.outcome CSharp.generator registry).result =
      .ok ⟨(admitFiles (admitModels registry [pet]).registry
        (CSharp.modelFiles (admitModels registry [pet]).items (petModels "B" "./b") ++ [])).items,
        0⟩ := by
  rw [Turn.outcome, result_runService]
  change (keep (admitModels registry petModelService.models).registry
    (render _ petFiles _ (admitModels registry petModelService.models).items)).1 = _
  rw [models_petModelService, render_petModelService]
  rfl

/-- The service with functions fails, and its pet is left out of the service that has nothing
else. -/
theorem admitted_petModelService :
    let registry := registryAfter CSharp.generator (.fresh .once) [petService]
    (petService.outcome CSharp.generator (.fresh .once)).result = .error (.missingSection .paths) ∧
      petModelService.models = [pet] ∧ petModelService.admitted registry = [] ∧
      (petModelService.outcome CSharp.generator registry).result = .ok ⟨[], 0⟩ := by
  intro registry
  have hrefused : registry.shouldGenerate "Pet" = false :=
    shouldGenerate_registryAfter_eq_false_iff.mpr
      ⟨[], petService, [], rfl, Or.inl ⟨pet, by rw [models_petService]; simp, rfl⟩⟩
  have hadmitted : petModelService.admitted registry = [] := by
    rw [Turn.admitted_eq_nil_iff, models_petModelService]
    exact List.forall_mem_singleton.mpr hrefused
  refine ⟨result_petService _, models_petModelService, hadmitted, ?_⟩
  rw [Turn.admitted, models_petModelService] at hadmitted
  rw [result_petModelService, hadmitted]
  rfl

/-- A pet is left out after a service that fails, and reported by a service that has its turn
first. -/
theorem not_admitted_pet :
    pet ∉ petModelService.admitted (registryAfter CSharp.generator (.fresh .once) [petService]) ∧
      ¬(∀ name, (petService.outcome CSharp.generator (.fresh .once)).registry.shouldGenerate name =
        (Registry.fresh .once : Registry Artifact).shouldGenerate name) ∧
      ∃ report, (petModelService.outcome CSharp.generator (.fresh .once)).result = .ok report ∧
        ∃ kept ∈ report.files, kept.path.text = "./b/Pet.generated.cs" := by
  obtain ⟨hleft, -, -⟩ := not_admitted_iff CSharp.generator [petService] petModelService
  obtain ⟨-, herror, -⟩ := not_admitted_iff CSharp.generator [] petService
  obtain ⟨-, -, hok⟩ := not_admitted_iff CSharp.generator [] petModelService
  refine ⟨?_, ?_, ?_⟩
  · refine (hleft pet (by rw [models_petModelService]; simp)).mpr ⟨[], petService, [], rfl, ?_⟩
    exact Or.inl ⟨pet, by rw [models_petService]; simp, rfl⟩
  · refine fun hsame => absurd ((herror _ (result_petService _)).mp hsame) ?_
    rw [Turn.admitted, models_petService]
    decide +kernel
  · obtain ⟨written, hw, hall⟩ := hok _ _ (result_petModelService _) rfl
    rw [Turn.admitted, models_petModelService] at hw
    rw [models_petModelService] at hall
    have hpaths : (CSharp.modelFiles [pet] (petModels "B" "./b")).map (fun file => file.path.text) =
        ["./b/Pet.generated.cs"] := by decide +kernel
    obtain ⟨file, hf, hpath⟩ := List.mem_map.mp (hpaths ▸ List.mem_singleton_self _)
    have hfree : "./b/Pet.generated.cs" ∉
        (admitModels (.fresh .once : Registry Artifact) [pet]).registry.names := by decide +kernel
    obtain rfl := Except.ok.inj hw
    refine ⟨_, result_petModelService _, ?_⟩
    rw [← hpath] at hfree ⊢
    exact (hall file hf).resolve_left hfree

end FunctionForge.Run
