import FunctionForge.Config.Resolve
import FunctionForge.Proofs.Result

/-!
# Layers of settings

A setting may be given in a block of a service, for the service, and for the run, and the first of
these that is given counts (`firstSet`), also if it is empty.  Before any setting is used it is
checked whether the service has all that it needs: `requirements` lists that in order, and a step
that `Checks` a list fails with the error of the first requirement that is not met.  So a service
has targets exactly if it meets its requirements, and then they are written as its blocks and the
layers around them say; what the other services of the run are makes no difference
(`layered_targets`).
-/

namespace FunctionForge.Config

open Files (Path)

variable {α β : Type}

/-- The first value that is set in one of several layers, from the inside out. -/
def firstSet (layers : List (Option α)) (value : α) : α :=
  (layers.findSome? id).getD value

/-- The layers of a service and of the run are merged before a block is looked at. -/
theorem layered_or (block service run : Option α) (value : α) :
    layered block (service.or run) value = firstSet [block, service, run] value := by
  cases block with
  | some given => rfl
  | none =>
    cases service with
    | some given => rfl
    | none =>
      cases run with
      | some given => rfl
      | none => rfl

/-- Two layers over a default are three layers. -/
theorem or_getD (service run : Option α) (value : α) :
    (service.or run).getD value = firstSet [service, run] value := by
  have hblock : firstSet [none, service, run] value = firstSet [service, run] value := rfl
  rw [← hblock, ← layered_or]
  rfl

/-! ### Requirements -/

/-- Something that a service needs, and what is reported if it does not have it. -/
structure Requirement where
  met : Bool
  error : ConfigError

/-- The error of the first requirement that is not met. -/
def firstUnmet (requirements : List Requirement) : Option ConfigError :=
  (requirements.find? fun requirement => !requirement.met).map Requirement.error

theorem firstUnmet_eq_none_iff {requirements : List Requirement} :
    firstUnmet requirements = none ↔ ∀ requirement ∈ requirements, requirement.met = true := by
  simp [firstUnmet]

/-- Requirements are checked in their order. -/
theorem firstUnmet_append (first rest : List Requirement) :
    firstUnmet (first ++ rest) = (firstUnmet first).or (firstUnmet rest) := by
  unfold firstUnmet
  rw [List.find?_append, Option.map_or]

/-- If all requirements are met, a step comes to a result of which something holds; if not, it fails
with the error of the first one that is not met. -/
def Checks (requirements : List Requirement) (P : α → Prop) (step : Except ConfigError α) : Prop :=
  match firstUnmet requirements with
  | none => ∃ a, step = .ok a ∧ P a
  | some cause => step = .error cause

namespace Checks

variable {requirements first rest : List Requirement} {P : α → Prop} {Q : β → Prop}
  {step : Except ConfigError α}

theorem pure {a : α} (h : P a) : Checks [] P (Except.ok a) :=
  ⟨a, rfl, h⟩

/-- A step that asks for one thing only. -/
theorem guard {p : Prop} [Decidable p] {cause : ConfigError} (a : α) :
    Checks [⟨decide p, cause⟩] (fun result => result = a)
      (if p then .ok a else .error cause) := by
  by_cases h : p
  · simp [Checks, firstUnmet, h]
  · simp [Checks, firstUnmet, h]

/-- The requirements of one step come before those of the next. -/
theorem bind {next : α → Except ConfigError β} (h : Checks first P step)
    (hnext : ∀ a, P a → Checks rest Q (next a)) : Checks (first ++ rest) Q (step >>= next) := by
  unfold Checks at h ⊢
  rw [firstUnmet_append]
  cases hf : firstUnmet first with
  | some cause =>
    rw [hf] at h
    obtain rfl : step = .error cause := h
    rfl
  | none =>
    rw [hf] at h
    obtain ⟨a, rfl, ha⟩ := h
    exact hnext a ha

/-- What is done with a result checks nothing further. -/
theorem map {f : α → β} (h : Checks requirements P step) (hf : ∀ a, P a → Q (f a)) :
    Checks requirements Q (f <$> step) := by
  -- A change of the result is a further step that needs nothing.
  have hstep : Checks (requirements ++ []) Q (step >>= fun a => .ok (f a)) :=
    h.bind fun a ha => pure (hf a ha)
  rw [List.append_nil] at hstep
  cases step with
  | error cause => exact hstep
  | ok a => exact hstep

/-- What a part of a service needs is only asked for if the service has the part. -/
theorem mapM {part : Option α} {needs : α → List Requirement} {R : α → β → Prop}
    {resolve : α → Except ConfigError β} (h : ∀ a, Checks (needs a) (R a) (resolve a)) :
    Checks ((part.map needs).getD []) (Option.Rel R part) (part.mapM resolve) := by
  cases part with
  | none => exact pure .none
  | some a =>
    rw [Option.mapM_some]
    exact (h a).map fun b hb => .some hb

/-- A step that checks requirements fails with the first one that is not met. -/
theorem eq_error_iff (h : Checks requirements P step) {cause : ConfigError} :
    step = .error cause ↔ firstUnmet requirements = some cause := by
  unfold Checks at h
  cases hf : firstUnmet requirements with
  | some other =>
    rw [hf] at h
    obtain rfl : step = .error other := h
    rw [Except.error.injEq, Option.some.injEq]
  | none =>
    rw [hf] at h
    obtain ⟨a, rfl, -⟩ := h
    exact iff_of_false nofun nofun

/-- It succeeds exactly if all of them are met. -/
theorem exists_eq_ok_iff (h : Checks requirements P step) :
    (∃ a, step = .ok a) ↔ ∀ requirement ∈ requirements, requirement.met = true := by
  rw [← firstUnmet_eq_none_iff]
  unfold Checks at h
  cases hf : firstUnmet requirements with
  | some other =>
    rw [hf] at h
    obtain rfl : step = .error other := h
    exact iff_of_false nofun nofun
  | none =>
    rw [hf] at h
    obtain ⟨a, ha, -⟩ := h
    exact iff_of_true ⟨a, ha⟩ rfl

theorem of_eq_ok (h : Checks requirements P step) {a : α} (ha : step = .ok a) : P a := by
  have hmet := firstUnmet_eq_none_iff.mpr (h.exists_eq_ok_iff.mp ⟨a, ha⟩)
  unfold Checks at h
  rw [hmet] at h
  obtain ⟨b, hb, hP⟩ := h
  rw [ha] at hb
  rwa [Except.ok.inj hb]

end Checks

/-! ### What a service needs -/

/-- A service has to set a key. -/
def keyRequirement (index : Nat) (key : String) (given : Option α) : Requirement :=
  ⟨given.isSome, .missingKey index key⟩

/-- The version that counts for a service in a run. -/
def effectiveVersion (service : Service) (run : Settings) : Nat :=
  firstSet [service.settings.version, run.version] 3

/-- What the models of a service need, in order. -/
def ModelBlock.requirements (index : Nat) (block : ModelBlock) : List Requirement :=
  [keyRequirement index "model.namespace" block.rootNamespace,
    keyRequirement index "model.targetFolder" block.folder]

/-- What the functions of a service need, in order. -/
def FunctionBlock.requirements (index : Nat) (block : FunctionBlock) : List Requirement :=
  [keyRequirement index "function.name" block.name,
    keyRequirement index "function.namespace" block.rootNamespace,
    keyRequirement index "function.targetFolder" block.folder]

/-- What a service of a run needs, in order. -/
def Service.requirements (service : Service) (index : Nat) (run : Settings) : List Requirement :=
  let version := effectiveVersion service run
  [⟨[1, 2, 3].contains version, .unsupportedVersion version⟩] ++
    ([keyRequirement index "apiPath" service.apiPath] ++
      ((service.model.map (ModelBlock.requirements index)).getD [] ++
        (service.function.map (FunctionBlock.requirements index)).getD []))

/-! ### What the layers say -/

/-- The models of a service are written as its block and the layers around it say. -/
structure ModelBlock.Layered (block : ModelBlock) (service : Service) (run : Settings)
    (base : Path) (target : ModelTarget) : Prop where
  rootNamespace : block.rootNamespace = some target.rootNamespace
  folder : block.folder.map base.join = some target.folder
  lead : target.naming.lead = firstSet [block.lead, service.settings.lead, run.lead] ""
  trail : target.naming.trail = firstSet [block.trail, service.settings.trail, run.trail] ""
  excludes : target.excludes = block.excludes
  includes : target.includes = block.includes
  imports : target.imports = firstSet [block.imports, service.settings.imports, run.imports] []
  version : target.version = effectiveVersion service run

/-- The namespace of the models, if code in another one does not import it yet. -/
def modelImport (rootNamespace : String) (imports : List String) :
    Option ModelTarget → List String
  | none => []
  | some model =>
    if model.rootNamespace ≠ rootNamespace ∧ model.rootNamespace ∉ imports then
      [model.rootNamespace]
    else []

/-- How the functions of a service name classes: as its models do, or else as the service and the
run say. -/
def classNaming (service : Service) (run : Settings) : Option ModelTarget → Naming.ClassNaming
  | none =>
    ⟨firstSet [service.settings.lead, run.lead] "", firstSet [service.settings.trail, run.trail] ""⟩
  | some model => model.naming

/-- The functions of a service with these models are written as its block and the layers around it
say. -/
structure FunctionBlock.Layered (block : FunctionBlock) (service : Service) (run : Settings)
    (base : Path) (model : Option ModelTarget) (target : FunctionTarget) : Prop where
  name : block.name = some target.name
  rootNamespace : block.rootNamespace = some target.rootNamespace
  folder : block.folder.map base.join = some target.folder
  functionsName : target.functionsName = block.functionsName.getD (target.name ++ "Functions")
  interfaceName : target.interfaceName = block.interfaceName.getD ("I" ++ target.name ++ "Service")
  interfaceNamespace : target.interfaceNamespace =
    block.interfaceNamespace.getD target.rootNamespace
  interfaceFolder : target.interfaceFolder =
    (block.interfaceFolder.map base.join).getD target.folder
  boilerplate : target.boilerplate =
    firstSet [block.boilerplate, service.settings.boilerplate, run.boilerplate] "\x7bBASE\x7d"
  imports :
    let given := firstSet [block.imports, service.settings.imports, run.imports] []
    target.imports = given ++ modelImport target.rootNamespace given model
  naming : target.naming = classNaming service run model
  version : target.version = effectiveVersion service run

/-- All that is generated for a service is written as its blocks and the layers around them say. -/
structure Service.Layered (service : Service) (index : Nat) (run : Settings) (base : Path)
    (target : ServiceTarget) : Prop where
  index : target.index = index
  apiPath : service.apiPath.map base.join = some target.apiPath
  model : Option.Rel (fun block model => block.Layered service run base model)
    service.model target.model
  function : Option.Rel (fun block function => block.Layered service run base target.model function)
    service.function target.function

/-! ### Steps -/

section

variable {index : Nat} {run : Settings} {base : Path} {service : Service}

theorem checks_demand (index : Nat) (key : String) (given : Option α) :
    Checks [keyRequirement index key given] (fun value => given = some value)
      (demand index key given) := by
  cases given with
  | none => rfl
  | some value => exact ⟨value, rfl, rfl⟩

theorem checks_checkVersion (service : Service) (run : Settings) :
    let version := effectiveVersion service run
    Checks [⟨[1, 2, 3].contains version, .unsupportedVersion version⟩]
      (fun result => result = version) (checkVersion (service.settings.over run).version) := by
  intro version
  have hversion : (service.settings.over run).version.getD defaultVersion = version :=
    or_getD service.settings.version run.version defaultVersion
  have hknown : [1, 2, 3].contains version = decide (1 ≤ version ∧ version ≤ 3) := by
    rw [Bool.eq_iff_iff, List.contains_iff_mem, decide_eq_true_iff]
    simp only [List.mem_cons, List.not_mem_nil, or_false]
    omega
  rw [checkVersion, hversion, hknown]
  exact .guard version

/-- The block of models checks what it requires, and is layered as it says. -/
theorem checks_modelBlock (block : ModelBlock) :
    Checks (block.requirements index) (fun model => block.Layered service run base model)
      (block.resolve index (service.settings.over run) (effectiveVersion service run) base) := by
  refine (checks_demand index "model.namespace" block.rootNamespace).bind fun root hroot => ?_
  refine (checks_demand index "model.targetFolder" block.folder).bind fun folder hfolder => ?_
  exact .pure {
    rootNamespace := hroot
    folder := by rw [hfolder]; rfl
    lead := layered_or ..
    trail := layered_or ..
    excludes := rfl
    includes := rfl
    imports := layered_or ..
    version := rfl }

/-- Without models, the functions are written as their block says. -/
theorem checks_functionBlock (block : FunctionBlock) :
    Checks (block.requirements index) (fun function => block.Layered service run base none function)
      (block.resolve index (service.settings.over run) (effectiveVersion service run) base) := by
  refine (checks_demand index "function.name" block.name).bind fun name hname => ?_
  refine (checks_demand index "function.namespace" block.rootNamespace).bind fun root hroot => ?_
  refine (checks_demand index "function.targetFolder" block.folder).bind fun folder hfolder => ?_
  exact .pure {
    name := hname
    rootNamespace := hroot
    folder := by rw [hfolder]; rfl
    functionsName := rfl
    interfaceName := rfl
    interfaceNamespace := rfl
    interfaceFolder := by cases block.interfaceFolder <;> rfl
    boilerplate := layered_or ..
    imports := by
      intro given
      change layered block.imports (service.settings.over run).imports [] = given ++ []
      rw [List.append_nil]
      exact layered_or ..
    naming := by
      rw [classNaming, ← or_getD, ← or_getD]
      rfl
    version := rfl }

/-- With models, the functions import their namespace and name classes as they do. -/
theorem FunctionBlock.Layered.seeModels {block : FunctionBlock} {function : FunctionTarget}
    (h : block.Layered service run base none function) (model : ModelTarget) :
    block.Layered service run base (some model) (seeModels function model) where
  name := h.name
  rootNamespace := h.rootNamespace
  folder := h.folder
  functionsName := h.functionsName
  interfaceName := h.interfaceName
  interfaceNamespace := h.interfaceNamespace
  interfaceFolder := h.interfaceFolder
  boilerplate := h.boilerplate
  imports := by
    intro given
    have hgiven : function.imports = given := by
      rw [h.imports]
      exact List.append_nil given
    -- Nothing is added if the namespace is the functions' own or is given already.
    simp only [Config.seeModels, modelImport, hgiven, List.contains_iff_mem]
    by_cases hroot : function.rootNamespace = model.rootNamespace
    · simp [hroot]
    · by_cases hmem : model.rootNamespace ∈ given
      · simp [hmem]
      · simp [hroot, hmem, Ne.symm hroot]
  naming := rfl
  version := h.version

theorem seeModels_of_rel {block : Option FunctionBlock} {function : Option FunctionTarget}
    (h : Option.Rel (fun block function => block.Layered service run base none function)
      block function) (model : ModelTarget) :
    Option.Rel (fun block function => block.Layered service run base (some model) function) block
      (function.map (seeModels · model)) := by
  cases h with
  | none => exact .none
  | some h => exact .some (h.seeModels model)

/-- A service checks what it and its blocks require, in order. -/
theorem checks_service (service : Service) (index : Nat) (run : Settings) (base : Path) :
    Checks (service.requirements index run) (service.Layered index run base)
      (service.resolve index run base) := by
  refine (checks_checkVersion service run).bind fun version hversion => ?_
  subst hversion
  refine (checks_demand index "apiPath" service.apiPath).bind fun apiPath hapi => ?_
  refine (Checks.mapM fun block => checks_modelBlock block).bind fun model hmodel => ?_
  refine (Checks.mapM fun block => checks_functionBlock block).map fun function hfunction => ?_
  exact {
    index := rfl
    apiPath := by rw [hapi]; rfl
    model := hmodel
    function := by
      cases model with
      | none => exact hfunction
      | some model => exact seeModels_of_rel hfunction model }

end

/-! ### Targets of a run -/

/-- Each service of a run has a result of its own, which the other services of the run have no part
in.  It is an error, that of the first requirement that the service does not meet, or else targets
that are written as the blocks of the service and the layers around them say. -/
theorem layered_targets (config : Config) (base : Path) :
    (config.targets base).length = config.services.length ∧
    ∀ (index : Nat) (service : Service), config.services[index]? = some service →
      ∃ result : Except ConfigError ServiceTarget, (config.targets base)[index]? = some result ∧
        (∀ other : Config, other.settings = config.settings →
          other.services[index]? = some service → (other.targets base)[index]? = some result) ∧
        (∀ cause, result = .error cause ↔
          firstUnmet (service.requirements index config.settings) = some cause) ∧
        ((∃ target, result = .ok target) ↔
          ∀ requirement ∈ service.requirements index config.settings, requirement.met = true) ∧
        ∀ target, result = .ok target → service.Layered index config.settings base target := by
  -- What a service comes to is computed from the service, its place and the settings of the run.
  have hget (other : Config) {index : Nat} {service : Service}
      (h : other.services[index]? = some service) :
      (other.targets base)[index]? = some (service.resolve index other.settings base) := by
    rw [Config.targets, List.getElem?_map, List.getElem?_zipIdx, h]
    simp
  have hlength : (config.targets base).length = config.services.length := by
    rw [Config.targets, List.length_map, List.length_zipIdx]
  refine ⟨hlength, fun index service hservice => ?_⟩
  have hchecks := checks_service service index config.settings base
  refine ⟨_, hget config hservice, fun other hsettings hother => ?_, fun cause =>
    hchecks.eq_error_iff, hchecks.exists_eq_ok_iff, fun target => hchecks.of_eq_ok⟩
  rw [hget other hother, hsettings]

theorem exists_of_rel {R : α → β → Prop} {part : Option α} {result : Option β}
    (h : Option.Rel R part result) {a : α} (ha : part = some a) :
    ∃ b, result = some b ∧ R a b := by
  subst ha
  cases h with
  | some h => exact ⟨_, rfl, h⟩

/-- A run with settings for all services. One of the services has some of its own. -/
def shopsConfig : Config where
  settings := { Settings.none with
    lead := some "Run", trail := some "Dto", imports := some ["Run.Import"] }
  services := [
    { apiPath := some "a.yml"
      settings := { Settings.none with lead := some "Svc" }
      model := some ⟨some "A", some "out", none, some "Model", [], [], none⟩
      function := some
        ⟨some "A", some "Shop", some "out", none, none, none, none, none, some ["Shared"]⟩ },
    { apiPath := some "b.yml"
      settings := .none
      model := some ⟨some "B", some "out", none, none, [], [], some []⟩
      function := none }]

/-- What is set further inside counts, also if it is empty; functions import the namespace of their
models behind what they are given. -/
theorem layered_targets_shops : ∃ first second modelA functionA modelB,
    (shopsConfig.targets .here)[0]? = some (.ok first) ∧
      (shopsConfig.targets .here)[1]? = some (.ok second) ∧
      first.model = some modelA ∧ first.function = some functionA ∧ second.model = some modelB ∧
      modelA.naming = ⟨"Svc", "Model"⟩ ∧ modelA.imports = ["Run.Import"] ∧
      functionA.imports = ["Shared", "A"] ∧ functionA.naming = modelA.naming ∧
      modelB.naming = ⟨"Run", "Dto"⟩ ∧ modelB.imports = [] := by
  obtain ⟨-, hall⟩ := layered_targets shopsConfig .here
  obtain ⟨_, hfirst, -, -, hok, hlayered⟩ := hall 0 _ rfl
  obtain ⟨first, rfl⟩ := hok.mpr (by decide)
  obtain ⟨_, hsecond, -, -, hok', hlayered'⟩ := hall 1 _ rfl
  obtain ⟨second, rfl⟩ := hok'.mpr (by decide)
  obtain ⟨modelA, hmodelA, hA⟩ := exists_of_rel (hlayered first rfl).model rfl
  obtain ⟨functionA, hfunctionA, hF⟩ := exists_of_rel (hlayered first rfl).function rfl
  obtain ⟨modelB, hmodelB, hB⟩ := exists_of_rel (hlayered' second rfl).model rfl
  rw [hmodelA] at hF
  have himports : functionA.imports = ["Shared", "A"] := by
    have hroot : "A" = modelA.rootNamespace := Option.some.inj hA.rootNamespace
    have hother : "Shop" = functionA.rootNamespace := Option.some.inj hF.rootNamespace
    rw [hF.imports, ← hother, modelImport, ← hroot]
    decide
  refine ⟨first, second, modelA, functionA, modelB, hfirst, hsecond, hmodelA, hfunctionA, hmodelB,
    ?_, hA.imports, himports, hF.naming, ?_, hB.imports⟩
  · exact congrArg₂ Naming.ClassNaming.mk hA.lead hA.trail
  · exact congrArg₂ Naming.ClassNaming.mk hB.lead hB.trail

end FunctionForge.Config
