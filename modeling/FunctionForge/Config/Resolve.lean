import FunctionForge.Config.Basic
import FunctionForge.Target

/-!
# Targets of a configuration

Finds out what each service of a configuration generates, and where. A setting that is given further
inside counts, even if it is empty. The functions of a service import the namespace of its models
and name classes as its models do.

A service that cannot be used is an error of its own: the version is looked at first, then the
document, the models and the functions.
-/

namespace FunctionForge

open Files (Path)
open Naming (ClassNaming)

namespace Config

/-! ### Layers -/

/-- What is set further inside, or else further outside, or else the default. -/
def layered {α : Type} (inner outer : Option α) (value : α) : α :=
  (inner.or outer).getD value

/-- The settings that a service has in a run. -/
def Settings.over (inner outer : Settings) : Settings where
  version := inner.version.or outer.version
  duplicates := inner.duplicates.or outer.duplicates
  lead := inner.lead.or outer.lead
  trail := inner.trail.or outer.trail
  imports := inner.imports.or outer.imports
  boilerplate := inner.boilerplate.or outer.boilerplate

/-- The version that counts if none is set. -/
def defaultVersion : Nat := 3

/-- The version that is set, if there is such a version. -/
def checkVersion (version : Option Nat) : Except ConfigError Nat :=
  let number := version.getD defaultVersion
  if 1 ≤ number ∧ number ≤ 3 then .ok number else .error (.unsupportedVersion number)

/-- The boilerplate that counts if none is set: nothing stands around a function's body. -/
def bareBoilerplate : String := "\x7bBASE\x7d"

/-! ### Services -/

/-- A key that has to be set. -/
def demand {α : Type} (service : Nat) (key : String) : Option α → Except ConfigError α
  | some value => .ok value
  | none => .error (.missingKey service key)

namespace ModelBlock

/-- Where and how the models of a service are written. -/
def resolve (block : ModelBlock) (service : Nat) (settings : Settings) (version : Nat)
    (base : Path) : Except ConfigError ModelTarget := do
  let rootNamespace ← demand service "model.namespace" block.rootNamespace
  let folder ← demand service "model.targetFolder" block.folder
  return {
    rootNamespace
    folder := base.join folder
    naming := ⟨layered block.lead settings.lead "", layered block.trail settings.trail ""⟩
    excludes := block.excludes
    includes := block.includes
    imports := layered block.imports settings.imports []
    version }

end ModelBlock

namespace FunctionBlock

/-- Where and how the functions of a service are written. -/
def resolve (block : FunctionBlock) (service : Nat) (settings : Settings) (version : Nat)
    (base : Path) : Except ConfigError FunctionTarget := do
  let name ← demand service "function.name" block.name
  let rootNamespace ← demand service "function.namespace" block.rootNamespace
  let folder ← demand service "function.targetFolder" block.folder
  return {
    name
    rootNamespace
    folder := base.join folder
    functionsName := block.functionsName.getD (name ++ "Functions")
    interfaceName := block.interfaceName.getD ("I" ++ name ++ "Service")
    interfaceNamespace := block.interfaceNamespace.getD rootNamespace
    interfaceFolder := base.join (block.interfaceFolder.getD folder)
    boilerplate := layered block.boilerplate settings.boilerplate bareBoilerplate
    imports := layered block.imports settings.imports []
    naming := ⟨settings.lead.getD "", settings.trail.getD ""⟩
    version }

end FunctionBlock

/-- The functions of a service that has models. -/
def seeModels (function : FunctionTarget) (model : ModelTarget) : FunctionTarget :=
  let seen := function.rootNamespace = model.rootNamespace ∨
    function.imports.contains model.rootNamespace
  { function with
    naming := model.naming
    imports := if seen then function.imports else function.imports ++ [model.rootNamespace] }

/-- What a service generates. Paths are relative to `base`. -/
def Service.resolve (service : Service) (index : Nat) (run : Settings) (base : Path) :
    Except ConfigError ServiceTarget := do
  let settings := service.settings.over run
  let version ← checkVersion settings.version
  let apiPath ← demand index "apiPath" service.apiPath
  let model ← service.model.mapM fun block => block.resolve index settings version base
  let function ← service.function.mapM fun block => block.resolve index settings version base
  return {
    index
    apiPath := base.join apiPath
    model
    function :=
      match model with
      | some model => function.map (seeModels · model)
      | none => function }

/-! ### Runs -/

/-- What happens to names that come up twice in a run. -/
def mode (config : Config) : Except ConfigError DuplicateMode :=
  match config.settings.duplicates with
  | none => .ok default
  | some text =>
    match DuplicateMode.ofText? text with
    | some mode => .ok mode
    | none => .error (.unknownMode text)

/-- Checks the settings that all services depend on. -/
def validate (config : Config) : Except ConfigError Unit := do
  let _ ← config.mode
  let _ ← checkVersion config.settings.version

/-- What the services generate, each on its own. -/
def targets (config : Config) (base : Path) : List (Except ConfigError ServiceTarget) :=
  config.services.zipIdx.map fun (service, index) => service.resolve index config.settings base

end Config

end FunctionForge
