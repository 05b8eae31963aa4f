import FunctionForge.Endpoint.Resolve
import FunctionForge.Generator
import FunctionForge.Registry
import FunctionForge.Run.Open

/-!
# Running a service

Generates the files of one service. The models come first, and the functions see the same classes
as they do; definitions that cannot be used are counted and passed over. What another service of the
run has generated is remembered in a registry, which is asked for the name of every model and for
the path of every file.

A service may also fail as a whole. What it reported and recorded before stays.
-/

namespace FunctionForge.Run

open Document (ApiDocument)
open Endpoint (endpointNotices resolveEndpoints)
open Files (FileTree)

/-- The sections of a document that services need. -/
inductive DocumentSection where
  | components
  | paths
  deriving Repr, DecidableEq

/-- The name of a section. -/
def DocumentSection.text : DocumentSection → String
  | .components => "components"
  | .paths => "paths"

/-- Why a service fails as a whole. `ε` is why its files cannot be generated. -/
inductive RunError (ε : Type) where
  | document (cause : OpenError)
  | missingSection (part : DocumentSection)
  | generation (cause : ε)
  deriving Repr, DecidableEq

namespace RunError

variable {ε : Type}

/-- The message of an error. -/
def message (generation : ε → String) : RunError ε → String
  | .document cause => cause.message
  | .missingSection part => "document has no \x60" ++ part.text ++ "\x60 section"
  | .generation cause => generation cause

/-- What lies behind an error, from the outside in. -/
def causes : RunError ε → List String
  | .document cause => cause.causes
  | _ => []

end RunError

/-- What a registry compares: a model, or the text of a file. -/
inductive Artifact where
  | model (entity : Model.Entity)
  | text (content : String)
  deriving Repr, DecidableEq

/-- What a service generated. -/
structure ServiceReport where
  files : List GeneratedFile
  /-- How many definitions were passed over. -/
  failures : Nat
  deriving Repr, DecidableEq

/-- Whether no definition was passed over. -/
def ServiceReport.isClean (report : ServiceReport) : Bool :=
  report.failures == 0

/-- What a run has recorded and reported so far. -/
structure Progress where
  registry : Registry Artifact
  notices : List Notice

/-- A step of running a service. What it recorded and reported stays if a later step fails. -/
abbrev ServiceRun (ε : Type) := ExceptT (RunError ε) (StateM Progress)

namespace ServiceRun

variable {ε β : Type}

/-- Reports notices. -/
def report (notices : List Notice) : ServiceRun ε Unit :=
  modify fun progress => { progress with notices := progress.notices ++ notices }

/-- The items that the registry admits. -/
def submitAll (name : β → String) (artifact : β → Artifact) (items : List β) :
    ServiceRun ε (List β) := do
  let admission := (← get).registry.submitAll name artifact items
  modify fun progress => { progress with registry := admission.registry }
  report admission.notices
  return admission.items

/-- The files that a generator writes. -/
def generated (files : Except ε (List GeneratedFile)) : ServiceRun ε (List GeneratedFile) :=
  match files with
  | .ok files => pure files
  | .error cause => throw (.generation cause)

/-- Reports the definitions of a service that are passed over. -/
def reportFailures (service : Nat) (failures : List DefinitionError) : ServiceRun ε Unit :=
  report (failures.map (.skippedDefinition service))

/-- Opens the document of a service. -/
def opened (files : FileTree) (target : ServiceTarget) : ServiceRun ε ApiDocument := do
  let opened := openDocument files target.apiPath
  report opened.notices
  match opened.document with
  | .ok document => return document
  | .error cause => throw (.document cause)

/-- Generates the models of a service. -/
def models (generator : Generator ε) (document : ApiDocument) (service : Nat)
    (target : ModelTarget) : ServiceRun ε (KnownTypes × ServiceReport) := do
  let some components := document.components | throw (.missingSection .components)
  let resolution := Model.resolveModels components.schemas target.options
  report (Model.modelNotices components.schemas target.options)
  reportFailures service resolution.models.failures
  let admitted ← submitAll Model.Entity.name Artifact.model resolution.models.items
  let files ← generated (generator.models admitted target)
  return (resolution.known, ⟨files, resolution.models.failures.length⟩)

/-- The types that the functions of a service know if it has no models: all schemas, with classes
named as the functions name them. -/
def knownWithoutModels (document : ApiDocument) (target : FunctionTarget) : KnownTypes :=
  match document.components with
  | some components => KnownTypes.scan components.schemas target.naming fun _ => true
  | none => .empty

/-- Generates the functions of a service. -/
def functions (generator : Generator ε) (document : ApiDocument) (service : Nat)
    (known : KnownTypes) (target : FunctionTarget) : ServiceRun ε ServiceReport := do
  let some paths := document.paths | throw (.missingSection .paths)
  let endpoints := resolveEndpoints known document.schemas paths
  report (endpointNotices known document.schemas paths)
  reportFailures service endpoints.failures
  report (generator.functionNotices endpoints.items target)
  let files ← generated (generator.functions endpoints.items target)
  return ⟨files, endpoints.failures.length⟩

/-- Generates all that a service has. -/
def service (files : FileTree) (generator : Generator ε) (target : ServiceTarget) :
    ServiceRun ε ServiceReport := do
  let document ← opened files target
  let (known, modelReport) ←
    match target.model with
    | none => pure (none, ⟨[], 0⟩)
    | some model => do
      let (known, modelReport) ← models generator document target.index model
      pure (some known, modelReport)
  let functionReport ←
    match target.function with
    | none => pure ⟨[], 0⟩
    | some function =>
      let known := known.getD (knownWithoutModels document function)
      functions generator document target.index known function
  let kept ← submitAll (fun file => file.path.text) (fun file => Artifact.text file.content)
    (modelReport.files ++ functionReport.files)
  return ⟨kept, modelReport.failures + functionReport.failures⟩

end ServiceRun

/-- How running a service came out. -/
structure ServiceOutcome (ε : Type) where
  result : Except (RunError ε) ServiceReport
  registry : Registry Artifact
  notices : List Notice

/-- Runs a service. Nothing is written. -/
def runService {ε : Type} (files : FileTree) (generator : Generator ε) (target : ServiceTarget)
    (registry : Registry Artifact) : ServiceOutcome ε :=
  let (result, progress) := ((ServiceRun.service files generator target).run).run ⟨registry, []⟩
  { result, registry := progress.registry, notices := progress.notices }

end FunctionForge.Run
