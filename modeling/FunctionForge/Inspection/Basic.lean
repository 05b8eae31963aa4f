import FunctionForge.Endpoint.Resolve
import FunctionForge.Inspection.Describe
import FunctionForge.Model.Entity
import FunctionForge.Run.Open

/-!
# Inspections

Looks at one document without a configuration: what models and endpoints it has, and which
definitions cannot be used. A section that the document does not have counts as empty.
-/

namespace FunctionForge

open Document (ApiDocument)
open Files (FileTree Path)
open Run (OpenError openDocument)

/-- What a document holds. -/
structure Inspection where
  document : ApiDocument
  models : Resolution Model.Entity
  endpoints : Resolution Endpoint

namespace Inspection

/-- The definitions that cannot be used. -/
def failures (inspection : Inspection) : List DefinitionError :=
  inspection.models.failures ++ inspection.endpoints.failures

/-- The models of a document, with the table that references were resolved with. -/
def modelsOf (document : ApiDocument) : Model.ModelResolution :=
  match document.components with
  | some components => Model.resolveModels components.schemas .plain
  | none => ⟨.empty, .none⟩

/-- What a document holds. -/
def ofDocument (document : ApiDocument) : Inspection :=
  let resolution := modelsOf document
  { document
    models := resolution.models
    endpoints :=
      match document.paths with
      | some paths => Endpoint.resolveEndpoints resolution.known document.schemas paths
      | none => .none }

/-- What is reported of a document. -/
def notices (document : ApiDocument) : List Notice :=
  Model.modelNotices document.schemas .plain ++
    match document.paths with
    | some paths => Endpoint.endpointNotices (modelsOf document).known document.schemas paths
    | none => []

/-- An inspection of a file, and what was reported in it. -/
structure Outcome where
  result : Except OpenError Inspection
  notices : List Notice

/-- Inspects the document in a file. -/
def ofFile (files : FileTree) (path : Path) : Outcome :=
  let opened := openDocument files path
  match opened.document with
  | .error cause => ⟨.error cause, opened.notices⟩
  | .ok document => ⟨.ok (ofDocument document), opened.notices ++ notices document⟩

/-- The summary of an inspection. -/
def summary (inspection : Inspection) : Value :=
  .object
    [ ("title", .string inspection.document.info.title),
      ("version", .string inspection.document.info.version),
      ("models", .array (inspection.models.items.map entity)),
      ("endpoints", .array (inspection.endpoints.items.map endpoint)),
      ("failures", texts (inspection.failures.map DefinitionError.message)) ]

end Inspection

end FunctionForge
