import FunctionForge.Reference.Bundle

/-!
# Opening documents

Opens the document of a service: loads it, and brings in what it refers to in other files.
-/

namespace FunctionForge.Run

open Document (ApiDocument LoadError)
open Files (FileTree Path)
open Reference (ResolveError Resolver)

/-- Why a document cannot be opened. -/
inductive OpenError where
  | load (cause : LoadError)
  | references (path : Path) (cause : ResolveError)
  deriving Repr, DecidableEq

namespace OpenError

/-- The message of an error. -/
def message : OpenError → String
  | .load cause => cause.message
  | .references path _ => "failed to resolve references in " ++ path.text

/-- What lies behind an error, from the outside in. -/
def causes : OpenError → List String
  | .load cause => cause.causes
  | .references _ cause => cause.message :: cause.causes

end OpenError

/-- A document that was opened, and what was reported of it. -/
structure Opened where
  document : Except OpenError ApiDocument
  notices : List Notice

/-- Opens the document in a file. References are relative to the folder of the file. -/
def openDocument (files : FileTree) (path : Path) : Opened :=
  match Document.load files path with
  | .error cause => ⟨.error (.load cause), []⟩
  | .ok document =>
    let resolved := (Resolver.fresh path.folder).resolve (Document.loadValue files) document
    match resolved.result with
    | .error cause => ⟨.error (.references path cause), resolved.notices⟩
    | .ok document => ⟨.ok document, resolved.notices⟩

end FunctionForge.Run
