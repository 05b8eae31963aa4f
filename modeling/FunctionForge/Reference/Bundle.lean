import FunctionForge.Document.Traverse
import FunctionForge.Notice
import FunctionForge.Reference.Component
import FunctionForge.Reference.Pointer

/-!
# Bundling

Brings the schemas that a document refers to in other files into its components, with the schemas
that those refer to in turn, and lets the references lead there. A reference is read relative to the
folder of the file it stands in; in another file, one without a file part leads into that file.

A schema is imported under the last name of its pointer, or under the name of its file. What has
been imported once is not imported again, so files may refer to each other. A schema of the document
comes before an imported one of the same name, and of two imported ones the first counts.
-/

namespace FunctionForge.Reference

open Document (ApiDocument Components LoadError SchemaOrRef)
open Files (Path)
open Markup (Tree)

/-- Where a reference stands: in the document, or in another file. -/
structure Origin where
  folder : Path
  file : Option Path

/-- What a resolver remembers from one document to the next. -/
structure Resolver where
  /-- The folder that the document's references are relative to. -/
  folder : Path
  /-- The values of the files that have been loaded, by the plain texts of their paths. -/
  documents : List (String × Value)
  /-- The plain texts of the files' paths, and the pointers, that have been imported from. -/
  imported : List (String × String)

/-- A resolver that remembers nothing. -/
def Resolver.fresh (folder : Path) : Resolver := ⟨folder, [], []⟩

/-- The state of bundling a document. -/
structure Bundling where
  resolver : Resolver
  imports : Fields SchemaOrRef
  notices : List Notice

/-- A step of bundling. What has been remembered stays so if a later step fails. A step that would
nest imports deeper than it is allowed to gives nothing at all. -/
abbrev Bundle := ExceptT ResolveError (StateT Bundling Option)

namespace Bundle

/-! ### References -/

/-- The parts of a reference before and after its first `#`. -/
def parts (path : String) : String × String :=
  (Text.cutFirst '#' path).getD (path, "")

/-- Whether a reference leads to another computer. -/
def isRemote (filePart : String) : Bool :=
  Text.startsWith "http://" filePart || Text.startsWith "https://" filePart

/-- The file that a reference leads to; none for a reference inside of the document. -/
def file? (origin : Origin) (path : String) : Except ResolveError (Option Path) :=
  let filePart := (parts path).1
  if filePart.isEmpty then .ok origin.file
  else if isRemote filePart then .error (.remote path)
  else .ok (some (origin.folder.join filePart))

/-- The name under which a schema is imported. -/
def importName (path : String) (file : Path) : Except ResolveError String :=
  match (lastName? (parts path).2).or file.stem? with
  | some name => .ok name
  | none => .error (.invalidFormat path)

/-- The reference to a schema among the components. -/
def localRef (name : String) : String :=
  "#/components/schemas/" ++ name

/-- Where the references of a file stand. -/
def originIn (file : Path) : Origin :=
  ⟨(file.parent?).getD .here, some file⟩

/-! ### Imports -/

/-- The value that a file holds, loaded at most once. -/
def document (load : Path → Except LoadError Value) (file : Path) : Bundle Value := do
  let bundling ← getThe Bundling
  match bundling.resolver.documents.lookup file.plainText with
  | some value => return value
  | none =>
    match load file with
    | .error cause => throw (.external cause)
    | .ok value =>
      let documents := (file.plainText, value) :: bundling.resolver.documents
      set { bundling with resolver := { bundling.resolver with documents } }
      return value

/-- Notes that a schema is being imported, and says whether it has been before. -/
def markImported (file : Path) (pointer : String) : Bundle Bool := do
  let bundling ← getThe Bundling
  let key := (file.plainText, pointer)
  if bundling.resolver.imported.contains key then return true
  let imported := key :: bundling.resolver.imported
  set { bundling with resolver := { bundling.resolver with imported } }
  return false

/-- The schema that a reference leads to in a file. -/
def targetSchema (load : Path → Except LoadError Value) (path : String) (file : Path) :
    Bundle SchemaOrRef := do
  let pointer := (parts path).2
  let value ← document load file
  let target ←
    if pointer.isEmpty then pure value
    else
      match follow? value pointer with
      | some target => pure target
      | none => throw (.targetNotFound path)
  match SchemaOrRef.ofTree? (Tree.ofValue target) with
  | some schema => return schema
  | none => throw (.notASchema path)

/-- Adds an imported schema, unless there is one of its name. -/
def addImport (name : String) (schema : SchemaOrRef) : Bundle Unit :=
  modifyThe Bundling fun bundling =>
    if bundling.imports.has name then
      { bundling with notices := bundling.notices ++ [.repeatedImport name] }
    else { bundling with imports := bundling.imports.insert name schema }

/-- What a step gives that would nest imports too deep. -/
def tooDeep {α : Type} : Bundle α :=
  ExceptT.mk fun _ => none

/-- Imports what a reference leads to, and gives the reference that takes its place. The number
bounds how deep imports may be nested. -/
def importRef (load : Path → Except LoadError Value) : Nat → Origin → String → Bundle String
  | 0, _, _ => tooDeep
  | fuel + 1, origin, path => do
    match ← liftExcept (file? origin path) with
    | none => return path
    | some file =>
      let name ← liftExcept (importName path file)
      if ← markImported file (parts path).2 then return localRef name
      let schema ← targetSchema load path file
      let schema ← schema.mapReferencesM (importRef load fuel (originIn file))
      addImport name schema
      return localRef name
where
  /-- A result that does not depend on the state. -/
  liftExcept {α : Type} (result : Except ResolveError α) : Bundle α :=
    ExceptT.mk (pure result)

/-! ### Documents -/

/-- Adds the imported schemas to those of a document, as far as their names are free. -/
def mergeImports (imports schemas : Fields SchemaOrRef) : Fields SchemaOrRef × List Notice :=
  List.foldl
    (fun (schemas, notices) (name, schema) =>
      if Fields.has schemas name then (schemas, notices ++ [.shadowedImport name])
      else (Fields.insert schemas name schema, notices))
    (schemas, []) imports

/-- A document with the schemas that it refers to in other files. -/
def bundleSchemas (load : Path → Except LoadError Value) (limit : Nat) (document : ApiDocument) :
    Bundle ApiDocument := do
  let origin : Origin := ⟨(← getThe Bundling).resolver.folder, none⟩
  let bundled ← document.mapSchemasM fun schema =>
    schema.mapReferencesM (importRef load limit origin)
  let bundling ← getThe Bundling
  if bundling.imports.isEmpty then return bundled
  let components := bundled.components.getD .none
  let (schemas, notices) := mergeImports bundling.imports components.schemas
  set { bundling with notices := bundling.notices ++ notices }
  return { bundled with components := some { components with schemas } }

/-- A document in which all references lead to schemas among its own components. -/
def resolveDocument (load : Path → Except LoadError Value) (limit : Nat)
    (document : ApiDocument) : Bundle ApiDocument := do
  let bundled ← bundleSchemas load limit document
  ExceptT.mk (pure (inlineComponents bundled))

end Bundle

/-- The outcome of resolving the references of a document. -/
structure ResolvedDocument where
  result : Except ResolveError ApiDocument
  /-- The resolver as it remembers the document. -/
  resolver : Resolver
  notices : List Notice

namespace Resolver

/-- Resolves the references of a document, with imports nested no deeper than a limit; nothing if
that is not deep enough. -/
def resolveWithin (resolver : Resolver) (load : Path → Except LoadError Value)
    (document : ApiDocument) (limit : Nat) : Option ResolvedDocument :=
  (((Bundle.resolveDocument load limit document).run).run ⟨resolver, [], []⟩).map
    fun (result, bundling) =>
      { result, resolver := bundling.resolver, notices := bundling.notices }

/-- Resolves the references of a document with the first of `limit`, twice `limit`, four times
`limit` and so on that is deep enough. -/
def resolveFrom (resolver : Resolver) (load : Path → Except LoadError Value)
    (document : ApiDocument) (limit : Nat) : Option ResolvedDocument :=
  match resolver.resolveWithin load document limit with
  | some resolved => some resolved
  | none => resolver |>.resolveFrom load document (2 * limit)
partial_fixpoint

/-- The limit on the nesting of imports that is tried first. -/
def firstLimit : Nat := 1000000

/-- Resolves the references of a document. Imports without end would be an error; the files of a
tree do not lead to them. -/
def resolve (resolver : Resolver) (load : Path → Except LoadError Value)
    (document : ApiDocument) : ResolvedDocument :=
  (resolver.resolveFrom load document firstLimit).getD ⟨.error (.circular ""), resolver, []⟩

end Resolver

end FunctionForge.Reference
