import FunctionForge.Document.Basic
import FunctionForge.Reference.Error

/-!
# References to components

Parameters, request bodies and responses may be references to components, which may be references
again. `followComponent` goes along such a chain to what is given in place; a reference that comes
up a second time is an error. `inlineComponents` puts what the chains lead to in the place of all
references in the paths of a document.
-/

namespace FunctionForge.Reference

open Document (ApiDocument Components Operation Parameter PathItem Referable RequestBody Response)

/-- What all references to components start with. -/
def componentsLead : String := "#/components/"

/-- The name of a component of a section, read off a reference to it. -/
def parseRefName (path family : String) : Except ResolveError String :=
  match (Text.dropLead? componentsLead path).bind (Text.cutFirst '/') with
  | none => .error (.invalidFormat path)
  | some (found, name) =>
    if found = family then .ok name else .error (.wrongSection family found path)

/-! ### Sections -/

/-- A section of the components, by its name. -/
structure Section (α : Type) where
  name : String
  entries : Fields (Referable α)

/-- The parameters among the components. -/
def parameterSection (components : Components) : Section Parameter :=
  ⟨"parameters", components.parameters⟩

/-- The request bodies among the components. -/
def requestBodySection (components : Components) : Section RequestBody :=
  ⟨"requestBodies", components.requestBodies⟩

/-- The responses among the components. -/
def responseSection (components : Components) : Section Response :=
  ⟨"responses", components.responses⟩

variable {α : Type}

/-- The entry of a section that a reference leads to. -/
def Section.target (family : Section α) (path : String) :
    Except ResolveError (Referable α) := do
  let name ← parseRefName path family.name
  match family.entries.get? name with
  | some entry => return entry
  | none => throw (.targetNotFound path)

/-- Goes along a chain of references on which the references `seen` have come up. -/
def followFrom (family : Section α) :
    Nat → List String → Referable α → Except ResolveError α
  | _, _, .inline value => .ok value
  | 0, _, .ref path => .error (.circular path)
  | fuel + 1, seen, .ref path =>
    if seen.contains path then .error (.circular path)
    else do followFrom family fuel (path :: seen) (← family.target path)

/-- What a chain of references leads to. A chain that is longer than its section repeats itself. -/
def followComponent (family : Section α) (entry : Referable α) : Except ResolveError α :=
  followFrom family (family.entries.length + 2) [] entry

/-! ### Documents -/

/-- Puts what it leads to in the place of a reference. -/
def inlineEntry (family : Section α) (entry : Referable α) :
    Except ResolveError (Referable α) :=
  (followComponent family entry).map .inline

/-- Puts what they lead to in the place of the references in an operation. -/
def inlineOperation (components : Components) (operation : Operation) :
    Except ResolveError Operation := do
  let parameters ← operation.parameters.mapM (inlineEntry (parameterSection components))
  let requestBody ←
    match operation.requestBody with
    | none => Except.ok none
    | some body => some <$> inlineEntry (requestBodySection components) body
  let responses ← operation.responses.mapValuesM (inlineEntry (responseSection components))
  return { operation with parameters, requestBody, responses }

/-- Puts what they lead to in the place of the references on a path. -/
def inlinePathItem (components : Components) (item : PathItem) :
    Except ResolveError PathItem := do
  let parameters ← item.parameters.mapM (inlineEntry (parameterSection components))
  let operations ← item.operations.mapM fun (method, operation) => do
    return (method, ← inlineOperation components operation)
  return { item with parameters, operations }

/-- Puts what they lead to in the place of the references in the paths of a document. -/
def inlineComponents (document : ApiDocument) : Except ResolveError ApiDocument := do
  match document.paths with
  | none => return document
  | some paths =>
    let components := document.components.getD .none
    return { document with paths := some (← paths.mapValuesM (inlinePathItem components)) }

end FunctionForge.Reference
