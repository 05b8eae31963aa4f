import FunctionForge.CSharp.ErrorSource
import FunctionForge.CSharp.FunctionSource
import FunctionForge.CSharp.ModelSource
import FunctionForge.CSharp.WrapperSource
import FunctionForge.Generator

/-!
# The C# generator

Writes the models of a service, and its functions with all that belongs to them: from version 3 on
the result wrappers and the exceptions, then the interface of the service and the class of
functions.
-/

namespace FunctionForge.CSharp

/-- The namespaces that the class of functions imports. -/
def functionImports (target : FunctionTarget) : List String :=
  mergeImports
    [ target.imports,
      (if target.interfaceNamespace = target.rootNamespace then []
        else [target.interfaceNamespace]) ++
        if target.version ≥ 3 then [errorsNamespace target] else [] ]

/-- The files of functions. -/
def functionFiles (endpoints : List Endpoint) (target : FunctionTarget) :
    Except GenerationError (List GeneratedFile) := do
  let extras ←
    if target.version ≥ 3 then do
      let errors ← errorFiles endpoints target
      pure (wrapperFiles endpoints target ++ errors)
    else pure []
  return extras ++
    [ outputFile target.interfaceFolder target.interfaceName (serviceSource endpoints target),
      outputFile target.folder target.functionsName
        (functionsSource endpoints target (functionImports target)) ]

/-- What is reported of the functions of endpoints, as far as they are written. -/
def functionFileNotices (endpoints : List Endpoint) (target : FunctionTarget) : List Notice :=
  match functionFiles endpoints target with
  | .ok _ => endpoints.flatMap (functionNotices · target)
  | .error _ => []

/-- The C# generator. -/
def generator : Generator GenerationError where
  models entities target := .ok (modelFiles entities target)
  functions := functionFiles
  functionNotices := functionFileNotices
  message := GenerationError.message

end FunctionForge.CSharp
