import FunctionForge.CSharp.Source
import FunctionForge.CSharp.TypeName

/-!
# Sources of result wrappers

The class that wraps a body together with the code it is given back with, for endpoints with several
codes of success. It stands beside the interface of the service. Of two wrappers with one name the
first is written.
-/

namespace FunctionForge.CSharp

/-- A class that wraps a body together with its code. -/
structure ResultWrapper where
  name : String
  content : TypeRef
  codes : List Nat
  deriving Repr, DecidableEq

/-- The wrapper that an endpoint returns. -/
def wrapper? (endpoint : Endpoint) : Option ResultWrapper :=
  match endpoint.responseSummary with
  | .multiCode (some content) codes (some name) => some ⟨name, content, codes⟩
  | _ => none

/-- Adds a wrapper, unless there is one of its name. -/
def addWrapper (wrappers : List ResultWrapper) (wrapper : ResultWrapper) : List ResultWrapper :=
  if wrappers.any fun other => other.name == wrapper.name then wrappers else wrappers ++ [wrapper]

/-- The wrappers that endpoints return. -/
def resultWrappers (endpoints : List Endpoint) : List ResultWrapper :=
  (endpoints.filterMap wrapper?).foldl addWrapper []

/-- The members of the enumeration of codes, separated by commas. -/
def codeLines : List Nat → List String
  | [] => []
  | code :: rest =>
    let text := Number.decimal code
    let comma := if rest.isEmpty then "" else ","
    ("            Code" ++ text ++ " = " ++ text ++ comma) :: codeLines rest

/-- The source of a wrapper. -/
def wrapperSource (wrapper : ResultWrapper) (target : FunctionTarget) : Source :=
  let type := typeName wrapper.content
  header "" ++
    ["using System;", "using System.Collections.Generic;"] ++
    usings target.imports ++
    [ "",
      "namespace " ++ target.interfaceNamespace,
      "\x7b",
      "    public partial class " ++ wrapper.name,
      "    \x7b",
      "        public " ++ type ++ " Data \x7b get; set; \x7d",
      "",
      "        public enum Result \x7b" ] ++
    codeLines wrapper.codes ++
    [ "        \x7d",
      "",
      "        public Result ResultCode \x7b get; set; \x7d",
      "",
      "        public " ++ wrapper.name ++ "(" ++ type ++ " element, Result resultCode)",
      "        \x7b",
      "            Data = element;",
      "            ResultCode = resultCode;",
      "        \x7d",
      "    \x7d",
      "\x7d" ]

/-- The files of the wrappers that endpoints return. -/
def wrapperFiles (endpoints : List Endpoint) (target : FunctionTarget) : List GeneratedFile :=
  (resultWrappers endpoints).map fun wrapper =>
    outputFile target.interfaceFolder wrapper.name (wrapperSource wrapper target)

end FunctionForge.CSharp
