import FunctionForge.CSharp.Edition
import FunctionForge.CSharp.Source
import FunctionForge.CSharp.TypeName

/-!
# Source of the service interface

The interface that a service implements: for each endpoint one method, or one for each class that
its body can be. `Formal` is a parameter of such a method.

In version 1 a method takes the content of the request as it came and gives back the whole response,
in version 2 it takes the request besides the parsed body, from version 3 on it gives back the typed
result.
-/

namespace FunctionForge.CSharp

open Endpoint (BodySummary)

/-- A parameter of a method. -/
inductive Formal where
  /-- A parameter in the path. -/
  | path (type name : String)
  /-- The body of the request, parsed. -/
  | payload (type : String)
  /-- The body of the request as it came. -/
  | stream
  /-- The content of the request as it came. -/
  | content
  /-- The request. -/
  | request
  deriving Repr, DecidableEq

/-- The declaration of a parameter. -/
def Formal.text : Formal → String
  | .path type name => type ++ " " ++ name
  | .payload type => type ++ " payload"
  | .stream => "Stream stream"
  | .content => "HttpContent contentPayload"
  | .request => "HttpRequest request"

/-- A method of the interface. -/
structure ServiceMethod where
  name : String
  result : String
  parameters : List Formal
  documentation : List String
  deriving Repr, DecidableEq

/-- The parameters of an endpoint in the path. -/
def pathFormals (endpoint : Endpoint) : List Formal :=
  endpoint.parameters.map fun parameter => .path (typeName parameter.typeRef) parameter.name

/-- What a method of an endpoint returns. -/
def methodResult (version : Nat) (endpoint : Endpoint) : String :=
  if version = 1 then "Task<HttpResponseMessage>"
  else if version ≥ 3 then resultType endpoint.responseSummary
  else "Task<IActionResult>"

/-- The parameters for the body of an endpoint, one choice of them for each method. -/
def bodyFormals (version : Nat) (endpoint : Endpoint) : List (List Formal) :=
  if version = 1 then [if endpoint.needsRequestBody then [.content] else []]
  else
    match endpoint.bodySummary with
    | some (.simple type) => [[.payload (typeName type)]]
    | some (.union candidates _ _) => candidates.map fun candidate => [.payload candidate]
    | none => [if endpoint.needsRequestBody && version ≥ 3 then [.stream] else []]

/-- The parameter for the request, which only one version has. -/
def requestFormals (version : Nat) : List Formal :=
  if version = 2 then [.request] else []

/-- The methods of an endpoint. -/
def serviceMethods (endpoint : Endpoint) (version : Nat) : List ServiceMethod :=
  (bodyFormals version endpoint).map fun body =>
    { name := endpoint.name
      result := methodResult version endpoint
      parameters := pathFormals endpoint ++ body ++ requestFormals version
      documentation := endpoint.documentation }

/-- A method with its documentation. -/
def methodLines (method : ServiceMethod) : Source :=
  [""] ++ summaryComment "        " method.documentation ++
    [ "        " ++ method.result ++ " " ++ method.name ++ "(" ++
      Text.join ", " (method.parameters.map Formal.text) ++ ");" ]

/-- The source of the interface. -/
def serviceSource (endpoints : List Endpoint) (target : FunctionTarget) : Source :=
  header "" ++
    [ "using System;",
      "using System.Collections.Generic;",
      "using System.IO;",
      "using System.Net.Http;",
      "using System.Threading.Tasks;",
      "using Microsoft.AspNetCore.Http;",
      "using Microsoft.AspNetCore.Mvc;" ] ++
    usings target.imports ++
    [ "",
      "namespace " ++ target.interfaceNamespace ++ " \x7b",
      "    /// <summary>",
      "    /// Implement this interface to serve the calls routed by " ++
        target.functionsName ++ ".",
      "    /// </summary>",
      "    public interface " ++ target.interfaceName ++ " \x7b" ] ++
    (endpoints.flatMap (serviceMethods · target.version)).flatMap methodLines ++
    ["    \x7d", "\x7d"]

end FunctionForge.CSharp
