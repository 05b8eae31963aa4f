import FunctionForge.CSharp.ServiceSource
import FunctionForge.Notice

/-!
# Invocations

How a function calls the service. An endpoint is called directly, or, if its body is a union, by one
call for each value of the discriminator. `Actual` is an argument of a call.

The statements that call the service stand in a boilerplate, in the place of `{BASE}`; where it
says `{CALL}`, the bare call stands, if there is only one.
-/

namespace FunctionForge.CSharp

open Endpoint (ResponseSummary)

/-! ### Calls -/

/-- An argument of a call. -/
inductive Actual where
  /-- A parameter in the path. -/
  | path (name : String)
  /-- The body of the request, parsed as a type. -/
  | parsed (type : String)
  /-- The body that is parsed already, converted to a class. -/
  | converted (type : String)
  /-- The body of the request as it came. -/
  | stream
  /-- The content of the request as it came. -/
  | content
  /-- The request. -/
  | request
  deriving Repr, DecidableEq

/-- The text of an argument. -/
def Actual.text : Actual → String
  | .path name => name
  | .parsed type => "await ParseJson<" ++ type ++ ">(request.Body)"
  | .converted type => "ToObject<" ++ type ++ ">(jObject)"
  | .stream => "request.Body"
  | .content => "req.Content"
  | .request => "request"

/-- A call of a method of the service. -/
structure Call where
  method : String
  arguments : List Actual
  deriving Repr, DecidableEq

/-- The text of a call, without the service. -/
def Call.text (call : Call) : String :=
  call.method ++ "(" ++ Text.join ", " (call.arguments.map Actual.text) ++ ")"

/-- How an endpoint is called. -/
inductive Invocation where
  | direct (call : Call)
  /-- The discriminator, and the calls by its values. -/
  | dispatch (discriminator : String) (cases : Fields Call)
  deriving Repr, DecidableEq

/-- The call of an endpoint with arguments for its body. -/
def callWith (version : Nat) (endpoint : Endpoint) (body : List Actual) : Call where
  method := endpoint.name
  arguments :=
    endpoint.parameters.map (fun parameter => .path parameter.name) ++ body ++
      if version = 2 then [.request] else []

/-- How an endpoint is called in a version. -/
def invocation (version : Nat) (endpoint : Endpoint) : Invocation :=
  let call := callWith version endpoint
  if version = 1 then .direct (call (if endpoint.needsRequestBody then [.content] else []))
  else
    match endpoint.bodySummary with
    | some (.union _ mapping discriminator) =>
      .dispatch discriminator (mapping.mapValues fun candidate => call [.converted candidate])
    | some (.simple type) => .direct (call [.parsed (typeName type)])
    | none =>
      .direct (call (if endpoint.needsRequestBody && version ≥ 3 then [.stream] else []))

/-! ### Statements -/

/-- The expression that awaits a call. -/
def awaited (call : Call) : String :=
  "await _service." ++ call.text

/-- The statements that answer with the result of a call. -/
def resultStatements (version : Nat) (summary : ResponseSummary) (call : Call) : List String :=
  let call := awaited call
  if version < 3 then ["return " ++ call ++ ";"]
  else
    match summary with
    | .untyped => ["return " ++ call ++ ";"]
    | .single none code =>
      [call ++ ";", "return new StatusCodeResult(" ++ Number.decimal code ++ ");"]
    | .single (some _) code =>
      [ "var result = " ++ call ++ ";",
        "return new JsonResult(result) \x7b StatusCode = " ++ Number.decimal code ++ " \x7d;" ]
    | .multiCode _ _ (some _) =>
      [ "var result = " ++ call ++ ";",
        "return new JsonResult(result.Data) \x7b StatusCode = (int)result.ResultCode \x7d;" ]
    | .multiCode _ _ none =>
      ["var code = " ++ call ++ ";", "return new StatusCodeResult(code);"]

/-- The statements of one case of a dispatch. -/
def caseStatements (version : Nat) (summary : ResponseSummary) (entry : String × Call) :
    List String :=
  ["    case \"" ++ entry.1 ++ "\":", "    \x7b"] ++
    (resultStatements version summary entry.2).map ("        " ++ ·) ++
    ["    \x7d"]

/-- The statements that call the service. -/
def statements (version : Nat) (endpoint : Endpoint) : Invocation → List String
  | .direct call =>
    if version = 1 then ["return await Service(req, log)." ++ call.text ++ ";"]
    else resultStatements version endpoint.responseSummary call
  | .dispatch discriminator cases =>
    [ "var jObject = await ParseJson<JObject>(request.Body);",
      "switch (jObject[\"" ++ discriminator ++ "\"]?.ToString())",
      "\x7b" ] ++
      cases.flatMap (caseStatements version endpoint.responseSummary) ++
      [ "    default:",
        "        return new BadRequestObjectResult(\"" ++ discriminator ++ " must be one of: " ++
          Text.join ", " cases.keys ++ "\");",
        "\x7d" ]

/-- The text of the only call, if there is only one. -/
def soleCall? (version : Nat) : Invocation → Option String
  | .direct call => some (if version = 1 then call.text else awaited call)
  | .dispatch _ _ => none

/-! ### Boilerplate -/

/-- Stands for the statements in a boilerplate. -/
def basePlaceholder : String := "\x7bBASE\x7d"

/-- Stands for the call in a boilerplate. -/
def callPlaceholder : String := "\x7bCALL\x7d"

/-- A boilerplate with the statements in it. -/
def withStatements (boilerplate : String) (statements : List String) : String :=
  Text.replaceAll basePlaceholder (Text.join "\n" statements) boilerplate

/-- The lines of a boilerplate with the statements and the call in it. -/
def applyBoilerplate (boilerplate : String) (statements : List String) (call : Option String) :
    List String :=
  let text := withStatements boilerplate statements
  Text.lines <|
    match call with
    | some call => Text.replaceAll callPlaceholder call text
    | none => text

/-- What is reported of a boilerplate. -/
def boilerplateNotices (boilerplate : String) (statements : List String) (call : Option String)
    (operationId : String) : List Notice :=
  if call.isNone && Text.contains callPlaceholder (withStatements boilerplate statements) then
    [.unexpandedCall operationId]
  else []

/-- The body of the function of an endpoint. -/
def functionBody (endpoint : Endpoint) (target : FunctionTarget) : List String :=
  let invocation := invocation target.version endpoint
  applyBoilerplate target.boilerplate (statements target.version endpoint invocation)
    (soleCall? target.version invocation)

/-- What is reported of the function of an endpoint. -/
def functionNotices (endpoint : Endpoint) (target : FunctionTarget) : List Notice :=
  let invocation := invocation target.version endpoint
  boilerplateNotices target.boilerplate (statements target.version endpoint invocation)
    (soleCall? target.version invocation) endpoint.operationId

end FunctionForge.CSharp
