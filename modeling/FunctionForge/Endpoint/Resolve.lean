import FunctionForge.Endpoint.Content
import FunctionForge.Endpoint.Summary
import FunctionForge.Text.Lines

/-!
# Endpoints of operations

Makes an endpoint of each operation of a document. An operation fails only for want of an id, by its
parameters in the path or by its body. A response whose content cannot be used is kept without it,
and makes the result untyped if it reports success.
-/

namespace FunctionForge.Endpoint

open Document (ApiDocument HttpMethod Operation Parameter PathItem Referable Response SchemaOrRef)

/-! ### Parameters -/

/-- The parameter in the path that a parameter is; none if it is passed elsewhere. -/
def pathParameter? (known : KnownTypes) :
    Referable Parameter → Except Cause (Option PathParameter)
  | .ref path => .error (.unresolvedParameter path)
  | .inline parameter =>
    if parameter.location ≠ .path then .ok none
    else
      match parameter.schema with
      | none => .error (.parameterWithoutSchema parameter.name)
      | some schema =>
        match resolveElement known schema with
        | .ok (.scalar type nullable) =>
          .ok (some ⟨parameter.name, .scalar type nullable, parameter.description⟩)
        | _ => .error (.parameterNotPrimitive parameter.name)

/-- The parameters in the path. -/
def pathParameters (known : KnownTypes) :
    List (Referable Parameter) → Except Cause (List PathParameter)
  | [] => .ok []
  | parameter :: rest => do
    let first ← pathParameter? known parameter
    let others ← pathParameters known rest
    return first.toList ++ others

/-! ### Responses -/

/-- The greatest status code. -/
def codeLimit : Nat := 65535

/-- The status code that a key of the responses writes. -/
def statusCode? (key : String) : Option Nat :=
  let digits :=
    match key.toList with
    | '+' :: rest => rest
    | text => text
  (Number.read? 10 digits).filter (· ≤ codeLimit)

/-- What becomes of a response with a status code. -/
inductive ResponseOutcome where
  /-- It is a reference that leads nowhere. -/
  | unresolved (code : Nat)
  | typed (info : ResponseInfo)
  /-- Its content cannot be used. -/
  | untyped (info : ResponseInfo) (cause : Cause)
  deriving Repr, DecidableEq

namespace ResponseOutcome

/-- The response, as far as it can be used. -/
def info? : ResponseOutcome → Option ResponseInfo
  | .unresolved _ => none
  | .typed info => some info
  | .untyped info _ => some info

/-- The code of a response whose body cannot be used. -/
def degraded? : ResponseOutcome → Option Nat
  | .unresolved code => some code
  | .typed _ => none
  | .untyped info _ => some info.code

end ResponseOutcome

/-- What becomes of the response with a key; none if the key is no status code. -/
def responseOutcome? (known : KnownTypes) (entry : String × Referable Response) :
    Option ResponseOutcome :=
  (statusCode? entry.1).map fun code =>
    match entry.2 with
    | .ref _ => .unresolved code
    | .inline response =>
      match resolveContentType known response.content with
      | .ok content => .typed ⟨code, response.description, content⟩
      | .error cause => .untyped ⟨code, response.description, none⟩ cause

/-- What becomes of the responses of an operation. -/
def responseOutcomes (known : KnownTypes) (operation : Operation) : List ResponseOutcome :=
  operation.responses.filterMap (responseOutcome? known)

/-- The responses of an operation. -/
def responseInfos (known : KnownTypes) (operation : Operation) : List ResponseInfo :=
  (responseOutcomes known operation).filterMap ResponseOutcome.info?

/-- The codes of the responses of an operation whose body cannot be used. -/
def degradedCodes (known : KnownTypes) (operation : Operation) : List Nat :=
  (responseOutcomes known operation).filterMap ResponseOutcome.degraded?

/-! ### Documentation -/

/-- What is written of a response. -/
def responseLine? (entry : String × Referable Response) : Option String :=
  entry.2.inline?.map fun response => entry.1 ++ " -> " ++ Text.trim response.description

/-- The lines that are written of an operation: its description, or else its summary, and a line
for each response. -/
def documentationLines (operation : Operation) : List String :=
  let text := (operation.description.or operation.summary).getD ""
  (Text.lines text).map Text.trimEnd ++ operation.responses.filterMap responseLine?

/-! ### Operations -/

/-- An operation where it is declared. -/
structure Site where
  path : String
  method : HttpMethod
  /-- The parameters of all operations of the path. -/
  pathParameters : List (Referable Parameter)
  operation : Operation

/-- How an operation is called in messages. -/
def Site.location (site : Site) : String :=
  site.method.text ++ " " ++ site.path

/-- The name of the methods generated for an operation. -/
def methodName (operationId : String) : String :=
  Naming.identifier operationId ++ "Async"

/-- The summary of the body of an operation's request. -/
def operationBody (known : KnownTypes) (schemas : Fields SchemaOrRef) (operation : Operation) :
    Except Cause (Option BodySummary) :=
  match operation.requestBody with
  | none => .ok none
  | some (.ref path) => .error (.unresolvedBody path)
  | some (.inline body) => resolveBody known schemas body.content

/-- The endpoint of an operation, or why it has none. -/
def ofSite (known : KnownTypes) (schemas : Fields SchemaOrRef) (site : Site) :
    Except Cause Endpoint := do
  let operation := site.operation
  let some operationId := operation.operationId | throw .missingOperationId
  let parameters ← Endpoint.pathParameters known (site.pathParameters ++ operation.parameters)
  let bodySummary ← operationBody known schemas operation
  let responses := responseInfos known operation
  return {
    operationId
    name := methodName operationId
    method := site.method
    path := Text.stripMark '/' site.path
    documentation := documentationLines operation
    parameters
    needsRequestBody := operation.requestBody.isSome
    responses
    responseSummary := summarize responses (degradedCodes known operation)
    bodySummary }

/-- The endpoint of an operation. -/
def resolve (known : KnownTypes) (schemas : Fields SchemaOrRef) (site : Site) :
    Except DefinitionError Endpoint :=
  match ofSite known schemas site with
  | .ok endpoint => .ok endpoint
  | .error cause => .error ⟨site.location, cause⟩

/-- The operations on a path. -/
def sitesOfPath (entry : String × PathItem) : List Site :=
  entry.2.operations.map fun (method, operation) =>
    ⟨entry.1, method, entry.2.parameters, operation⟩

/-- The operations of a document. -/
def sites (paths : Fields PathItem) : List Site :=
  List.flatMap sitesOfPath paths

/-- Adds an endpoint or a failure. -/
def addOutcome (endpoints : Resolution Endpoint) :
    Except DefinitionError Endpoint → Resolution Endpoint
  | .ok endpoint => { endpoints with items := endpoints.items ++ [endpoint] }
  | .error failure => { endpoints with failures := endpoints.failures ++ [failure] }

/-- The endpoints of a document. -/
def resolveEndpoints (known : KnownTypes) (schemas : Fields SchemaOrRef)
    (paths : Fields PathItem) : Resolution Endpoint :=
  ((sites paths).map (resolve known schemas)).foldl addOutcome .none

/-! ### Notices -/

/-- What is reported of a response. -/
def responseNotices (known : KnownTypes) (location : String)
    (entry : String × Referable Response) : List Notice :=
  match responseOutcome? known entry with
  | some (.unresolved _) => [.unresolvedResponse location entry.1]
  | some (.untyped _ cause) => [.untypedResponse location entry.1 cause]
  | _ => []

/-- What is reported of an operation. -/
def siteNotices (known : KnownTypes) (schemas : Fields SchemaOrRef) (site : Site) :
    List Notice :=
  let operation := site.operation
  let parameters := Endpoint.pathParameters known (site.pathParameters ++ operation.parameters)
  if operation.operationId.isNone || parameters.toOption.isNone then []
  else
    operation.responses.flatMap (responseNotices known site.location) ++
      if (operationBody known schemas operation).toOption.isNone then []
      else
        summaryNotices site.location (responseInfos known operation)
          (degradedCodes known operation)

/-- What is reported of the operations of a document. -/
def endpointNotices (known : KnownTypes) (schemas : Fields SchemaOrRef)
    (paths : Fields PathItem) : List Notice :=
  (sites paths).flatMap (siteNotices known schemas)

end FunctionForge.Endpoint
