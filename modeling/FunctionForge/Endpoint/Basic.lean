import FunctionForge.Document.HttpMethod
import FunctionForge.TypeRef

/-!
# Endpoints

What is generated for the operations of a document: the parameters in the path, the body of the
request, and what comes back if all goes well.
-/

namespace FunctionForge.Endpoint

open Document (HttpMethod)

/-- A parameter in the path. -/
structure PathParameter where
  name : String
  typeRef : TypeRef
  description : Option String
  deriving Repr, DecidableEq

/-- A response with a status code. -/
structure ResponseInfo where
  code : Nat
  description : String
  /-- The type of the body; none if there is no body, or none that can be used. -/
  content : Option TypeRef
  deriving Repr, DecidableEq

namespace ResponseInfo

/-- Whether a response reports success. -/
def isSuccess (response : ResponseInfo) : Bool :=
  200 ≤ response.code && response.code < 300

/-- Whether a response reports an error of the client. -/
def isClientError (response : ResponseInfo) : Bool :=
  400 ≤ response.code && response.code < 500

end ResponseInfo

/-- What an operation gives back if all goes well. -/
inductive ResponseSummary where
  /-- There is no success, or successes differ in their types. -/
  | untyped
  | single (content : Option TypeRef) (code : Nat)
  /-- Several codes with one type; if there is a body, it is wrapped together with the code. -/
  | multiCode (content : Option TypeRef) (codes : List Nat) (wrapper : Option String)
  deriving Repr, DecidableEq

/-- The type of the body that an operation gives back. -/
def ResponseSummary.content : ResponseSummary → Option TypeRef
  | .untyped => none
  | .single content _ => content
  | .multiCode content _ _ => content

/-- The body of a request. -/
inductive BodySummary where
  | simple (typeRef : TypeRef)
  /-- One of several classes, told by the value of a property in the payload. -/
  | union (candidates : List String) (mapping : Fields String) (discriminator : String)
  deriving Repr, DecidableEq

end Endpoint

/-- What is generated for an operation. -/
structure Endpoint where
  operationId : String
  /-- The name of the generated methods. -/
  name : String
  method : Document.HttpMethod
  /-- The path without slashes at its ends. -/
  path : String
  documentation : List String
  /-- The parameters in the path, those of the path item first. -/
  parameters : List Endpoint.PathParameter
  needsRequestBody : Bool
  /-- The responses with a status code. -/
  responses : List Endpoint.ResponseInfo
  responseSummary : Endpoint.ResponseSummary
  bodySummary : Option Endpoint.BodySummary
  deriving Repr, DecidableEq

end FunctionForge
