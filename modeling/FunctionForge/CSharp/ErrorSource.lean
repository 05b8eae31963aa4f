import FunctionForge.CSharp.Source
import FunctionForge.CSharp.TypeName

/-!
# Sources of client errors

The exceptions by which a service answers with an error of the client: a common base, and a class
for each type of body that such a response has, or for each code without a body. A class stands for
one code; a type that comes with two codes is an error.
-/

namespace FunctionForge.CSharp

open Endpoint (ResponseInfo)

/-- The name of the folder and of the namespace of the exceptions. -/
def errorsFolder : String := "Errors"

/-- The name of the common base. -/
def baseClientError : String := "ClientError"

/-- The namespace of the exceptions. -/
def errorsNamespace (target : FunctionTarget) : String :=
  target.rootNamespace ++ "." ++ errorsFolder

/-- An exception class. -/
structure ClientErrorClass where
  name : String
  code : Nat
  /-- The type of the body; none for responses without one. -/
  element : Option String
  deriving Repr, DecidableEq

/-- Why no code can be written for endpoints. -/
inductive GenerationError where
  /-- An exception class would stand for two codes. -/
  | conflictingCodes (operationId type : String) (first second : Nat)
  deriving Repr, DecidableEq

/-- The message of an error. -/
def GenerationError.message : GenerationError → String
  | .conflictingCodes operationId type first second =>
    "generation failed: " ++ operationId ++ ": " ++ type ++ " is returned with status " ++
      Number.decimal first ++ " and " ++ Number.decimal second ++
      "; one error class cannot carry both"

/-- The exception class of a response. -/
def clientErrorClass (response : ResponseInfo) : ClientErrorClass :=
  match response.content with
  | some content => ⟨content.stem ++ baseClientError, response.code, some (typeName content)⟩
  | none => ⟨"Generic" ++ Number.decimal response.code ++ baseClientError, response.code, none⟩

/-- The exception classes of an endpoint, with the endpoint's id. -/
def endpointErrors (endpoint : Endpoint) : List (String × ClientErrorClass) :=
  (endpoint.responses.filter ResponseInfo.isClientError).map fun response =>
    (endpoint.operationId, clientErrorClass response)

/-- Adds an exception class, unless there is one of its name. -/
def addClientError (classes : List ClientErrorClass) (entry : String × ClientErrorClass) :
    Except GenerationError (List ClientErrorClass) :=
  let (operationId, added) := entry
  match classes.find? fun other => other.name == added.name with
  | none => .ok (classes ++ [added])
  | some first =>
    if first.code = added.code then .ok classes
    else
      .error (.conflictingCodes operationId (added.element.getD added.name) first.code added.code)

/-- The exception classes of endpoints. -/
def clientErrorClasses (endpoints : List Endpoint) :
    Except GenerationError (List ClientErrorClass) :=
  (endpoints.flatMap endpointErrors).foldlM addClientError []

/-! ### Sources -/

/-- The source of the common base. -/
def baseErrorSource (target : FunctionTarget) : Source :=
  header "" ++
    [ "using System;",
      "using Microsoft.AspNetCore.Mvc;",
      "",
      "namespace " ++ errorsNamespace target,
      "\x7b",
      "    /// <summary>",
      "    /// Thrown by a service implementation to answer with a client error.",
      "    /// The functions return <see cref=\"Result\"/> instead of failing.",
      "    /// </summary>",
      "    public abstract class ClientError : Exception",
      "    \x7b",
      "        protected ClientError() : base() \x7b\x7d",
      "        protected ClientError(string message) : base(message) \x7b\x7d",
      "        protected ClientError(string message, Exception inner) : " ++
        "base(message, inner) \x7b\x7d",
      "",
      "        public abstract IActionResult Result \x7b get; \x7d",
      "    \x7d",
      "\x7d" ]

/-- The declaration of an exception class with a body. -/
def typedErrorLines (name code element : String) : Source :=
  [ "    /// <summary>",
    "    /// Answers with status " ++ code ++ " and <see cref=\"Element\"/> as the body.",
    "    /// </summary>",
    "    public abstract class " ++ name ++ " : ClientError",
    "    \x7b",
    "        public " ++ element ++ " Element \x7b get; set; \x7d",
    "",
    "        public override IActionResult Result => new JsonResult(Element) \x7b StatusCode = " ++
      code ++ " \x7d;",
    "    \x7d" ]

/-- The declaration of an exception class without a body. -/
def emptyErrorLines (name code : String) : Source :=
  [ "    /// <summary>",
    "    /// Answers with status " ++ code ++ " and no body.",
    "    /// </summary>",
    "    public class " ++ name ++ " : ClientError",
    "    \x7b",
    "        public " ++ name ++ "() : base() \x7b\x7d",
    "        public " ++ name ++ "(string message) : base(message) \x7b\x7d",
    "",
    "        public override IActionResult Result => new StatusCodeResult(" ++ code ++ ");",
    "    \x7d" ]

/-- The source of an exception class. Only one with a body needs the imports. -/
def clientErrorSource (error : ClientErrorClass) (target : FunctionTarget) : Source :=
  let code := Number.decimal error.code
  header "" ++
    ["using System;", "using Microsoft.AspNetCore.Mvc;"] ++
    (if error.element.isSome then usings target.imports else []) ++
    ["", "namespace " ++ errorsNamespace target, "\x7b"] ++
    (match error.element with
      | some element => typedErrorLines error.name code element
      | none => emptyErrorLines error.name code) ++
    ["\x7d"]

/-- The files of the exceptions. -/
def errorFiles (endpoints : List Endpoint) (target : FunctionTarget) :
    Except GenerationError (List GeneratedFile) := do
  let folder := target.folder.join errorsFolder
  let classes ← clientErrorClasses endpoints
  return outputFile folder baseClientError (baseErrorSource target) ::
    classes.map fun error => outputFile folder error.name (clientErrorSource error target)

end FunctionForge.CSharp
