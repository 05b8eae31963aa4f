import FunctionForge.CSharp.Invocation

/-!
# Source of the functions

The class with one function for each endpoint, which is triggered by a request and calls the
service. In version 1 the functions are static and the service is made for each request.
-/

namespace FunctionForge.CSharp

/-! ### Functions -/

/-- The parameters of a function for those in the path. -/
def pathParameterList (endpoint : Endpoint) : String :=
  String.join ((pathFormals endpoint).map fun formal => ", " ++ formal.text)

/-- The arguments by which a failed function reports the parameters in the path. -/
def reportedParameters (endpoint : Endpoint) : String :=
  String.join (endpoint.parameters.map fun parameter =>
    ", (\"" ++ parameter.name ++ "\", " ++ parameter.name ++ ")")

/-- The comment and the attribute of a function. -/
def functionHead (endpoint : Endpoint) : Source :=
  [ "        /// <summary>",
    "        /// auto-generated function invocation.",
    "        /// </summary>",
    "        [FunctionName(\"" ++ endpoint.name ++ "\")]" ]

/-- The attribute that binds a function to its requests. -/
def triggerLine (endpoint : Endpoint) : String :=
  "            [HttpTrigger(AuthorizationLevel.Function, \"" ++ endpoint.method.lowerText ++
    "\", Route = \"" ++ endpoint.path ++ "\")]"

/-- The lines that begin and end the handling of exceptions, with the body in between. -/
def guarded (body handlers : List String) : Source :=
  ["        \x7b", "            try \x7b"] ++ body.map ("                " ++ ·) ++ handlers ++
    ["                throw;", "            \x7d", "        \x7d"]

/-- The handler of a failed function, which reports what it was called with. -/
def reportingHandler (endpoint : Endpoint) : Source :=
  [ "            \x7d catch (Exception e) \x7b",
    "                LogException(e, \"" ++ endpoint.name ++ "\", \"" ++ endpoint.path ++
      "\", \"" ++ endpoint.method.lowerText ++ "\"" ++ reportedParameters endpoint ++ ");" ]

/-- The handlers that answer with an error of the client. -/
def clientErrorHandlers : Source :=
  [ "            \x7d catch (ClientError err) \x7b",
    "                return err.Result;",
    "            \x7d catch (BadHttpRequestException err) \x7b",
    "                return new BadRequestObjectResult(err.Message);" ]

/-- The handler of a failed static function. -/
def loggingHandler (endpoint : Endpoint) : Source :=
  [ "            \x7d catch (Exception e) \x7b",
    "                log.LogCritical(e, \"" ++ endpoint.name ++ " (" ++ endpoint.method.lowerText ++
      " " ++ endpoint.path ++ ") failed\");" ]

/-- The function of an endpoint. -/
def functionSource (endpoint : Endpoint) (target : FunctionTarget) : Source :=
  let body := functionBody endpoint target
  if edition target.version .functionMethod = .version 1 then
    functionHead endpoint ++
      [ "        public static async Task<HttpResponseMessage> " ++ endpoint.name ++ "(",
        triggerLine endpoint,
        "            HttpRequestMessage req" ++ pathParameterList endpoint ++ ", ILogger log)" ] ++
      guarded body (loggingHandler endpoint)
  else
    let clientErrors :=
      if edition target.version .functionMethod = .version 3 then clientErrorHandlers else []
    functionHead endpoint ++
      [ "        public async Task<IActionResult> " ++ endpoint.name ++ "(",
        triggerLine endpoint,
        "            HttpRequest request" ++ pathParameterList endpoint ++ ")" ] ++
      guarded body (clientErrors ++ reportingHandler endpoint)

/-- The functions of endpoints, each after an empty line. -/
def functionSources (endpoints : List Endpoint) (target : FunctionTarget) : Source :=
  endpoints.flatMap fun endpoint => ["", (functionSource endpoint target).text]

/-! ### The class -/

/-- The class of static functions. -/
def staticFunctionsSource (endpoints : List Endpoint) (target : FunctionTarget)
    (imports : List String) : Source :=
  header "" ++
    [ "using System;",
      "using System.Collections.Generic;",
      "using System.Net.Http;",
      "using System.Threading.Tasks;",
      "using Microsoft.Azure.WebJobs;",
      "using Microsoft.Azure.WebJobs.Extensions.Http;",
      "using Microsoft.Extensions.Logging;" ] ++
    usings imports ++
    [ "",
      "namespace " ++ target.rootNamespace,
      "\x7b",
      "    public static partial class " ++ target.functionsName,
      "    \x7b",
      "        /// <summary>",
      "        /// Returns the service that handles a request. Implement it in a partial class.",
      "        /// </summary>",
      "        public static partial " ++ target.interfaceName ++
        " Service(HttpRequestMessage req, ILogger log);" ] ++
    functionSources endpoints target ++
    ["    \x7d", "\x7d"]

/-- The members of the class by which functions parse bodies and report failures. -/
def sharedMembers : Source :=
  [ "",
    "        public async Task<T> ParseJson<T>(Stream s)",
    "        \x7b",
    "            string requestBody;",
    "            using (var streamReader = new StreamReader(s))",
    "                requestBody = await streamReader.ReadToEndAsync();",
    "            if (string.IsNullOrWhiteSpace(requestBody))",
    "                throw new BadHttpRequestException(\"request body is empty\");",
    "            try \x7b",
    "                return JsonConvert.DeserializeObject<T>(requestBody);",
    "            \x7d catch (JsonException e) \x7b",
    "                throw new BadHttpRequestException(" ++
      "$\"invalid request body: \x7be.Message\x7d\");",
    "            \x7d",
    "        \x7d",
    "",
    "        public T ToObject<T>(JObject jObject)",
    "        \x7b",
    "            try \x7b",
    "                return jObject.ToObject<T>();",
    "            \x7d catch (JsonException e) \x7b",
    "                throw new BadHttpRequestException(" ++
      "$\"invalid request body: \x7be.Message\x7d\");",
    "            \x7d",
    "        \x7d",
    "",
    "        private void LogException(Exception e, string functionName, string route, " ++
      "string operation,",
    "            params (string, object)[] namedParams)",
    "        \x7b",
    "            var debugInformation = new Dictionary<string, string>();",
    "            debugInformation[\"Error\"] = e.Message;",
    "            debugInformation[\"ExceptionType\"] = e.GetType().Name;",
    "            debugInformation[\"FunctionName\"] = functionName;",
    "            debugInformation[\"Route\"] = route;",
    "            debugInformation[\"Operation\"] = operation;",
    "            foreach (var (name, value) in namedParams)",
    "            \x7b",
    "                debugInformation[\"p_\" + name] = value?.ToString();",
    "            \x7d",
    "            _logger.LogCritical(JsonConvert.SerializeObject(debugInformation));",
    "        \x7d" ]

/-- The class of functions that share a service. -/
def sharedFunctionsSource (endpoints : List Endpoint) (target : FunctionTarget)
    (imports : List String) : Source :=
  let name := target.functionsName
  header "" ++
    [ "using System;",
      "using System.Collections.Generic;",
      "using System.IO;",
      "using System.Linq;",
      "using System.Threading.Tasks;",
      "using Microsoft.AspNetCore.Http;",
      "using Microsoft.AspNetCore.Mvc;",
      "using Microsoft.Azure.WebJobs;",
      "using Microsoft.Azure.WebJobs.Extensions.Http;",
      "using Microsoft.Extensions.Logging;",
      "using Newtonsoft.Json;",
      "using Newtonsoft.Json.Linq;" ] ++
    usings imports ++
    [ "",
      "namespace " ++ target.rootNamespace,
      "\x7b",
      "    public class " ++ name,
      "    \x7b",
      "        private readonly ILogger<" ++ name ++ "> _logger;",
      "        private readonly " ++ target.interfaceName ++ " _service;",
      "",
      "        public " ++ name ++ "(ILogger<" ++ name ++ "> logger, " ++ target.interfaceName ++
        " service)",
      "        \x7b",
      "            _logger = logger;",
      "            _service = service;",
      "        \x7d" ] ++
    functionSources endpoints target ++
    sharedMembers ++
    ["    \x7d", "\x7d"]

/-- The source of the class of functions. -/
def functionsSource (endpoints : List Endpoint) (target : FunctionTarget)
    (imports : List String) : Source :=
  if edition target.version .functions = .version 1 then
    staticFunctionsSource endpoints target imports
  else sharedFunctionsSource endpoints target imports

end FunctionForge.CSharp
