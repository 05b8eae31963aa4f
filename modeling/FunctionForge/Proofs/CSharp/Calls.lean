import FunctionForge.CSharp.Generator
import FunctionForge.Proofs.CSharp.Statements
import FunctionForge.Proofs.Endpoint.WellFormed
import FunctionForge.Proofs.Result
import FunctionForge.Proofs.Text.Ends

/-!
# Calls of the service

The functions call nothing but what the interface of the service declares.  What a method declares
and what a call passes on are texts: the parameters in the path in order, then what is taken for the
body of the request (`Payload`), and in one version the request.  A call is one of a method if both
are the texts for the same payload (`IsCallOf`).  A union is dispatched to the classes that its
values are mapped to, and each of them has a method, since they are candidates of the union
(`values_mapping_subset_candidates`).
-/

namespace FunctionForge.Endpoint

open Document (PathItem SchemaOrRef)

variable {known : KnownTypes} {schemas : Fields SchemaOrRef} {candidates : List String}
  {mapping : Fields String} {discriminator : String}

/-! ### Bodies that are unions -/

/-- The classes that the values of a union select are candidates of it. -/
theorem values_mapping_subset_candidates {paths : Fields PathItem} {endpoint : Endpoint}
    (he : endpoint ∈ (resolveEndpoints known schemas paths).items)
    (hb : endpoint.bodySummary = some (.union candidates mapping discriminator)) :
    mapping.values ⊆ candidates := by
  obtain ⟨site, -, hs⟩ := exists_site_of_item he
  obtain ⟨-, -, hbody, -, -⟩ := ofSite_eq_ok hs
  rw [hb] at hbody
  exact (isWellFormed_of_operationBody hbody).1

end FunctionForge.Endpoint

namespace FunctionForge.CSharp

open Endpoint (BodySummary resolveEndpoints)
open Document (HttpMethod Operation PathItem Referable RequestBody SchemaOrRef)

variable {version : Nat} {endpoint : Endpoint}

/-! ### Payloads -/

/-- What is taken for the body of a request. -/
inductive Payload where
  /-- The body, parsed as a type. -/
  | parsed (type : String)
  /-- The body that was parsed to find the discriminator, converted to a class. -/
  | converted (type : String)
  /-- The body as it came. -/
  | stream
  /-- The content of the request as it came. -/
  | content

namespace Payload

/-- How a method declares what it takes for the body. -/
def parameter : Payload → String
  | .parsed type => type ++ " payload"
  | .converted type => type ++ " payload"
  | .stream => "Stream stream"
  | .content => "HttpContent contentPayload"

/-- How a function passes on what it takes for the body. -/
def argument : Payload → String
  | .parsed type => "await ParseJson<" ++ type ++ ">(request.Body)"
  | .converted type => "ToObject<" ++ type ++ ">(jObject)"
  | .stream => "request.Body"
  | .content => "req.Content"

/-- The parameter of a method that takes a payload. -/
def formal : Payload → Formal
  | .parsed type => .payload type
  | .converted type => .payload type
  | .stream => .stream
  | .content => .content

/-- The argument of a call that passes on a payload. -/
def actual : Payload → Actual
  | .parsed type => .parsed type
  | .converted type => .converted type
  | .stream => .stream
  | .content => .content

@[simp] theorem text_formal (payload : Payload) : payload.formal.text = payload.parameter := by
  cases payload <;> rfl

@[simp] theorem text_actual (payload : Payload) : payload.actual.text = payload.argument := by
  cases payload <;> rfl

end Payload

/-- What an endpoint takes for the body of a request in a version. -/
def TakesPayload (version : Nat) (endpoint : Endpoint) (payload : Option Payload) : Prop :=
  if version = 1 then payload = if endpoint.needsRequestBody then some .content else none
  else
    match endpoint.bodySummary with
    | some (.simple type) => payload = some (.parsed (typeName type))
    | some (.union candidates _ _) =>
      ∃ candidate ∈ candidates, payload = some (.converted candidate)
    | none => payload = if endpoint.needsRequestBody && version ≥ 3 then some .stream else none

/-! ### Calls and methods -/

/-- What a method declares that takes a payload. -/
def declared (version : Nat) (endpoint : Endpoint) (payload : Option Payload) : List String :=
  endpoint.parameters.map (fun parameter => typeName parameter.typeRef ++ " " ++ parameter.name) ++
    payload.toList.map Payload.parameter ++ if version = 2 then ["HttpRequest request"] else []

/-- What a call passes on that has a payload. -/
def passed (version : Nat) (endpoint : Endpoint) (payload : Option Payload) : List String :=
  endpoint.parameters.map (·.name) ++
    payload.toList.map Payload.argument ++ if version = 2 then ["request"] else []

/-- A call is one of a method: both go by the name of the endpoint, and what the call passes on is,
one by one, what the method declares for the same payload. -/
structure IsCallOf (version : Nat) (endpoint : Endpoint) (payload : Option Payload) (call : Call)
    (method : ServiceMethod) : Prop where
  takes : TakesPayload version endpoint payload
  parameters : method.parameters.map Formal.text = declared version endpoint payload
  arguments : call.arguments.map Actual.text = passed version endpoint payload
  /-- The last line of a method declares it. -/
  declaration : (methodLines method).getLast? =
    some ("        " ++ method.result ++ " " ++ endpoint.name ++
      "(" ++ Text.join ", " (declared version endpoint payload) ++ ");")
  text : call.text =
    endpoint.name ++ "(" ++ Text.join ", " (passed version endpoint payload) ++ ")"

/-- A method asks for the parameters in the path, then for the body, and in one version for the
request. -/
def methodWith (version : Nat) (endpoint : Endpoint) (body : List Formal) : ServiceMethod where
  name := endpoint.name
  result := methodResult version endpoint
  parameters := pathFormals endpoint ++ body ++ requestFormals version
  documentation := endpoint.documentation

theorem serviceMethods_eq :
    serviceMethods endpoint version =
      (bodyFormals version endpoint).map (methodWith version endpoint) := rfl

/-- The line behind the comment of a method is its declaration. -/
theorem getLast?_methodLines (method : ServiceMethod) : (methodLines method).getLast? =
    some ("        " ++ method.result ++ " " ++ method.name ++ "(" ++
      Text.join ", " (method.parameters.map Formal.text) ++ ");") := by
  rw [methodLines, List.getLast?_concat]

theorem text_methodWith (payload : Option Payload) :
    (methodWith version endpoint (payload.toList.map Payload.formal)).parameters.map Formal.text =
      declared version endpoint payload := by
  have hpath : (pathFormals endpoint).map Formal.text = endpoint.parameters.map
      fun parameter => typeName parameter.typeRef ++ " " ++ parameter.name := by
    rw [pathFormals, List.map_map]
    rfl
  have hpayload : (payload.toList.map Payload.formal).map Formal.text =
      payload.toList.map Payload.parameter := by
    simp
  have hrequest : (requestFormals version).map Formal.text =
      if version = 2 then ["HttpRequest request"] else [] := by
    unfold requestFormals
    split_ifs <;> rfl
  rw [methodWith, List.map_append, List.map_append, hpath, hpayload, hrequest, declared]

theorem text_callWith (payload : Option Payload) :
    (callWith version endpoint (payload.toList.map Payload.actual)).arguments.map Actual.text =
      passed version endpoint payload := by
  have hpath : (endpoint.parameters.map fun parameter => Actual.path parameter.name).map
      Actual.text = endpoint.parameters.map (·.name) := by
    rw [List.map_map]
    rfl
  have hpayload : (payload.toList.map Payload.actual).map Actual.text =
      payload.toList.map Payload.argument := by
    simp
  have hrequest : (if version = 2 then [Actual.request] else []).map Actual.text =
      if version = 2 then ["request"] else [] := by
    split_ifs <;> rfl
  rw [callWith, List.map_append, List.map_append, hpath, hpayload, hrequest, passed]

/-- The call with a payload is one of the method that takes the payload. -/
theorem isCallOf_callWith {payload : Option Payload} (h : TakesPayload version endpoint payload) :
    IsCallOf version endpoint payload
      (callWith version endpoint (payload.toList.map Payload.actual))
      (methodWith version endpoint (payload.toList.map Payload.formal)) where
  takes := h
  parameters := text_methodWith payload
  arguments := text_callWith payload
  declaration := by
    rw [getLast?_methodLines, text_methodWith]
    rfl
  text := by
    rw [Call.text, text_callWith]
    rfl

/-- An endpoint has one method and one call. -/
def IsDirect (version : Nat) (endpoint : Endpoint) : Prop :=
  ∃ payload : Option Payload, TakesPayload version endpoint payload ∧
    bodyFormals version endpoint = [payload.toList.map Payload.formal] ∧
      invocation version endpoint =
        .direct (callWith version endpoint (payload.toList.map Payload.actual))

/-- An endpoint has a method for each candidate of a union, and a call for each of its values. -/
def IsDispatched (version : Nat) (endpoint : Endpoint) : Prop :=
  version ≠ 1 ∧ ∃ candidates mapping discriminator,
    endpoint.bodySummary = some (.union candidates mapping discriminator) ∧
      bodyFormals version endpoint = candidates.map (fun candidate => [.payload candidate]) ∧
      invocation version endpoint = .dispatch discriminator
        (mapping.mapValues fun candidate => callWith version endpoint [.converted candidate])

/-- A body that comes as it is, or not at all. -/
theorem isDirect_of_ite {p : Bool} (payload : Payload)
    (h : TakesPayload version endpoint (if p = true then some payload else none))
    (hf : bodyFormals version endpoint = [if p = true then [payload.formal] else []])
    (hi : invocation version endpoint =
      .direct (callWith version endpoint (if p = true then [payload.actual] else []))) :
    IsDirect version endpoint := by
  cases p with
  | true => exact ⟨some payload, h, hf, hi⟩
  | false => exact ⟨none, h, hf, hi⟩

/-- The functions and the interface go by the same version and the same body. -/
theorem isDirect_or_isDispatched (version : Nat) (endpoint : Endpoint) :
    IsDirect version endpoint ∨ IsDispatched version endpoint := by
  by_cases hv : version = 1
  · have htakes : TakesPayload version endpoint
        (if endpoint.needsRequestBody = true then some .content else none) := by
      rw [TakesPayload, if_pos hv]
    exact Or.inl (isDirect_of_ite .content htakes (if_pos hv) (if_pos hv))
  · cases hb : endpoint.bodySummary with
    | none =>
      -- A body that nothing is known of is passed on as it came, from version 3 on.
      refine Or.inl
        (isDirect_of_ite (p := endpoint.needsRequestBody && version ≥ 3) .stream ?_ ?_ ?_)
      · rw [TakesPayload, if_neg hv, hb]
      · rw [bodyFormals, if_neg hv, hb]
        rfl
      · rw [invocation, if_neg hv, hb]
        rfl
    | some summary =>
      cases summary with
      | simple type =>
        refine Or.inl ⟨some (.parsed (typeName type)), ?_, ?_, ?_⟩
        · rw [TakesPayload, if_neg hv, hb]
        · rw [bodyFormals, if_neg hv, hb]
          rfl
        · rw [invocation, if_neg hv, hb]
          rfl
      | union candidates mapping discriminator =>
        refine Or.inr ⟨hv, candidates, mapping, discriminator, hb, ?_, ?_⟩
        · rw [bodyFormals, if_neg hv, hb]
        · rw [invocation, if_neg hv, hb]

/-- Each call is one of a method of the endpoint. -/
theorem exists_method_of_mem_calls {known : KnownTypes} {schemas : Fields SchemaOrRef}
    {paths : Fields PathItem} (he : endpoint ∈ (resolveEndpoints known schemas paths).items)
    {call : Call} (hc : call ∈ (invocation version endpoint).calls) :
    ∃ payload : Option Payload,
      methodWith version endpoint (payload.toList.map Payload.formal) ∈
        serviceMethods endpoint version ∧
      IsCallOf version endpoint payload call
        (methodWith version endpoint (payload.toList.map Payload.formal)) := by
  rw [serviceMethods_eq]
  obtain ⟨payload, htakes, hf, hi⟩ | ⟨hv, candidates, mapping, discriminator, hb, hf, hi⟩ :=
    isDirect_or_isDispatched version endpoint
  · rw [hi, Invocation.calls, List.mem_singleton] at hc
    refine ⟨payload, List.mem_map_of_mem ?_, hc ▸ isCallOf_callWith htakes⟩
    rw [hf]
    exact List.mem_singleton_self _
  · rw [hi] at hc
    obtain ⟨entry, hentry, rfl⟩ := List.mem_map.mp hc
    obtain ⟨⟨value, candidate⟩, hm, rfl⟩ := List.mem_map.mp hentry
    -- The value selects a candidate, so there is a method with its class as the payload.
    have hcandidate : candidate ∈ candidates :=
      Endpoint.values_mapping_subset_candidates he hb (List.mem_map_of_mem hm)
    have htakes : TakesPayload version endpoint (some (.converted candidate)) := by
      rw [TakesPayload, if_neg hv, hb]
      exact ⟨candidate, hcandidate, rfl⟩
    refine ⟨some (.converted candidate), List.mem_map_of_mem ?_, isCallOf_callWith htakes⟩
    rw [hf]
    exact List.mem_map_of_mem hcandidate

/-! ### Results -/

/-- A method gives nothing back exactly if there is nothing but a code to answer with. -/
theorem methodResult_eq_task_iff (hv : 3 ≤ version) :
    methodResult version endpoint = "Task" ↔
      ∃ code, endpoint.responseSummary = .single none code := by
  have hne : version ≠ 1 := by omega
  have hresult : methodResult version endpoint = resultType endpoint.responseSummary := by
    rw [methodResult, if_neg hne, if_pos hv]
  rw [hresult]
  match endpoint.responseSummary with
  | .untyped => exact iff_of_false (by decide) nofun
  | .single none code => exact iff_of_true rfl ⟨code, rfl⟩
  | .single (some content) _ =>
    refine iff_of_false (fun h => ?_) nofun
    change "Task<" ++ typeName content ++ ">" = "Task" at h
    rw [String.append_assoc] at h
    exact Text.append_ne 5 (by decide) (by decide) _ h
  | .multiCode _ _ (some wrapper) =>
    refine iff_of_false (fun h => ?_) nofun
    change "Task<" ++ wrapper ++ ">" = "Task" at h
    rw [String.append_assoc] at h
    exact Text.append_ne 5 (by decide) (by decide) _ h
  | .multiCode _ _ none =>
    refine iff_of_false (fun h => ?_) nofun
    change "Task<int>" = "Task" at h
    exact absurd h (by decide)

/-! ### Generated texts -/

/-- The lines of a function's body stand in the function, further inside than its other lines. -/
theorem isInfix_functionSource (endpoint : Endpoint) (target : FunctionTarget) :
    (functionBody endpoint target).map ("                " ++ ·) <:+:
      functionSource endpoint target := by
  have hguarded (body handlers : List String) :
      body.map ("                " ++ ·) <:+: guarded body handlers := by
    rw [guarded, List.append_assoc]
    exact List.infix_append _ _ _
  unfold functionSource
  split_ifs <;> exact (hguarded _ _).trans (List.suffix_append _ _).isInfix

/-- The class of functions has the function of each endpoint. -/
theorem mem_functionsSource {endpoints : List Endpoint} {target : FunctionTarget}
    (h : endpoint ∈ endpoints) (imports : List String) :
    (functionSource endpoint target).text ∈ functionsSource endpoints target imports := by
  have hsources : (functionSource endpoint target).text ∈ functionSources endpoints target :=
    List.mem_flatMap.mpr ⟨endpoint, h, List.mem_cons_of_mem _ (List.mem_singleton_self _)⟩
  unfold functionsSource
  split_ifs
  · unfold staticFunctionsSource
    exact List.mem_append_left _ (List.mem_append_right _ hsources)
  · unfold sharedFunctionsSource
    exact List.mem_append_left _ (List.mem_append_left _ (List.mem_append_right _ hsources))

/-- The interface has the methods of each endpoint, one after the other. -/
theorem isInfix_serviceSource {endpoints : List Endpoint} {target : FunctionTarget}
    (h : endpoint ∈ endpoints) :
    (serviceMethods endpoint target.version).flatMap methodLines <:+:
      serviceSource endpoints target := by
  obtain ⟨before, after, rfl⟩ := List.append_of_mem h
  have hmethods : (serviceMethods endpoint target.version).flatMap methodLines <:+:
      ((before ++ endpoint :: after).flatMap (serviceMethods · target.version)).flatMap
        methodLines := by
    rw [List.flatMap_append, List.flatMap_cons, List.flatMap_append, List.flatMap_append,
      ← List.append_assoc]
    exact List.infix_append _ _ _
  unfold serviceSource
  exact hmethods.trans (List.infix_append _ _ _)

/-- The interface and the class of functions are among the files of functions. -/
theorem mem_functionFiles {endpoints : List Endpoint} {target : FunctionTarget}
    {files : List GeneratedFile} (h : functionFiles endpoints target = .ok files) :
    outputFile target.interfaceFolder target.interfaceName (serviceSource endpoints target) ∈
        files ∧
      outputFile target.folder target.functionsName
        (functionsSource endpoints target (functionImports target)) ∈ files := by
  obtain ⟨extras, rfl⟩ : ∃ extras, files = extras ++
      [ outputFile target.interfaceFolder target.interfaceName (serviceSource endpoints target),
        outputFile target.folder target.functionsName
          (functionsSource endpoints target (functionImports target)) ] := by
    unfold functionFiles at h
    split_ifs at h
    · obtain ⟨errors, -, hfiles⟩ := bind_eq_ok.mp h
      exact ⟨_, (Except.ok.inj hfiles).symm⟩
    · exact ⟨_, (Except.ok.inj h).symm⟩
  exact ⟨List.mem_append_right _ List.mem_cons_self,
    List.mem_append_right _ (List.mem_cons_of_mem _ List.mem_cons_self)⟩

/-! ### Calls as declared -/

/-- The functions call the service as its interface declares it. -/
structure CallsAsDeclared (version : Nat) (endpoint : Endpoint) : Prop where
  /-- What is generated for an endpoint is the text of statements. -/
  lines : (bodyOf version endpoint).lines version =
    statements version endpoint (invocation version endpoint)
  /-- Each call among the statements is one of a method of the endpoint, and from version 3 on what
  it gives back is used exactly if the method gives something back. -/
  calls : ∀ block ∈ (bodyOf version endpoint).blocks, ∃ call, callsOf block = [call] ∧
    ∃ method ∈ serviceMethods endpoint version, ∃ payload,
      IsCallOf version endpoint payload call method ∧
        (3 ≤ version → (UsesResult block ↔ method.result ≠ "Task"))
  /-- If the body of the endpoint is no union, there is one method and one call. -/
  single : (∀ candidates mapping discriminator,
      endpoint.bodySummary ≠ some (.union candidates mapping discriminator)) →
    ∃ method block, serviceMethods endpoint version = [method] ∧
      (bodyOf version endpoint).blocks = [block]
  /-- The call that a boilerplate gets is the only one. -/
  sole : ∀ text, soleCall? version (invocation version endpoint) = some text →
    ∃ block call, (bodyOf version endpoint).blocks = [block] ∧ callsOf block = [call] ∧
      text = if version = 1 then call.text else "await _service." ++ call.text
  /-- The statements stand in the function, in the place that its boilerplate has for them. -/
  function : ∀ target : FunctionTarget, target.version = version →
    functionBody endpoint target = applyBoilerplate target.boilerplate
        ((bodyOf version endpoint).lines version)
        (soleCall? version (invocation version endpoint)) ∧
      (functionBody endpoint target).map ("                " ++ ·) <:+:
        functionSource endpoint target
  /-- Among the files, one has the function, and one has the methods. -/
  files : ∀ (endpoints : List Endpoint) (target : FunctionTarget) (files : List GeneratedFile),
    endpoint ∈ endpoints → target.version = version →
      functionFiles endpoints target = .ok files →
        (∃ source : Source, (functionSource endpoint target).text ∈ source ∧
          outputFile target.folder target.functionsName source ∈ files) ∧
        ∃ source : Source, (serviceMethods endpoint version).flatMap methodLines <:+: source ∧
          outputFile target.interfaceFolder target.interfaceName source ∈ files

/-- What is resolved is generated so that its calls are as declared: their names, and one by one
what they pass on. -/
theorem callsAsDeclared_of_resolveEndpoints {known : KnownTypes} {schemas : Fields SchemaOrRef}
    {paths : Fields PathItem} {endpoint : Endpoint}
    (he : endpoint ∈ (resolveEndpoints known schemas paths).items) (version : Nat) :
    CallsAsDeclared version endpoint where
  lines := lines_bodyOf
  calls := by
    intro block hblock
    rw [blocks_bodyOf] at hblock
    obtain ⟨call, hc, rfl⟩ := List.mem_map.mp hblock
    obtain ⟨payload, hm, hcall⟩ := exists_method_of_mem_calls he hc
    refine ⟨call, callsOf_blockOf, _, hm, payload, hcall, fun hv => ?_⟩
    rw [usesResult_blockOf_iff hv, ← not_exists, ← methodResult_eq_task_iff hv]
    rfl
  single := by
    intro hb
    obtain ⟨payload, -, hf, hi⟩ | ⟨-, _, _, _, hunion, -⟩ :=
      isDirect_or_isDispatched version endpoint
    · let call := callWith version endpoint (payload.toList.map Payload.actual)
      refine ⟨methodWith version endpoint (payload.toList.map Payload.formal),
        blockOf version endpoint.responseSummary call, ?_, ?_⟩
      · rw [serviceMethods_eq, hf, List.map_singleton]
      · rw [blocks_bodyOf, hi, Invocation.calls, List.map_singleton]
    · exact absurd hunion (hb _ _ _)
  sole := by
    intro text ht
    rw [blocks_bodyOf]
    cases hi : invocation version endpoint with
    | direct call =>
      rw [hi] at ht
      exact ⟨_, call, rfl, callsOf_blockOf, (Option.some.inj ht).symm⟩
    | dispatch discriminator cases =>
      rw [hi] at ht
      exact absurd ht nofun
  function := by
    rintro target rfl
    refine ⟨?_, isInfix_functionSource endpoint target⟩
    rw [lines_bodyOf]
    rfl
  files := by
    rintro endpoints target files hm rfl hfiles
    obtain ⟨hservice, hfunctions⟩ := mem_functionFiles hfiles
    exact ⟨⟨_, mem_functionsSource hm _, hfunctions⟩, ⟨_, isInfix_serviceSource hm, hservice⟩⟩

/-! ### Guests of a shelter -/

/-- The operations on the guests of a shelter: one is welcomed, or all leave. -/
def guestPaths : Fields PathItem :=
  let operation (operationId : String) (body : Option (Referable RequestBody)) : Operation :=
    ⟨some operationId, none, none, [], body, [("204", .inline ⟨"Done", []⟩)]⟩
  [("/guests", { PathItem.blank with operations :=
    [(.post, operation "welcome" (some (.inline ⟨none,
        [("application/json", ⟨some (.ref "#/components/schemas/Pet")⟩)], true⟩))),
      (.delete, operation "leave" none)] })]

/-- The endpoint of an operation on guests. -/
def guestEndpoint (operationId name : String) (method : HttpMethod) (body : Option BodySummary) :
    Endpoint :=
  ⟨operationId, name, method, "guests", ["204 -> Done"], [], body.isSome, [⟨204, "Done", none⟩],
    .single none 204, body⟩

/-- A guest is welcomed by two calls, one for each kind of pet; all leave by one call. -/
theorem callsAsDeclared_guests :
    let welcome := guestEndpoint "welcome" "WelcomeAsync" .post
      (some (.union ["Cat", "Guest"] [("tom", "Cat"), ("Guest", "Guest")] "pet-kind"))
    let leave := guestEndpoint "leave" "LeaveAsync" .delete none
    (resolveEndpoints .empty shelterSchemas guestPaths).items = [welcome, leave] ∧
      CallsAsDeclared 3 welcome ∧ CallsAsDeclared 3 leave ∧
      (bodyOf 3 welcome).blocks.flatMap (fun block => (callsOf block).map Call.text) =
        ["WelcomeAsync(ToObject<Cat>(jObject))", "WelcomeAsync(ToObject<Guest>(jObject))"] ∧
      (serviceMethods welcome 3).filterMap (fun method => (methodLines method).getLast?) =
        ["        Task WelcomeAsync(Cat payload);", "        Task WelcomeAsync(Guest payload);"] ∧
      soleCall? 3 (invocation 3 leave) = some "await _service.LeaveAsync()" := by
  intro welcome leave
  have hitems : (resolveEndpoints .empty shelterSchemas guestPaths).items = [welcome, leave] := by
    decide +kernel
  have hwelcome : welcome ∈ (resolveEndpoints .empty shelterSchemas guestPaths).items := by
    rw [hitems]
    exact List.mem_cons_self
  have hleave : leave ∈ (resolveEndpoints .empty shelterSchemas guestPaths).items := by
    rw [hitems]
    exact List.mem_cons_of_mem _ List.mem_cons_self
  -- The texts are computed, and that they belong together is the general statement.
  exact ⟨hitems, callsAsDeclared_of_resolveEndpoints hwelcome 3,
    callsAsDeclared_of_resolveEndpoints hleave 3, by decide +kernel, by decide +kernel,
    by decide +kernel⟩

end FunctionForge.CSharp
