import FunctionForge.CSharp.Invocation
import FunctionForge.Proofs.Fields

/-!
# The statements of a function

What a function does, as a tree: statements that call the service and answer with what comes back,
and, for a union, a choice of such statements by the discriminator.  `bodyOf` is the tree of an
endpoint, and what is generated for the endpoint is the text of that tree (`lines_bodyOf`).  So the
calls in the tree are all the calls that a function has.
-/

namespace FunctionForge.CSharp

open Endpoint (ResponseSummary)

/-! ### Trees -/

/-- What an answer is made of. -/
inductive Expression where
  | number (n : Nat)
  /-- What a variable holds. -/
  | value (name : String)
  /-- The body that a result wrapper holds. -/
  | data (wrapper : String)
  /-- The code that a result wrapper holds, as a number. -/
  | resultCode (wrapper : String)
  deriving DecidableEq

namespace Expression

/-- The text of an expression. -/
def text : Expression → String
  | .number n => Number.decimal n
  | .value name => name
  | .data wrapper => wrapper ++ ".Data"
  | .resultCode wrapper => "(int)" ++ wrapper ++ ".ResultCode"

/-- The variable that an expression reads. -/
def reads? : Expression → Option String
  | .number _ => none
  | .value name => some name
  | .data wrapper => some wrapper
  | .resultCode wrapper => some wrapper

end Expression

/-- A statement that calls the service or answers a request. -/
inductive Statement where
  /-- Answers with what a call gives back. -/
  | forward (call : Call)
  /-- Keeps what a call gives back in a variable. -/
  | bind (name : String) (call : Call)
  /-- Calls, and drops what the call gives back. -/
  | drop (call : Call)
  /-- Answers with a status code. -/
  | answer (code : Expression)
  /-- Answers with a body and a status code. -/
  | answerWith (body code : Expression)
  deriving DecidableEq

/-- A call of the service in a version. -/
def awaitedIn (version : Nat) (call : Call) : String :=
  (if version = 1 then "await Service(req, log)." else "await _service.") ++ call.text

namespace Statement

/-- The text of a statement. -/
def text (version : Nat) : Statement → String
  | .forward call => "return " ++ awaitedIn version call ++ ";"
  | .bind name call => "var " ++ name ++ " = " ++ awaitedIn version call ++ ";"
  | .drop call => awaitedIn version call ++ ";"
  | .answer code => "return new StatusCodeResult(" ++ code.text ++ ");"
  | .answerWith body code =>
    "return new JsonResult(" ++ body.text ++ ") \x7b StatusCode = " ++ code.text ++ " \x7d;"

theorem text_forward (version : Nat) (call : Call) :
    text version (.forward call) = "return " ++ awaitedIn version call ++ ";" := rfl

theorem text_bind (version : Nat) (name : String) (call : Call) :
    text version (.bind name call) = "var " ++ name ++ " = " ++ awaitedIn version call ++ ";" := rfl

theorem text_drop (version : Nat) (call : Call) :
    text version (.drop call) = awaitedIn version call ++ ";" := rfl

theorem text_answerWith (version : Nat) (body code : Expression) :
    text version (.answerWith body code) =
      "return new JsonResult(" ++ body.text ++ ") \x7b StatusCode = " ++ code.text ++ " \x7d;" :=
  rfl

/-- The call in a statement. -/
def call? : Statement → Option Call
  | .forward call => some call
  | .bind _ call => some call
  | .drop call => some call
  | .answer _ => none
  | .answerWith _ _ => none

/-- The variables that a statement reads. -/
def reads : Statement → List String
  | .answer code => code.reads?.toList
  | .answerWith body code => body.reads?.toList ++ code.reads?.toList
  | _ => []

end Statement

/-- The calls in statements that are run one after the other. -/
def callsOf (block : List Statement) : List Call :=
  block.filterMap Statement.call?

/-- Statements make something of the result of their call: they answer with it, or a statement
reads the variable that it is kept in. -/
def UsesResult (block : List Statement) : Prop :=
  (∃ call, .forward call ∈ block) ∨
    ∃ name call, .bind name call ∈ block ∧ ∃ statement ∈ block, name ∈ statement.reads

/-- What a function does. -/
inductive Body where
  | plain (block : List Statement)
  /-- The discriminator, and the statements for each of its values. -/
  | dispatch (discriminator : String) (cases : Fields (List Statement))

namespace Body

/-- The statements of which one list is run. -/
def blocks : Body → List (List Statement)
  | .plain block => [block]
  | .dispatch _ cases => cases.values

/-- The lines of one case of a choice. -/
def caseLines (version : Nat) (entry : String × List Statement) : List String :=
  ["    case \"" ++ entry.1 ++ "\":", "    \x7b"] ++
    (entry.2.map (Statement.text version)).map ("        " ++ ·) ++
    ["    \x7d"]

/-- The lines of a function's body. -/
def lines (version : Nat) : Body → List String
  | .plain block => block.map (Statement.text version)
  | .dispatch discriminator cases =>
    [ "var jObject = await ParseJson<JObject>(request.Body);",
      "switch (jObject[\"" ++ discriminator ++ "\"]?.ToString())",
      "\x7b" ] ++
      cases.flatMap (caseLines version) ++
      [ "    default:",
        "        return new BadRequestObjectResult(\"" ++ discriminator ++ " must be one of: " ++
          Text.join ", " cases.keys ++ "\");",
        "\x7d" ]

end Body

/-! ### The tree of an endpoint -/

/-- The statements that call the service and answer with what comes back. -/
def blockOf (version : Nat) (summary : ResponseSummary) (call : Call) : List Statement :=
  if version < 3 then [.forward call]
  else
    match summary with
    | .untyped => [.forward call]
    | .single none code => [.drop call, .answer (.number code)]
    | .single (some _) code =>
      [.bind "result" call, .answerWith (.value "result") (.number code)]
    | .multiCode _ _ (some _) =>
      [.bind "result" call, .answerWith (.data "result") (.resultCode "result")]
    | .multiCode _ _ none => [.bind "code" call, .answer (.value "code")]

/-- The calls of an invocation. -/
def Invocation.calls : Invocation → List Call
  | .direct call => [call]
  | .dispatch _ cases => cases.values

/-- What the function of an endpoint does. -/
def bodyOf (version : Nat) (endpoint : Endpoint) : Body :=
  match invocation version endpoint with
  | .direct call => .plain (blockOf version endpoint.responseSummary call)
  | .dispatch discriminator cases =>
    .dispatch discriminator (cases.mapValues (blockOf version endpoint.responseSummary))

variable {version : Nat} {summary : ResponseSummary} {call : Call} {endpoint : Endpoint}

/-- Each call of an invocation has statements of its own. -/
theorem blocks_bodyOf : (bodyOf version endpoint).blocks =
    (invocation version endpoint).calls.map (blockOf version endpoint.responseSummary) := by
  unfold bodyOf
  cases invocation version endpoint with
  | direct call => rfl
  | dispatch discriminator cases =>
    change List.map Prod.snd (List.map _ cases) = List.map _ (List.map Prod.snd cases)
    rw [List.map_map, List.map_map]
    rfl

/-- A block makes its call once. -/
theorem callsOf_blockOf : callsOf (blockOf version summary call) = [call] := by
  unfold blockOf
  split_ifs
  · rfl
  · split <;> rfl

/-- Only a function that has nothing to answer with drops what a call gives back. -/
theorem usesResult_blockOf_iff (hv : 3 ≤ version) :
    UsesResult (blockOf version summary call) ↔ ∀ code, summary ≠ .single none code := by
  have hnot : ¬version < 3 := Nat.not_lt.mpr hv
  unfold blockOf
  rw [if_neg hnot]
  -- Only a single code without content leaves the result unused.
  match summary with
  | .untyped => exact iff_of_true (Or.inl ⟨call, List.mem_singleton_self _⟩) (fun _ => nofun)
  | .single none code =>
    refine iff_of_false ?_ fun h => h code rfl
    simp [UsesResult]
  | .single (some _) code =>
    refine iff_of_true (Or.inr ⟨"result", call, List.mem_cons_self, ?_⟩) (fun _ => nofun)
    exact ⟨_, List.mem_cons_of_mem _ List.mem_cons_self, List.mem_cons_self⟩
  | .multiCode _ _ (some _) =>
    refine iff_of_true (Or.inr ⟨"result", call, List.mem_cons_self, ?_⟩) (fun _ => nofun)
    exact ⟨_, List.mem_cons_of_mem _ List.mem_cons_self, List.mem_cons_self⟩
  | .multiCode _ _ none =>
    refine iff_of_true (Or.inr ⟨"code", call, List.mem_cons_self, ?_⟩) (fun _ => nofun)
    exact ⟨_, List.mem_cons_of_mem _ List.mem_cons_self, List.mem_cons_self⟩

theorem awaitedIn_of_ne (hv : version ≠ 1) : awaitedIn version call = awaited call := by
  rw [awaitedIn, if_neg hv]
  rfl

/-- The text of a block are the statements that are generated for its summary. -/
theorem text_blockOf (hv : version ≠ 1) :
    (blockOf version summary call).map (Statement.text version) =
      resultStatements version summary call := by
  have hresult : "var " ++ "result" ++ " = " = "var result = " := by decide
  have hcode : "var " ++ "code" ++ " = " = "var code = " := by decide
  have hbody : "return new JsonResult(" ++ "result" ++ ") \x7b StatusCode = " =
      "return new JsonResult(result) \x7b StatusCode = " := by decide
  have hcall := @awaitedIn_of_ne version call hv
  -- The cases are those of the summary, and every text is put together in another way.
  unfold blockOf resultStatements
  split_ifs
  · rw [List.map_singleton, Statement.text_forward, hcall]
  · match summary with
    | .untyped => rw [List.map_singleton, Statement.text_forward, hcall]
    | .single none code =>
      rw [List.map_cons, List.map_singleton, Statement.text_drop, hcall]
      rfl
    | .single (some _) code =>
      rw [List.map_cons, List.map_singleton, Statement.text_bind, hcall, hresult,
        Statement.text_answerWith]
      change [_, "return new JsonResult(" ++ "result" ++ ") \x7b StatusCode = " ++ _ ++ _] = _
      rw [hbody]
      rfl
    | .multiCode _ _ (some _) =>
      rw [List.map_cons, List.map_singleton, Statement.text_bind, hcall, hresult]
      rfl
    | .multiCode _ _ none =>
      rw [List.map_cons, List.map_singleton, Statement.text_bind, hcall, hcode]
      rfl

theorem text_caseLines (hv : version ≠ 1) (entry : String × Call) :
    Body.caseLines version (entry.1, blockOf version summary entry.2) =
      caseStatements version summary entry := by
  simp only [Body.caseLines, text_blockOf hv]
  rfl

theorem exists_direct_invocation_one : ∃ call, invocation 1 endpoint = .direct call :=
  ⟨_, rfl⟩

/-- What is generated for an endpoint is the text of its tree. -/
theorem lines_bodyOf :
    (bodyOf version endpoint).lines version =
      statements version endpoint (invocation version endpoint) := by
  unfold bodyOf
  -- The first version only forwards its call, and answers with nothing of its own.
  by_cases hv : version = 1
  · subst hv
    obtain ⟨call, hc⟩ := @exists_direct_invocation_one endpoint
    have hlead : "return " ++ ("await Service(req, log)." ++ call.text) =
        "return await Service(req, log)." ++ call.text := by
      rw [← String.append_assoc]
      congr 1
    rw [hc]
    change ["return " ++ ("await Service(req, log)." ++ call.text) ++ ";"] = _
    rw [hlead]
    rfl
  · cases invocation version endpoint with
    | direct call =>
      simp only [statements, if_neg hv]
      exact text_blockOf hv
    | dispatch discriminator cases =>
      have hcases : (cases.mapValues (blockOf version endpoint.responseSummary)).flatMap
          (Body.caseLines version) =
            cases.flatMap (caseStatements version endpoint.responseSummary) := by
        rw [Fields.mapValues, List.flatMap_map]
        exact congrArg (List.flatMap · cases) (funext (text_caseLines hv))
      have hkeys : (cases.mapValues (blockOf version endpoint.responseSummary)).keys =
          cases.keys := Fields.keys_mapValues _ _
      change [_, _, _] ++ (cases.mapValues _).flatMap (Body.caseLines version) ++
        [_, _ ++ Text.join ", " (cases.mapValues _).keys ++ _, _] = _
      rw [hcases, hkeys]
      rfl

end FunctionForge.CSharp
