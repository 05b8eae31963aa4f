import FunctionForge.Proofs.CSharp.ClientErrors
import Mathlib.Data.List.Flatten
import Mathlib.Data.List.Forall2

/-!
# Conflicts between client errors

The classes are collected in one pass over the responses of all endpoints, which stops at the first
response whose name is taken for another code.  Nevertheless it fails exactly if two responses
anywhere have one name and different codes (`exists_error_iff_conflict`), so that no order matters
(`Reordered.conflict_iff`), and what it stops with is such a pair (`conflict_of_eq_error`).
Otherwise every name gets one class, in the order in which the names first come
(`names_of_clientErrorClasses`).
-/

namespace FunctionForge.CSharp

open Endpoint (ResponseInfo)

variable {classes : List ClientErrorClass} {endpoints others : List Endpoint}

/-! ### Names -/

/-- The name of the exception class of a response: it begins with the stem of the body's type, or
tells the code if there is no body. -/
def clientErrorName (response : ResponseInfo) : String :=
  match response.content with
  | some content => content.stem ++ "ClientError"
  | none => "Generic" ++ Number.decimal response.code ++ "ClientError"

theorem name_clientErrorClass (response : ResponseInfo) :
    (clientErrorClass response).name = clientErrorName response := by
  rw [clientErrorClass, clientErrorName]
  cases response.content with
  | none => rfl
  | some content => rfl

theorem map_name_clientErrorClass (responses : List ResponseInfo) :
    (responses.map clientErrorClass).map ClientErrorClass.name = responses.map clientErrorName := by
  rw [List.map_map]
  exact List.map_congr_left fun response _ => name_clientErrorClass response

/-! ### Conflicts -/

/-- Two responses have one name and different codes. -/
def Conflict (responses : List ResponseInfo) : Prop :=
  ∃ one ∈ responses, ∃ other ∈ responses,
    clientErrorName one = clientErrorName other ∧ one.code ≠ other.code

theorem agree_map_iff_not_conflict {responses : List ResponseInfo} :
    Agree (responses.map clientErrorClass) ↔ ¬ Conflict responses := by
  simp only [Agree, List.forall_mem_map, name_clientErrorClass, code_clientErrorClass]
  constructor
  · rintro h ⟨one, hone, other, hother, hname, hcode⟩
    exact hcode (h one hone other hother hname)
  · intro h one hone other hother hname
    by_contra hcode
    exact h ⟨one, hone, other, hother, hname, hcode⟩

/-- A conflict is between two responses wherever they are. -/
theorem conflict_congr {responses rest : List ResponseInfo}
    (h : ∀ response, response ∈ responses ↔ response ∈ rest) :
    Conflict responses ↔ Conflict rest := by
  simp only [Conflict, h]

/-! ### What a failure tells -/

/-- A class is refused if there is one of its name with another code; both codes are told. -/
theorem addClientError_eq_error {operationId : String} {added : ClientErrorClass}
    {error : GenerationError} (h : addClientError classes (operationId, added) = .error error) :
    ∃ first ∈ classes, first.name = added.name ∧ first.code ≠ added.code ∧
      error = .conflictingCodes operationId (added.element.getD added.name) first.code
        added.code := by
  rw [addClientError] at h
  cases hfind : classes.find? fun other => other.name == added.name with
  | none =>
    simp only [hfind] at h
    cases h
  | some first =>
    simp only [hfind] at h
    split_ifs at h with hcode
    exact ⟨first, List.mem_of_find?_eq_some hfind, by simpa using List.find?_some hfind, hcode,
      (Except.error.inj h).symm⟩

/-- A class that is refused has the name of one before it. -/
theorem foldlM_addClientError_eq_error {entries : List (String × ClientErrorClass)}
    {error : GenerationError} (h : entries.foldlM addClientError [] = .error error) :
    ∃ entry ∈ entries, ∃ first ∈ entries.map Prod.snd,
      first.name = entry.2.name ∧ first.code ≠ entry.2.code ∧
        error = .conflictingCodes entry.1 (entry.2.element.getD entry.2.name) first.code
          entry.2.code := by
  induction entries using List.reverseRecOn with
  | nil => exact absurd h nofun
  | append_singleton before entry ih =>
    rw [List.foldlM_append, bind_eq_error] at h
    rcases h with h | ⟨kept, hkept, hadd⟩
    · obtain ⟨other, hother, first, hfirst, hrest⟩ := ih h
      rw [List.map_append]
      exact ⟨other, List.mem_append_left _ hother, first, List.mem_append_left _ hfirst, hrest⟩
    · simp only [List.foldlM_cons, List.foldlM_nil, bind_pure] at hadd
      obtain ⟨first, hfirst, hrest⟩ := addClientError_eq_error hadd
      -- What is kept so far are classes of the entries before.
      rw [(foldlM_addClientError_eq_ok_iff.mp hkept).2] at hfirst
      rw [List.map_append]
      exact ⟨entry, List.mem_concat_self, first,
        List.mem_append_left _ (mem_of_mem_firsts hfirst), hrest⟩

theorem mem_endpointErrors_iff {entry : String × ClientErrorClass} :
    entry ∈ endpoints.flatMap endpointErrors ↔
      ∃ endpoint ∈ endpoints, ∃ response ∈ endpoint.responses, response.isClientError = true ∧
        entry = (endpoint.operationId, clientErrorClass response) := by
  simp only [List.mem_flatMap, endpointErrors, List.mem_map, List.mem_filter, and_assoc, eq_comm]

/-- What a failure tells is a conflict: the operation that returns the second response, its type or,
without a body, its name, and the codes of both. -/
theorem conflict_of_eq_error {error : GenerationError}
    (h : clientErrorClasses endpoints = .error error) :
    ∃ endpoint ∈ endpoints, ∃ response ∈ endpoint.responses, response.isClientError = true ∧
      ∃ first ∈ clientErrors endpoints, clientErrorName first = clientErrorName response ∧
        first.code ≠ response.code ∧
        error = .conflictingCodes endpoint.operationId
          ((response.content.map typeName).getD (clientErrorName response)) first.code
          response.code := by
  obtain ⟨entry, hentry, kept, hkept, hname, hcode, rfl⟩ := foldlM_addClientError_eq_error h
  obtain ⟨endpoint, he, response, hr, hclient, rfl⟩ := mem_endpointErrors_iff.mp hentry
  rw [map_snd_endpointErrors] at hkept
  obtain ⟨first, hfirst, rfl⟩ := List.mem_map.mp hkept
  rw [name_clientErrorClass, name_clientErrorClass] at hname
  rw [code_clientErrorClass, code_clientErrorClass] at hcode
  refine ⟨endpoint, he, response, hr, hclient, first, hfirst, hname, hcode, ?_⟩
  rw [element_clientErrorClass, name_clientErrorClass, code_clientErrorClass,
    code_clientErrorClass]

/-- There are no classes exactly if there is a conflict. -/
theorem exists_error_iff_conflict :
    (∃ error, clientErrorClasses endpoints = .error error) ↔ Conflict (clientErrors endpoints) := by
  constructor
  · rintro ⟨error, herror⟩
    obtain ⟨endpoint, he, response, hr, hclient, first, hfirst, hname, hcode, -⟩ :=
      conflict_of_eq_error herror
    have hm := mem_clientErrors_iff.mpr ⟨endpoint, he, hr, hclient⟩
    exact ⟨first, hfirst, response, hm, hname, hcode⟩
  · intro hconflict
    cases hclasses : clientErrorClasses endpoints with
    | error error => exact ⟨error, rfl⟩
    | ok classes =>
      have hagree := (clientErrorClasses_eq_ok_iff.mp hclasses).1
      exact absurd hconflict (agree_map_iff_not_conflict.mp hagree)

/-! ### Orders -/

/-- Endpoints in any order, each with its responses in any order. -/
def Reordered (endpoints others : List Endpoint) : Prop :=
  ∃ middle, endpoints.Perm middle ∧
    List.Forall₂ (fun one other => one.responses.Perm other.responses) middle others

theorem Reordered.mem_clientErrors_iff (h : Reordered endpoints others) (response : ResponseInfo) :
    response ∈ clientErrors endpoints ↔ response ∈ clientErrors others := by
  obtain ⟨middle, hperm, hsame⟩ := h
  have hmiddle : response ∈ clientErrors endpoints ↔ response ∈ clientErrors middle :=
    (hperm.flatMap_right _).mem_iff
  rw [hmiddle]
  clear hperm hmiddle
  induction hsame with
  | nil => rfl
  | cons hone _ ih =>
    rw [clientErrors, clientErrors] at ih ⊢
    rw [List.flatMap_cons, List.flatMap_cons, List.mem_append, List.mem_append]
    exact or_congr (hone.filter _).mem_iff ih

theorem Reordered.conflict_iff (h : Reordered endpoints others) :
    Conflict (clientErrors endpoints) ↔ Conflict (clientErrors others) :=
  conflict_congr h.mem_clientErrors_iff

/-! ### Other responses -/

/-- Endpoints that differ in nothing but responses that report no errors of the client, as far as
exceptions go. -/
def SameClientErrors (endpoints others : List Endpoint) : Prop :=
  List.Forall₂ (fun one other => one.operationId = other.operationId ∧
    one.responses.filter ResponseInfo.isClientError =
      other.responses.filter ResponseInfo.isClientError) endpoints others

theorem SameClientErrors.clientErrorClasses_eq (h : SameClientErrors endpoints others) :
    clientErrorClasses endpoints = clientErrorClasses others := by
  have hentries : endpoints.flatMap endpointErrors = others.flatMap endpointErrors := by
    induction h with
    | nil => rfl
    | cons hone _ ih =>
      rw [List.flatMap_cons, List.flatMap_cons, ih, endpointErrors, endpointErrors, hone.1, hone.2]
  rw [clientErrorClasses, clientErrorClasses, hentries]

/-! ### Names in order -/

/-- The names of the classes are those of the responses, each where it first comes. -/
theorem names_of_clientErrorClasses (h : clientErrorClasses endpoints = .ok classes) :
    classes.map ClientErrorClass.name =
      ((clientErrors endpoints).map clientErrorName).eraseDups := by
  rw [(clientErrorClasses_eq_ok_iff.mp h).2, map_firsts, map_name_clientErrorClass]

/-- All responses of a name have the code of its class. -/
theorem code_eq_of_name_eq (h : clientErrorClasses endpoints = .ok classes)
    {error : ClientErrorClass} (hm : error ∈ classes) {response : ResponseInfo}
    (hr : response ∈ clientErrors endpoints) (hname : clientErrorName response = error.name) :
    response.code = error.code := by
  obtain ⟨hagree, rfl⟩ := clientErrorClasses_eq_ok_iff.mp h
  rw [← name_clientErrorClass] at hname
  rw [← code_clientErrorClass]
  exact hagree _ (List.mem_map_of_mem hr) _ (mem_of_mem_firsts hm) hname

/-! ### What becomes of a list of endpoints -/

/-- There are no classes exactly if two responses anywhere that report errors of the client have one
name and different codes, in whatever order endpoints and responses come. Otherwise every name has
one class, where it first comes, with the code of all its responses. Other responses do not
count. -/
theorem clientErrorClasses_cases (endpoints : List Endpoint) :
    ((∃ error, clientErrorClasses endpoints = .error error) ↔
        ∃ one ∈ clientErrors endpoints, ∃ other ∈ clientErrors endpoints,
          clientErrorName one = clientErrorName other ∧ one.code ≠ other.code) ∧
      (∀ others, Reordered endpoints others →
        ((∃ error, clientErrorClasses endpoints = .error error) ↔
          ∃ error, clientErrorClasses others = .error error)) ∧
      (∀ classes, clientErrorClasses endpoints = .ok classes →
        classes.map ClientErrorClass.name =
            ((clientErrors endpoints).map clientErrorName).eraseDups ∧
          ∀ error ∈ classes, ∀ response ∈ clientErrors endpoints,
            clientErrorName response = error.name → response.code = error.code) ∧
      ∀ others, SameClientErrors endpoints others →
        clientErrorClasses endpoints = clientErrorClasses others := by
  refine ⟨exists_error_iff_conflict, fun others hothers => ?_, fun classes hclasses => ?_, ?_⟩
  · rw [exists_error_iff_conflict, exists_error_iff_conflict]
    exact hothers.conflict_iff
  · refine ⟨names_of_clientErrorClasses hclasses, fun error hm response hr hname => ?_⟩
    exact code_eq_of_name_eq hclasses hm hr hname
  · exact fun others hothers => hothers.clientErrorClasses_eq

/-- An operation on orders with these responses. -/
def orderEndpoint (operationId name : String) (responses : List ResponseInfo) : Endpoint :=
  { lookupEndpoint operationId name "orders" (.entity "Order") with responses := responses }

/-- Orders are looked up and stored. A problem is told with one code by both, with another one only
if the server is at fault. -/
def orderEndpoints : List Endpoint :=
  [orderEndpoint "getOrder" "GetOrderAsync"
      [⟨404, "Unknown", none⟩, ⟨409, "Clash", some (.entity "Problem")⟩,
        ⟨500, "Failure", some (.entity "Problem")⟩],
    orderEndpoint "putOrder" "PutOrderAsync"
      [⟨409, "Clash", some (.entity "Problem")⟩, ⟨404, "Unknown", none⟩]]

/-- An order that is dropped tells a problem with another code. -/
def dropOrder : Endpoint :=
  orderEndpoint "dropOrder" "DropOrderAsync" [⟨410, "Gone", some (.entity "Problem")⟩]

/-- Problems have one class, and none if another code comes in, at either end. -/
theorem clientErrorClasses_cases_orders :
    (∃ classes, clientErrorClasses orderEndpoints = .ok classes ∧
        classes.map ClientErrorClass.name = ["Generic404ClientError", "ProblemClientError"]) ∧
      (∃ error, clientErrorClasses (orderEndpoints ++ [dropOrder]) = .error error) ∧
      ∃ error, clientErrorClasses (dropOrder :: orderEndpoints) = .error error := by
  have hok : clientErrorClasses orderEndpoints =
      .ok [⟨"Generic404ClientError", 404, none⟩, ⟨"ProblemClientError", 409, some "Problem"⟩] := by
    decide +kernel
  have hfails : ∃ error, clientErrorClasses (orderEndpoints ++ [dropOrder]) = .error error :=
    (clientErrorClasses_cases _).1.mpr (by decide +kernel)
  have hmoved : Reordered (orderEndpoints ++ [dropOrder]) (dropOrder :: orderEndpoints) :=
    ⟨_, List.perm_append_singleton _ _, List.forall₂_same.mpr fun _ _ => .rfl⟩
  refine ⟨⟨_, hok, ?_⟩, hfails, ((clientErrorClasses_cases _).2.1 _ hmoved).mp hfails⟩
  rw [((clientErrorClasses_cases _).2.2.1 _ hok).1]
  decide +kernel

end FunctionForge.CSharp
