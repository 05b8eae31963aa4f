import FunctionForge.CSharp.ErrorSource
import FunctionForge.Proofs.Firsts
import FunctionForge.Proofs.Result
import Mathlib.Data.List.Induction

/-!
# The exceptions for client errors

There is one exception class for each name, and it is that of the first response with this name,
provided that responses of one name have one code (`clientErrorClasses_eq_ok_iff`).  The name only
tells the stem of the body.  So a class answers for a response, with its code and the type of its
body, exactly if a response of this code and type comes first under its name
(`exists_answersFor_iff`); none does if one before it has a body of another type with the same stem
(`not_exists_answersFor_orders`).
-/

namespace FunctionForge.CSharp

open Endpoint (ResponseInfo)

variable {classes after : List ClientErrorClass} {endpoints : List Endpoint}

/-! ### Classes by name -/

/-- Classes of one name stand for one code. -/
def Agree (classes : List ClientErrorClass) : Prop :=
  ∀ one ∈ classes, ∀ other ∈ classes, one.name = other.name → one.code = other.code

theorem agree_concat_iff {added : ClientErrorClass} : Agree (classes ++ [added]) ↔
    Agree classes ∧ ∀ other ∈ classes, other.name = added.name → other.code = added.code := by
  constructor
  · intro h
    refine ⟨fun one hone other hother => ?_, fun other hother => ?_⟩
    · exact h one (List.mem_append_left _ hone) other (List.mem_append_left _ hother)
    · exact h other (List.mem_append_left _ hother) added List.mem_concat_self
  · rintro ⟨hclasses, hadded⟩ one hone other hother heq
    rw [List.mem_append, List.mem_singleton] at hone hother
    rcases hone with hone | rfl
    · rcases hother with hother | rfl
      · exact hclasses one hone other hother heq
      · exact hadded one hone heq
    · rcases hother with hother | rfl
      · exact (hadded other hother heq.symm).symm
      · rfl

/-- What agrees with the first class of each name agrees with all of them. -/
theorem forall_mem_firsts_iff {added : ClientErrorClass} (h : Agree classes) :
    (∀ other ∈ firsts ClientErrorClass.name classes,
        other.name = added.name → other.code = added.code) ↔
      ∀ other ∈ classes, other.name = added.name → other.code = added.code := by
  constructor
  · intro hfirsts other hm heq
    have hname : other.name ∈ (firsts ClientErrorClass.name classes).map ClientErrorClass.name :=
      mem_map_firsts_iff.mpr (List.mem_map_of_mem hm)
    obtain ⟨first, hf, hfirst⟩ := List.mem_map.mp hname
    rw [h other hm first (mem_of_mem_firsts hf) hfirst.symm]
    exact hfirsts first hf (hfirst.trans heq)
  · exact fun hall other hm => hall other (mem_of_mem_firsts hm)

/-- Among classes of distinct names, one is added unless its name is there, and fails if its name
is there with another code. -/
theorem addClientError_eq_ok_iff (hnodup : (classes.map ClientErrorClass.name).Nodup)
    {operationId : String} {added : ClientErrorClass} :
    addClientError classes (operationId, added) = .ok after ↔
      (∀ other ∈ classes, other.name = added.name → other.code = added.code) ∧
        after = classes ++
          [added].filter fun other => other.name ∉ classes.map ClientErrorClass.name := by
  rw [addClientError, List.filter_singleton]
  cases hfind : classes.find? fun other => other.name == added.name with
  | none =>
    have hnone : ∀ other ∈ classes, other.name ≠ added.name := by
      intro other hm
      simpa using List.find?_eq_none.mp hfind other hm
    have hnew : added.name ∉ classes.map ClientErrorClass.name := by
      intro hm
      obtain ⟨other, ho, heq⟩ := List.mem_map.mp hm
      exact hnone other ho heq
    simp only [hnew, not_false_eq_true, decide_true, cond_true, Except.ok.injEq]
    rw [and_iff_right fun other hm heq => absurd heq (hnone other hm), eq_comm]
  | some first =>
    have hm : first ∈ classes := List.mem_of_find?_eq_some hfind
    have hname : first.name = added.name := by simpa using List.find?_some hfind
    have hold : added.name ∈ classes.map ClientErrorClass.name :=
      List.mem_map.mpr ⟨first, hm, hname⟩
    -- The class that is found is the only one of its name.
    have honly : (∀ other ∈ classes, other.name = added.name → other.code = added.code) ↔
        first.code = added.code := by
      constructor
      · exact fun h => h first hm hname
      · intro hcode other ho heq
        rwa [List.inj_on_of_nodup_map hnodup ho hm (heq.trans hname.symm)]
    simp only [hold, not_true_eq_false, decide_false, cond_false, List.append_nil]
    rw [honly]
    split_ifs with hcode
    · rw [and_iff_right hcode, Except.ok.injEq, eq_comm]
    · exact iff_of_false nofun fun h => hcode h.1

/-- Of the classes of one name the first is kept, as long as all of them have one code. -/
theorem foldlM_addClientError_eq_ok_iff {entries : List (String × ClientErrorClass)} :
    entries.foldlM addClientError [] = .ok classes ↔
      Agree (entries.map Prod.snd) ∧
        classes = firsts ClientErrorClass.name (entries.map Prod.snd) := by
  -- By induction from the end, so that the classes so far are the first ones of all entries before.
  induction entries using List.reverseRecOn generalizing classes with
  | nil =>
    have hnone : Agree [] := List.forall_mem_nil _
    rw [List.foldlM_nil, List.map_nil, firsts_nil, and_iff_right hnone]
    exact ⟨fun h => (Except.ok.inj h).symm, fun h => congrArg _ h.symm⟩
  | append_singleton before entry ih =>
    obtain ⟨operationId, added⟩ := entry
    have hstep (h : Agree (before.map Prod.snd)) :
        addClientError (firsts ClientErrorClass.name (before.map Prod.snd))
            (operationId, added) = .ok classes ↔
          Agree (before.map Prod.snd ++ [added]) ∧
            classes = firsts ClientErrorClass.name (before.map Prod.snd ++ [added]) := by
      rw [addClientError_eq_ok_iff (nodup_map_firsts _), agree_concat_iff, forall_mem_firsts_iff h,
        firsts_append]
      simp only [mem_map_firsts_iff]
      rw [and_iff_right h]
      rfl
    rw [List.foldlM_append, bind_eq_ok, List.map_append, List.map_singleton]
    simp only [List.foldlM_cons, List.foldlM_nil, bind_pure, ih]
    constructor
    · rintro ⟨kept, ⟨hagree, rfl⟩, hadd⟩
      exact (hstep hagree).mp hadd
    · intro h
      have hagree := (agree_concat_iff.mp h.1).1
      exact ⟨_, ⟨hagree, rfl⟩, (hstep hagree).mpr h⟩

/-! ### The classes of endpoints -/

/-- The responses of endpoints that report errors of the client. -/
def clientErrors (endpoints : List Endpoint) : List ResponseInfo :=
  endpoints.flatMap fun endpoint => endpoint.responses.filter ResponseInfo.isClientError

theorem mem_clientErrors_iff {response : ResponseInfo} : response ∈ clientErrors endpoints ↔
    ∃ endpoint ∈ endpoints, response ∈ endpoint.responses ∧ response.isClientError = true := by
  rw [clientErrors, List.mem_flatMap]
  simp only [List.mem_filter]

theorem map_snd_endpointErrors : (endpoints.flatMap endpointErrors).map Prod.snd =
    (clientErrors endpoints).map clientErrorClass := by
  rw [clientErrors, List.map_flatMap, List.map_flatMap]
  refine List.flatMap_congr fun endpoint _ => ?_
  rw [endpointErrors, List.map_map]
  rfl

/-- There are classes if those of one name have one code; then there is one for each name, that of
the first response with this name. -/
theorem clientErrorClasses_eq_ok_iff : clientErrorClasses endpoints = .ok classes ↔
    Agree ((clientErrors endpoints).map clientErrorClass) ∧
      classes = firsts ClientErrorClass.name ((clientErrors endpoints).map clientErrorClass) := by
  rw [clientErrorClasses, foldlM_addClientError_eq_ok_iff, map_snd_endpointErrors]

/-! ### Responses and their classes -/

theorem code_clientErrorClass (response : ResponseInfo) :
    (clientErrorClass response).code = response.code := by
  rw [clientErrorClass]
  split
  · rfl
  · rfl

theorem element_clientErrorClass (response : ResponseInfo) :
    (clientErrorClass response).element = response.content.map typeName := by
  rw [clientErrorClass]
  cases response.content with
  | none => rfl
  | some content => rfl

/-- No response before this one has a class of the same name. -/
def ComesFirst (responses : List ResponseInfo) (response : ResponseInfo) : Prop :=
  ∃ before after, responses = before ++ response :: after ∧
    ∀ other ∈ before, (clientErrorClass other).name ≠ (clientErrorClass response).name

theorem comesFirst_iff_mem_firsts {responses : List ResponseInfo} {response : ResponseInfo} :
    ComesFirst responses response ↔
      response ∈ firsts (fun response => (clientErrorClass response).name) responses :=
  mem_firsts_iff.symm

/-- The classes that are kept are those of the responses that come first under their names. -/
theorem mem_firsts_clientErrorClass_iff {responses : List ResponseInfo}
    {error : ClientErrorClass} :
    error ∈ firsts ClientErrorClass.name (responses.map clientErrorClass) ↔
      ∃ response, ComesFirst responses response ∧ clientErrorClass response = error := by
  simp only [firsts_map, List.mem_map, comesFirst_iff_mem_firsts]

theorem ComesFirst.mem {responses : List ResponseInfo} {response : ResponseInfo}
    (h : ComesFirst responses response) : response ∈ responses :=
  mem_of_mem_firsts (comesFirst_iff_mem_firsts.mp h)

/-- For every response there is one that comes first under its name. -/
theorem exists_comesFirst {responses : List ResponseInfo} {response : ResponseInfo}
    (h : response ∈ responses) : ∃ first, ComesFirst responses first ∧
      (clientErrorClass first).name = (clientErrorClass response).name := by
  have hname := mem_map_firsts_iff.mpr
    (List.mem_map_of_mem (f := fun response => (clientErrorClass response).name) h)
  obtain ⟨first, hfirst, heq⟩ := List.mem_map.mp hname
  exact ⟨first, comesFirst_iff_mem_firsts.mpr hfirst, heq⟩

/-- A class answers as a response does: it has its code, and its element is of the type of the
body. -/
structure AnswersFor (error : ClientErrorClass) (response : ResponseInfo) : Prop where
  code : error.code = response.code
  element : error.element = response.content.map typeName

theorem answersFor_clientErrorClass_iff {source response : ResponseInfo} :
    AnswersFor (clientErrorClass source) response ↔
      source.code = response.code ∧
        source.content.map typeName = response.content.map typeName := by
  constructor
  · intro h
    rw [← code_clientErrorClass source, ← element_clientErrorClass source]
    exact ⟨h.code, h.element⟩
  · rintro ⟨hcode, hcontent⟩
    exact ⟨(code_clientErrorClass source).trans hcode,
      (element_clientErrorClass source).trans hcontent⟩

/-- The class under the name of a response is that of the first response with this name, and has
the code of both. Some class answers for a response exactly if a response of its code and type comes
first under its name; so one does if all responses of the name have its type. -/
theorem exists_answersFor_iff (h : clientErrorClasses endpoints = .ok classes)
    {endpoint : Endpoint} (he : endpoint ∈ endpoints) {response : ResponseInfo}
    (hr : response ∈ endpoint.responses) (herror : response.isClientError = true) :
    (∃ first, ComesFirst (clientErrors endpoints) first ∧ clientErrorClass first ∈ classes ∧
        (clientErrorClass first).name = (clientErrorClass response).name ∧
        first.code = response.code) ∧
      ((∃ error ∈ classes, AnswersFor error response) ↔
        ∃ source, ComesFirst (clientErrors endpoints) source ∧ source.code = response.code ∧
          source.content.map typeName = response.content.map typeName) ∧
      ((∀ other ∈ clientErrors endpoints,
          (clientErrorClass other).name = (clientErrorClass response).name →
          other.content.map typeName = response.content.map typeName) →
        ∃ error ∈ classes, AnswersFor error response) := by
  obtain ⟨hagree, rfl⟩ := clientErrorClasses_eq_ok_iff.mp h
  have hm : response ∈ clientErrors endpoints := mem_clientErrors_iff.mpr ⟨endpoint, he, hr, herror⟩
  have hserved : (∃ error ∈ firsts ClientErrorClass.name
        ((clientErrors endpoints).map clientErrorClass), AnswersFor error response) ↔
      ∃ source, ComesFirst (clientErrors endpoints) source ∧ source.code = response.code ∧
        source.content.map typeName = response.content.map typeName := by
    constructor
    · rintro ⟨error, hkept, hanswers⟩
      obtain ⟨source, hsource, rfl⟩ := mem_firsts_clientErrorClass_iff.mp hkept
      exact ⟨source, hsource, answersFor_clientErrorClass_iff.mp hanswers⟩
    · rintro ⟨source, hsource, hsame⟩
      exact ⟨clientErrorClass source, mem_firsts_clientErrorClass_iff.mpr ⟨source, hsource, rfl⟩,
        answersFor_clientErrorClass_iff.mpr hsame⟩
  obtain ⟨first, hfirst, hname⟩ := exists_comesFirst hm
  -- The name is the same, so that agreement gives the code.
  have hcode : first.code = response.code := by
    have hclasses := hagree _ (List.mem_map_of_mem hfirst.mem) _ (List.mem_map_of_mem hm) hname
    rwa [code_clientErrorClass, code_clientErrorClass] at hclasses
  refine ⟨⟨first, hfirst, ?_, hname, hcode⟩, hserved, fun hsame => hserved.mpr ?_⟩
  · exact mem_firsts_clientErrorClass_iff.mpr ⟨first, hfirst, rfl⟩
  · exact ⟨first, hfirst, hcode, hsame first hfirst.mem hname⟩

/-! ### Orders -/

/-- A lookup that answers with a body of some type if nothing is found. -/
def lookupEndpoint (operationId name path : String) (content : TypeRef) : Endpoint :=
  { operationId, name, method := .get, path, documentation := [], parameters := [],
    needsRequestBody := false, responses := [⟨404, "Not found", some content⟩],
    responseSummary := .untyped, bodySummary := none }

/-- Orders are looked up one by one or all at once. -/
def lookups (bulk : TypeRef) : List Endpoint :=
  [lookupEndpoint "getOrders" "GetOrdersAsync" "orders" (.entity "OrderList"),
    lookupEndpoint "getBulk" "GetBulkAsync" "bulk" bulk]

/-- A list of items has a class besides that of a list of orders with an own class. -/
theorem exists_answersFor_items :
    ∃ classes, clientErrorClasses (lookups (.list (.entity "Item"))) = .ok classes ∧
      ∃ error ∈ classes, AnswersFor error ⟨404, "Not found", some (.list (.entity "Item"))⟩ := by
  have hclasses : clientErrorClasses (lookups (.list (.entity "Item"))) =
      .ok [⟨"OrderListClientError", 404, some "OrderList"⟩,
        ⟨"ItemListClientError", 404, some "ICollection<Item>"⟩] := by
    decide +kernel
  obtain ⟨-, -, hserved⟩ := exists_answersFor_iff hclasses
    (List.mem_cons_of_mem _ (List.mem_singleton_self _)) (List.mem_singleton_self _) rfl
  exact ⟨_, hclasses, hserved (by decide +kernel)⟩

/-- A list of orders has no class besides that of the entity of the same stem. -/
theorem not_exists_answersFor_orders :
    ∃ classes, clientErrorClasses (lookups (.list (.entity "Order"))) = .ok classes ∧
      ∃ endpoint ∈ lookups (.list (.entity "Order")), ∃ response ∈ endpoint.responses,
        response.isClientError = true ∧ ¬ ∃ error ∈ classes, AnswersFor error response := by
  refine ⟨[⟨"OrderListClientError", 404, some "OrderList"⟩], by decide +kernel, _,
    List.mem_cons_of_mem _ (List.mem_singleton_self _), _, List.mem_singleton_self _, rfl, ?_⟩
  rintro ⟨error, hm, hanswers⟩
  have helement := hanswers.element
  rw [List.mem_singleton.mp hm] at helement
  exact absurd helement (by decide +kernel)

end FunctionForge.CSharp
