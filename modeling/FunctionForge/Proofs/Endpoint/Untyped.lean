import FunctionForge.Proofs.Endpoint.Contents

/-!
# Untyped results

The result of an operation is untyped exactly if none of the responses that are given in place
reports success, the content of one of them cannot be used, an unresolved reference has the code of
one of them, or two of them differ in type (`responseSummary_eq_untyped_iff`).  So a content that
cannot be used always makes the result untyped, and a reference that is not resolved does so only if
a response that is given in place has its code: its own code is kept among the degraded ones, but
these are asked for the codes of the responses that are kept, and a reference is not
(`resolve_lendingSite`).
-/

namespace FunctionForge.Endpoint

open Document (MediaType Operation Referable Response)

variable {known : KnownTypes} {schemas : Fields Document.SchemaOrRef} {operation : Operation}

/-! ### Responses -/

/-- A response has a code that reports success. -/
def AnswersWith (operation : Operation) (code : Nat) (given : Referable Response) : Prop :=
  (200 ≤ code ∧ code < 300) ∧
    ∃ key, (key, given) ∈ operation.responses ∧ statusCode? key = some code

theorem mem_responseInfos_iff {info : ResponseInfo} :
    info ∈ responseInfos known operation ↔
      ∃ key response, (key, .inline response) ∈ operation.responses ∧
        ownInfo? known key response = some info := by
  rw [responseInfos_eq, List.mem_filterMap]
  constructor
  · rintro ⟨⟨key, given⟩, hm, hi⟩
    cases given with
    | ref path =>
      obtain ⟨outcome, ho, hi⟩ := Option.bind_eq_some_iff.mp hi
      obtain ⟨code, -, rfl⟩ := Option.map_eq_some_iff.mp ho
      cases hi
    | inline response =>
      rw [info?_responseOutcome?] at hi
      exact ⟨key, response, hm, hi⟩
  · rintro ⟨key, response, hm, hi⟩
    exact ⟨_, hm, (info?_responseOutcome? known key response).trans hi⟩

/-- The responses that report success are those that are given in place with such a code. -/
theorem mem_successes_iff {info : ResponseInfo} :
    info ∈ successes (responseInfos known operation) ↔
      ∃ response, AnswersWith operation info.code (.inline response) ∧
        info = ⟨info.code, response.description, usableType known response.content⟩ := by
  rw [successes, List.mem_filter, mem_responseInfos_iff, ResponseInfo.isSuccess, Bool.and_eq_true,
    decide_eq_true_eq, decide_eq_true_eq]
  constructor
  · rintro ⟨⟨key, response, hm, hi⟩, hsuccess⟩
    obtain ⟨code, hcode, rfl⟩ := Option.map_eq_some_iff.mp hi
    exact ⟨response, ⟨hsuccess, key, hm, hcode⟩, rfl⟩
  · rintro ⟨response, ⟨hsuccess, key, hm, hcode⟩, hi⟩
    refine ⟨⟨key, response, hm, ?_⟩, hsuccess⟩
    rw [ownInfo?, hcode, Option.map_some, ← hi]

/-- A code is degraded by an unresolved reference or by a content that cannot be used. -/
theorem mem_degradedCodes_iff {code : Nat} (hsuccess : 200 ≤ code ∧ code < 300) :
    code ∈ degradedCodes known operation ↔
      (∃ path, AnswersWith operation code (.ref path)) ∨
        ∃ response cause, AnswersWith operation code (.inline response) ∧
          resolveContentType known response.content = .error cause := by
  rw [degradedCodes, responseOutcomes, List.filterMap_filterMap, List.mem_filterMap]
  constructor
  · rintro ⟨⟨key, given⟩, hm, hd⟩
    obtain ⟨outcome, ho, hd⟩ := Option.bind_eq_some_iff.mp hd
    obtain ⟨found, hcode, rfl⟩ := Option.map_eq_some_iff.mp ho
    cases given with
    | ref path =>
      obtain rfl := Option.some.inj hd
      exact Or.inl ⟨path, hsuccess, key, hm, hcode⟩
    | inline response =>
      cases hc : resolveContentType known response.content with
      | ok content =>
        simp only [hc] at hd
        cases hd
      | error cause =>
        simp only [hc] at hd
        obtain rfl := Option.some.inj hd
        exact Or.inr ⟨response, cause, ⟨hsuccess, key, hm, hcode⟩, hc⟩
  · rintro (⟨path, -, key, hm, hcode⟩ | ⟨response, cause, ⟨-, key, hm, hcode⟩, hc⟩)
    · refine ⟨_, hm, ?_⟩
      rw [responseOutcome?, hcode]
      rfl
    · refine ⟨_, hm, ?_⟩
      simp only [responseOutcome?, hcode, hc]
      rfl

/-! ### Endpoints -/

/-- The result of an operation is untyped exactly if no response that is given in place reports
success, the content of one that does cannot be used, an unresolved reference has the code of one
that does, or two of them differ in type. -/
theorem responseSummary_eq_untyped_iff {site : Site} {endpoint : Endpoint}
    (h : resolve known schemas site = .ok endpoint) :
    endpoint.responseSummary = .untyped ↔
      (∀ code response, ¬AnswersWith site.operation code (.inline response)) ∨
      (∃ code response cause, AnswersWith site.operation code (.inline response) ∧
        resolveContentType known response.content = .error cause) ∨
      (∃ code path response, AnswersWith site.operation code (.ref path) ∧
        AnswersWith site.operation code (.inline response)) ∨
      ∃ code response code' response', AnswersWith site.operation code (.inline response) ∧
        AnswersWith site.operation code' (.inline response') ∧
        usableType known response.content ≠ usableType known response'.content := by
  obtain ⟨-, -, -, hr, hs⟩ := ofSite_eq_ok (ofSite_of_resolve h)
  -- A response that is given in place is kept, whether its content is of use or not.
  have hkept {code : Nat} {response : Response}
      (ha : AnswersWith site.operation code (.inline response)) :
      ⟨code, response.description, usableType known response.content⟩ ∈
        successes (responseInfos known site.operation) := mem_successes_iff.mpr ⟨response, ha, rfl⟩
  rw [hs, hr, summarize_eq_untyped_iff]
  constructor
  · rintro (hnone | ⟨info, hi, hd⟩ | ⟨info, hi, other, ho, hne⟩)
    · refine Or.inl fun code response ha => ?_
      rw [hnone] at hkept
      exact absurd (hkept ha) List.not_mem_nil
    · obtain ⟨response, ha, -⟩ := mem_successes_iff.mp hi
      rcases (mem_degradedCodes_iff ha.1).mp hd with ⟨path, href⟩ | ⟨broken, cause, hb, hc⟩
      · exact Or.inr (Or.inr (Or.inl ⟨_, path, response, href, ha⟩))
      · exact Or.inr (Or.inl ⟨_, broken, cause, hb, hc⟩)
    · obtain ⟨response, ha, heq⟩ := mem_successes_iff.mp hi
      obtain ⟨response', ha', heq'⟩ := mem_successes_iff.mp ho
      rw [heq, heq'] at hne
      exact Or.inr (Or.inr (Or.inr ⟨_, response, _, response', ha, ha', hne⟩))
  · rintro (hnone | ⟨code, response, cause, ha, hc⟩ | ⟨code, path, response, href, ha⟩ |
      ⟨code, response, code', response', ha, ha', hne⟩)
    · refine Or.inl (List.eq_nil_iff_forall_not_mem.mpr fun info hi => ?_)
      obtain ⟨response, ha, -⟩ := mem_successes_iff.mp hi
      exact hnone _ _ ha
    · exact Or.inr (Or.inl ⟨_, hkept ha, (mem_degradedCodes_iff ha.1).mpr
        (Or.inr ⟨response, cause, ha, hc⟩)⟩)
    · exact Or.inr (Or.inl ⟨_, hkept ha, (mem_degradedCodes_iff ha.1).mpr (Or.inl ⟨path, href⟩)⟩)
    · exact Or.inr (Or.inr ⟨_, hkept ha, _, hkept ha', hne⟩)

/-! ### Lending -/

/-- The content of a body that is a pet. -/
def petContent : Fields MediaType :=
  [("application/json", ⟨some (.ref "#/components/schemas/Pet")⟩)]

/-- The operation that lends a pet, which answers with it or else with what `given` says. -/
def lendingSite (given : Referable Response) : Site where
  path := "/pets"
  method := .put
  pathParameters := []
  operation := ⟨some "lend", none, none, [], none,
    [("200", .inline ⟨"Lent", petContent⟩), ("201", given)]⟩

/-- A second content in two media types cannot be used, and makes the result untyped. -/
theorem responseSummary_eq_untyped_iff_lending :
    let broken : Response := ⟨"Lent out", ("text/plain", ⟨none⟩) :: petContent⟩
    ∃ endpoint, resolve .empty [] (lendingSite (.inline broken)) = .ok endpoint ∧
      endpoint.responses.map ResponseInfo.code = [200, 201] ∧
      endpoint.responseSummary = .untyped := by
  intro broken
  obtain ⟨endpoint, h, hcodes⟩ : ∃ endpoint,
      resolve .empty [] (lendingSite (.inline broken)) = .ok endpoint ∧
        endpoint.responses.map ResponseInfo.code = [200, 201] := ⟨_, rfl, by decide +kernel⟩
  refine ⟨endpoint, h, hcodes, (responseSummary_eq_untyped_iff h).mpr (Or.inr (Or.inl ?_))⟩
  exact ⟨201, broken, .severalMediaTypes ["text/plain", "application/json"],
    ⟨by decide, "201", by simp [lendingSite], by decide +kernel⟩, rfl⟩

/-- A second response that is not resolved is passed over: the result is that of the first one. -/
theorem resolve_lendingSite :
    let site := lendingSite (.ref "#/components/responses/Lent")
    AnswersWith site.operation 201 (.ref "#/components/responses/Lent") ∧
      ∃ endpoint, resolve .empty [] site = .ok endpoint ∧
        endpoint.responseSummary = .single (some (.entity "Pet")) 200 := by
  intro site
  refine ⟨⟨by decide, "201", by simp [site, lendingSite], by decide +kernel⟩, _, rfl, ?_⟩
  decide +kernel

end FunctionForge.Endpoint
