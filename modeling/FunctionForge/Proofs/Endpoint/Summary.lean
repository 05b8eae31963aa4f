import FunctionForge.Endpoint.Summary
import Mathlib.Data.List.Basic
import Mathlib.Logic.Relation

/-!
# What a summary depends on

The summary of responses is decided by those that report success (`summary_of_successes`): it does
not change with other responses or with degraded codes that report no success, and if the responses
are put into another order, only the codes of a summary with several codes follow them.  If the
responses that report success are uniform, that is, if none is degraded and they have one content,
their summary is read off them (`summaryOf`); else it is untyped.
-/

namespace FunctionForge.Endpoint

variable {responses others : List ResponseInfo} {degraded codes : List Nat}

/-! ### Responses that report success -/

/-- A response that reports success has a code in the two hundreds. -/
theorem bounds_of_mem_successes {response : ResponseInfo} (h : response ∈ successes responses) :
    200 ≤ response.code ∧ response.code < 300 := by
  have hs := (List.mem_filter.mp h).2
  rwa [ResponseInfo.isSuccess, Bool.and_eq_true, decide_eq_true_eq, decide_eq_true_eq] at hs

/-- Responses agree if any two of them have one content. -/
theorem agree_iff : agree responses = true ↔
    ∀ response ∈ responses, ∀ other ∈ responses, response.content = other.content := by
  cases responses with
  | nil => simp [agree]
  | cons first rest =>
    rw [agree, List.all_eq_true]
    constructor
    · intro h
      -- All responses have the content of the first.
      have hfirst : ∀ response ∈ first :: rest, response.content = first.content :=
        List.forall_mem_cons.mpr ⟨rfl, fun response hm => eq_of_beq (h response hm)⟩
      exact fun response hr other ho => (hfirst response hr).trans (hfirst other ho).symm
    · exact fun h other hm =>
        beq_iff_eq.mpr (h other (List.mem_cons_of_mem _ hm) first List.mem_cons_self)

/-- No response that reports success is degraded, and any two of them have the same content. -/
structure Uniform (responses : List ResponseInfo) (degraded : List Nat) : Prop where
  usable : ∀ response ∈ successes responses, response.code ∉ degraded
  agree : ∀ response ∈ successes responses, ∀ other ∈ successes responses,
    response.content = other.content

theorem uniform_iff : Uniform responses degraded ↔
    (∀ response ∈ successes responses, response.code ∉ degraded) ∧
      ∀ response ∈ successes responses, ∀ other ∈ successes responses,
        response.content = other.content :=
  ⟨fun h => ⟨h.usable, h.agree⟩, fun h => ⟨h.1, h.2⟩⟩

/-- Responses are not uniform if one of them is degraded or two of them differ. -/
theorem not_uniform_iff : ¬Uniform responses degraded ↔
    (∃ response ∈ successes responses, response.code ∈ degraded) ∨
      ∃ response ∈ successes responses, ∃ other ∈ successes responses,
        response.content ≠ other.content := by
  rw [uniform_iff]
  push Not
  rw [Classical.or_iff_not_imp_left]
  push Not
  exact Iff.rfl

/-- A single response is uniform unless it is degraded. -/
theorem uniform_of_singleton_iff {response : ResponseInfo} (h : successes responses = [response]) :
    Uniform responses degraded ↔ response.code ∉ degraded := by
  constructor
  · exact fun hu => hu.usable response (by rw [h]; exact List.mem_singleton_self _)
  · exact fun hd => ⟨by simpa [h] using hd, by simp [h]⟩

/-! ### Summaries -/

/-- The summary of responses that report success and are uniform. -/
def summaryOf : List ResponseInfo → ResponseSummary
  | [] => .untyped
  | [response] => .single response.content response.code
  | first :: rest =>
    .multiCode first.content ((first :: rest).map ResponseInfo.code)
      (first.content.map wrapperName)

theorem uniform_iff_checks : Uniform responses degraded ↔
    ((successes responses).any fun response => degraded.contains response.code) = false ∧
      agree (successes responses) = true := by
  rw [uniform_iff, agree_iff, List.any_eq_false]
  simp only [List.contains_iff_mem]

/-- The summary of uniform responses is read off them. -/
theorem summarize_of_uniform (h : Uniform responses degraded) :
    summarize responses degraded = summaryOf (successes responses) := by
  obtain ⟨hdegraded, hagree⟩ := uniform_iff_checks.mp h
  unfold summarize
  cases hs : successes responses with
  | nil => rfl
  | cons first rest =>
    rw [hs] at hdegraded hagree
    simp only [hdegraded, hagree]
    cases rest with
    | nil => rfl
    | cons second rest => rfl

/-- Of other responses nothing is said. -/
theorem summarize_of_not_uniform (h : ¬Uniform responses degraded) :
    summarize responses degraded = .untyped := by
  rw [uniform_iff_checks, not_and, Bool.not_eq_true] at h
  unfold summarize
  cases hs : successes responses with
  | nil => rfl
  | cons first rest =>
    rw [hs] at h
    dsimp only
    by_cases hdegraded :
        ((first :: rest).any fun response => degraded.contains response.code) = true
    · rw [if_pos hdegraded]
    · rw [if_neg hdegraded, h (Bool.of_not_eq_true hdegraded)]
      rfl

/-- A summary that is not untyped is that of uniform responses. -/
theorem summarize_eq_iff {summary : ResponseSummary} (h : summary ≠ .untyped) :
    summarize responses degraded = summary ↔
      Uniform responses degraded ∧ summaryOf (successes responses) = summary := by
  constructor
  · intro hs
    have hu : Uniform responses degraded := by
      by_contra hu
      exact h (hs.symm.trans (summarize_of_not_uniform hu))
    exact ⟨hu, (summarize_of_uniform hu).symm.trans hs⟩
  · exact fun ⟨hu, hs⟩ => (summarize_of_uniform hu).trans hs

theorem summaryOf_eq_single_iff {content : Option TypeRef} {code : Nat} :
    summaryOf responses = .single content code ↔
      ∃ response, responses = [response] ∧ response.content = content ∧ response.code = code := by
  match responses with
  | [] => simp [summaryOf]
  | [response] => simp [summaryOf]
  | first :: second :: rest => simp [summaryOf]

/-- Uniform responses have a summary with several codes exactly if there are two or more. -/
theorem summaryOf_eq_multiCode_iff {content : Option TypeRef} {wrapper : Option String}
    (h : ∀ response ∈ responses, ∀ other ∈ responses, response.content = other.content) :
    summaryOf responses = .multiCode content codes wrapper ↔
      2 ≤ responses.length ∧ (∀ response ∈ responses, response.content = content) ∧
        responses.map ResponseInfo.code = codes ∧ content.map wrapperName = wrapper := by
  match responses with
  | [] => simp [summaryOf]
  | [response] => simp [summaryOf]
  | first :: second :: rest =>
    rw [summaryOf, ResponseSummary.multiCode.injEq]
    · constructor
      · rintro ⟨rfl, hcodes, hwrapper⟩
        exact ⟨by simp, fun response hm => h response hm first List.mem_cons_self, hcodes, hwrapper⟩
      · rintro ⟨-, hcontent, hcodes, hwrapper⟩
        obtain rfl := hcontent first List.mem_cons_self
        exact ⟨rfl, hcodes, hwrapper⟩
    · exact nofun

theorem summaryOf_eq_untyped_iff : summaryOf responses = .untyped ↔ responses = [] := by
  match responses with
  | [] => simp [summaryOf]
  | [response] => simp [summaryOf]
  | first :: second :: rest => simp [summaryOf]

/-- There is one code exactly if one response reports success and is not degraded. -/
theorem summarize_eq_single_iff {content : Option TypeRef} {code : Nat} :
    summarize responses degraded = .single content code ↔
      code ∉ degraded ∧ ∃ response, successes responses = [response] ∧
        response.content = content ∧ response.code = code := by
  have hne : ResponseSummary.single content code ≠ .untyped := nofun
  rw [summarize_eq_iff hne, summaryOf_eq_single_iff]
  constructor
  · rintro ⟨hu, response, hs, hcontent, rfl⟩
    exact ⟨(uniform_of_singleton_iff hs).mp hu, response, hs, hcontent, rfl⟩
  · rintro ⟨hd, response, hs, hcontent, rfl⟩
    exact ⟨(uniform_of_singleton_iff hs).mpr hd, response, hs, hcontent, rfl⟩

theorem summarize_eq_multiCode_iff {content : Option TypeRef} {wrapper : Option String} :
    summarize responses degraded = .multiCode content codes wrapper ↔
      2 ≤ (successes responses).length ∧ Uniform responses degraded ∧
        (∀ response ∈ successes responses, response.content = content) ∧
        (successes responses).map ResponseInfo.code = codes ∧
        content.map wrapperName = wrapper := by
  have hne : ResponseSummary.multiCode content codes wrapper ≠ .untyped := nofun
  rw [summarize_eq_iff hne, and_left_comm]
  exact and_congr_right fun hu => summaryOf_eq_multiCode_iff hu.agree

theorem summarize_eq_untyped_iff : summarize responses degraded = .untyped ↔
    successes responses = [] ∨
      (∃ response ∈ successes responses, response.code ∈ degraded) ∨
      ∃ response ∈ successes responses, ∃ other ∈ successes responses,
        response.content ≠ other.content := by
  rw [← not_uniform_iff]
  by_cases hu : Uniform responses degraded
  · rw [summarize_of_uniform hu, summaryOf_eq_untyped_iff]
    exact (or_iff_left (not_not_intro hu)).symm
  · exact iff_of_true (summarize_of_not_uniform hu) (Or.inr hu)

theorem summarize_eq_untyped_iff_otherwise : summarize responses degraded = .untyped ↔
    ¬(∃ response, successes responses = [response] ∧ response.code ∉ degraded) ∧
      ¬(2 ≤ (successes responses).length ∧ Uniform responses degraded) := by
  by_cases hu : Uniform responses degraded
  · -- Uniform responses are untyped only if there are none.
    rw [summarize_of_uniform hu, summaryOf_eq_untyped_iff, and_iff_left hu]
    match hs : successes responses with
    | [] => simp
    | [response] =>
      have hd := (uniform_of_singleton_iff hs).mp hu
      exact iff_of_false nofun fun h => h.1 ⟨response, rfl, hd⟩
    | first :: second :: rest => exact iff_of_false nofun fun h => h.2 (by simp)
  · refine iff_of_true (summarize_of_not_uniform hu) ⟨?_, fun h => hu h.2⟩
    rintro ⟨response, hs, hd⟩
    exact hu ((uniform_of_singleton_iff hs).mpr hd)

/-! ### Other responses -/

/-- A code does not report success. -/
def Aside (code : Nat) : Prop :=
  code < 200 ∨ 300 ≤ code

/-- A response that does not report success is put in, taken out or changed. -/
inductive Edit : List ResponseInfo → List ResponseInfo → Prop
  | insert (front back : List ResponseInfo) {response : ResponseInfo} (h : Aside response.code) :
    Edit (front ++ back) (front ++ response :: back)
  | remove (front back : List ResponseInfo) {response : ResponseInfo} (h : Aside response.code) :
    Edit (front ++ response :: back) (front ++ back)
  | change (front back : List ResponseInfo) {response changed : ResponseInfo}
    (h : Aside response.code) (h' : Aside changed.code) :
    Edit (front ++ response :: back) (front ++ changed :: back)

/-- A response that reports no success may be left out. -/
theorem successes_middle (front back : List ResponseInfo) {response : ResponseInfo}
    (h : Aside response.code) :
    successes (front ++ response :: back) = successes (front ++ back) := by
  have hno : response.isSuccess ≠ true := by
    rw [ResponseInfo.isSuccess, Ne, Bool.and_eq_true, decide_eq_true_eq, decide_eq_true_eq]
    unfold Aside at h
    omega
  rw [successes, successes, List.filter_append, List.filter_append, List.filter_cons_of_neg hno]

theorem successes_of_edit (h : Edit responses others) : successes others = successes responses := by
  cases h with
  | insert front back h => exact successes_middle front back h
  | remove front back h => exact (successes_middle front back h).symm
  | change front back h h' =>
    exact (successes_middle front back h').trans (successes_middle front back h).symm

theorem successes_of_edits (h : Relation.ReflTransGen Edit responses others) :
    successes others = successes responses := by
  induction h with
  | refl => rfl
  | tail _ hstep ih => exact (successes_of_edit hstep).trans ih

/-- The summary is the same if the same responses report success, and the same codes of success are
degraded. -/
theorem summarize_congr (hs : successes others = successes responses)
    (hd : ∀ code, ¬Aside code → (code ∈ codes ↔ code ∈ degraded)) :
    summarize others codes = summarize responses degraded := by
  have husable : (∀ response ∈ successes responses, response.code ∉ codes) ↔
      ∀ response ∈ successes responses, response.code ∉ degraded := by
    refine forall₂_congr fun response hm => not_congr (hd response.code ?_)
    have hbounds := bounds_of_mem_successes hm
    unfold Aside
    omega
  have hu : Uniform others codes ↔ Uniform responses degraded := by
    rw [uniform_iff, uniform_iff, hs, husable]
  by_cases h : Uniform responses degraded
  · rw [summarize_of_uniform h, summarize_of_uniform (hu.mpr h), hs]
  · rw [summarize_of_not_uniform h, summarize_of_not_uniform (mt hu.mp h)]

/-! ### Order -/

/-- A summary with other codes, if it has several. -/
def ResponseSummary.withCodes (codes : List Nat) : ResponseSummary → ResponseSummary
  | .multiCode content _ wrapper => .multiCode content codes wrapper
  | summary => summary

theorem uniform_of_perm (h : responses.Perm others) (hu : Uniform responses degraded) :
    Uniform others degraded := by
  have hmem {response : ResponseInfo} (hm : response ∈ successes others) :
      response ∈ successes responses := (h.filter _).mem_iff.mpr hm
  exact ⟨fun response hr => hu.usable response (hmem hr),
    fun response hr other ho => hu.agree response (hmem hr) other (hmem ho)⟩

/-- In another order, uniform responses have the same summary, with the codes in that order. -/
theorem summaryOf_of_perm (h : responses.Perm others)
    (hu : ∀ response ∈ responses, ∀ other ∈ responses, response.content = other.content) :
    summaryOf others = (summaryOf responses).withCodes (others.map ResponseInfo.code) := by
  match responses, others with
  | [], others =>
    obtain rfl := List.nil_perm.mp h
    rfl
  | [response], others =>
    obtain rfl := List.singleton_perm.mp h
    rfl
  | first :: second :: rest, [] => exact absurd h.length_eq nofun
  | first :: second :: rest, [other] => exact absurd h.length_eq nofun
  -- Only here the codes matter, and the content is the same whichever response comes first.
  | first :: second :: rest, first' :: second' :: rest' =>
    have hm : first' ∈ first :: second :: rest := h.mem_iff.mpr List.mem_cons_self
    rw [summaryOf, summaryOf, hu first' hm first List.mem_cons_self]
    · rfl
    · exact nofun
    · exact nofun

/-- If the responses are put into another order, the codes follow them, and nothing else changes. -/
theorem summarize_of_perm (h : responses.Perm others) : summarize others degraded =
    (summarize responses degraded).withCodes ((successes others).map ResponseInfo.code) := by
  by_cases hu : Uniform responses degraded
  · rw [summarize_of_uniform hu, summarize_of_uniform (uniform_of_perm h hu)]
    exact summaryOf_of_perm (h.filter _) hu.agree
  · rw [summarize_of_not_uniform hu, summarize_of_not_uniform (mt (uniform_of_perm h.symm) hu)]
    rfl

/-! ### All summaries -/

/-- The summary of responses does not change if responses that report no success are put in, taken
out or changed, or if other codes that report no success are degraded.  In another order, they have
the same summary, with the codes in that order.  It is that of a single response exactly if one
response reports success and is not degraded, it has several codes exactly if at least two
responses report success and they are uniform, and else it is untyped. -/
theorem summary_of_successes (responses : List ResponseInfo) (degraded : List Nat) :
    (∀ others codes, Relation.ReflTransGen Edit responses others →
      (∀ code, ¬Aside code → (code ∈ codes ↔ code ∈ degraded)) →
      summarize others codes = summarize responses degraded) ∧
    (∀ others, responses.Perm others → summarize others degraded =
      (summarize responses degraded).withCodes ((successes others).map ResponseInfo.code)) ∧
    (∀ content code, summarize responses degraded = .single content code ↔
      code ∉ degraded ∧ ∃ response, successes responses = [response] ∧
        response.content = content ∧ response.code = code) ∧
    (∀ content codes wrapper, summarize responses degraded = .multiCode content codes wrapper ↔
      2 ≤ (successes responses).length ∧ Uniform responses degraded ∧
        (∀ response ∈ successes responses, response.content = content) ∧
        (successes responses).map ResponseInfo.code = codes ∧ content.map wrapperName = wrapper) ∧
    (summarize responses degraded = .untyped ↔
      ¬(∃ response, successes responses = [response] ∧ response.code ∉ degraded) ∧
        ¬(2 ≤ (successes responses).length ∧ Uniform responses degraded)) := by
  refine ⟨fun others codes hedits hd => ?_, fun others h => summarize_of_perm h,
    fun content code => summarize_eq_single_iff,
    fun content codes wrapper => summarize_eq_multiCode_iff, summarize_eq_untyped_iff_otherwise⟩
  exact summarize_congr (successes_of_edits hedits) hd

/-- A pet that may be missing is given back with either of two codes, in the order in which they are
declared. -/
theorem summary_of_successes_pet :
    let pet (code : Nat) : ResponseInfo := ⟨code, "A pet", some (.entity "Pet")⟩
    let missing : ResponseInfo := ⟨404, "No pet", none⟩
    summarize [pet 200, missing, pet 201] [404] = summarize [pet 200, pet 201] [] ∧
      summarize [pet 201, pet 200] [] =
        .multiCode (some (.entity "Pet")) [201, 200] (some (wrapperName (.entity "Pet"))) := by
  intro pet missing
  obtain ⟨hedits, hperm, -, hmulti, -⟩ := summary_of_successes [pet 200, pet 201] []
  have haside : Aside missing.code := Or.inr (by decide)
  constructor
  · refine hedits _ _ (.single (.insert [pet 200] [pet 201] haside)) fun code hcode => ?_
    refine iff_of_false (fun hm => hcode ?_) List.not_mem_nil
    rw [List.mem_singleton.mp hm]
    exact haside
  · have hcodes : summarize [pet 200, pet 201] [] =
        .multiCode (some (.entity "Pet")) [200, 201] (some (wrapperName (.entity "Pet"))) :=
      (hmulti _ _ _).mpr ⟨Nat.le_refl 2, ⟨by decide, by decide⟩, by decide, rfl, rfl⟩
    rw [hperm _ (.swap _ _ _), hcodes]
    rfl

end FunctionForge.Endpoint
