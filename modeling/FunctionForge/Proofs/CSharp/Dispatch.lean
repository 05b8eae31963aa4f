import FunctionForge.Proofs.CSharp.Calls
import FunctionForge.Proofs.Text.Cut
import FunctionForge.Proofs.Text.Quoted

/-!
# Dispatching unions

A function whose body is a union finds the discriminator in the request by an index and chooses a
case by its value.  The name of the discriminator and the values of the cases are put between quotes
as they are, not written as the literals of strings.  So the index says the name, and a label says
its value, exactly if these hold neither quotes nor backslashes (`labels_statements_iff`); if all
labels do, each value runs the statements that call the service with its class
(`selected_eq_get?`).  A label whose value has quotes in it cannot be read
(`labels_admission_quoted`).
-/

namespace FunctionForge.Endpoint

open Document (PathItem SchemaOrRef)

variable {known : KnownTypes} {schemas : Fields SchemaOrRef} {candidates : List String}
  {mapping : Fields String} {discriminator : String}

/-- A union maps each of its values once. -/
theorem nodup_keys_mapping {paths : Fields PathItem} {endpoint : Endpoint}
    (he : endpoint ∈ (resolveEndpoints known schemas paths).items)
    (hb : endpoint.bodySummary = some (.union candidates mapping discriminator)) :
    mapping.keys.Nodup := by
  obtain ⟨site, -, hs⟩ := exists_site_of_item he
  obtain ⟨-, -, hbody, -, -⟩ := ofSite_eq_ok hs
  rw [hb] at hbody
  obtain ⟨given, -, hgiven⟩ := operationBody_eq_ok hbody
  obtain ⟨schema, -, ⟨union, -, hunion⟩ | ⟨type, -, -, hsimple⟩⟩ := resolveBody_eq_ok hgiven
  · obtain ⟨_, -, -, heq⟩ := resolveUnion_eq_ok_iff.mp hunion
    obtain ⟨-, rfl, -⟩ := BodySummary.union.inj heq
    exact Fields.nodup_keys_ofList _
  · exact absurd hsimple nofun

end FunctionForge.Endpoint

namespace FunctionForge.CSharp

open Document (Discriminator PathItem Schema)
open Endpoint (resolveEndpoints)
open Text (IsPlain dropLead? unquote)

variable {lead trail : String} {version : Nat} {discriminator : String}
  {cases : Fields (List Statement)}

/-! ### Literals in lines -/

/-- What a literal says whose opening quote stands right before `rest`, if right behind its closing
one stands `trail`. -/
def literalBefore (trail rest : String) : Option String :=
  (unquote rest.toList).bind fun (said, after) =>
    if String.ofList after = trail then some (String.ofList said) else none

/-- What the literals say that stand in lines between `lead` and `trail`: one for each line that
begins with `lead`, which says nothing if it cannot be read up to `trail`. -/
def literalsIn (lead trail : String) (lines : List String) : List (Option String) :=
  lines.filterMap fun line => (dropLead? lead line).map (literalBefore trail)

/-- A text that is put between quotes as it is says itself exactly if it is plain. -/
theorem literalBefore_eq_some_iff {text : String} :
    literalBefore trail (text ++ "\"" ++ trail) = some text ↔ IsPlain text := by
  have hrest : (text ++ "\"" ++ trail).toList = text.toList ++ '"' :: trail.toList := by
    simp [String.toList_append]
  rw [literalBefore, hrest, IsPlain]
  constructor
  · intro h
    obtain ⟨⟨said, after⟩, hread, hsaid⟩ := Option.bind_eq_some_iff.mp h
    simp only [Option.ite_none_right_eq_some, Option.some.injEq] at hsaid
    obtain ⟨-, rfl⟩ := hsaid
    rw [String.toList_ofList] at hread ⊢
    exact Text.exists_unquote_append_iff.mp ⟨after, hread⟩
  · rintro ⟨hquote, hbackslash⟩
    rw [Text.unquote_append hquote hbackslash, Option.bind_some]
    simp only [String.ofList_toList, if_true]

theorem literalsIn_append (lines more : List String) :
    literalsIn lead trail (lines ++ more) =
      literalsIn lead trail lines ++ literalsIn lead trail more :=
  List.filterMap_append

theorem literalsIn_flatMap {α : Type} (lines : α → List String) (items : List α) :
    literalsIn lead trail (items.flatMap lines) =
      items.flatMap fun item => literalsIn lead trail (lines item) :=
  List.filterMap_flatMap

theorem literalsIn_cons_append (rest : String) (lines : List String) :
    literalsIn lead trail ((lead ++ rest) :: lines) =
      literalBefore trail rest :: literalsIn lead trail lines := by
  have hlead : (dropLead? lead (lead ++ rest)).map (literalBefore trail) =
      some (literalBefore trail rest) := by
    rw [Text.dropLead?_eq_some_iff.mpr rfl, Option.map_some]
  exact List.filterMap_cons_some hlead

/-- Lines that begin otherwise hold no literal. -/
theorem literalsIn_eq_nil (n : Nat) (hn : n ≤ lead.toList.length) {lines : List String}
    (h : ∀ line ∈ lines, Text.start n lead ≠ Text.start n line) :
    literalsIn lead trail lines = [] := by
  rw [literalsIn, List.filterMap_eq_nil_iff]
  intro line hl
  rw [Option.map_eq_none_iff, Option.eq_none_iff_forall_ne_some]
  intro rest hrest
  exact Text.append_ne n hn (h line hl) rest (Text.dropLead?_eq_some_iff.mp hrest).symm

/-! ### Labels and indices -/

/-- What the labels of the cases say. -/
def labels (lines : List String) : List (Option String) :=
  literalsIn "    case \"" ":" lines

/-- What the indices into the body of the request say. -/
def indices (lines : List String) : List (Option String) :=
  literalsIn "switch (jObject[\"" "]?.ToString())" lines

/-- What the label of a value says. -/
def labelOf (value : String) : Option String :=
  literalBefore ":" (value ++ "\"" ++ ":")

theorem labels_caseLines (entry : String × List Statement) :
    labels (Body.caseLines version entry) = [labelOf entry.1] := by
  have hlabel : "    case \"" ++ entry.1 ++ "\":" = "    case \"" ++ (entry.1 ++ "\"" ++ ":") := by
    rw [String.append_assoc, String.append_assoc]
    rfl
  have hlines : Body.caseLines version entry = ("    case \"" ++ entry.1 ++ "\":") ::
      (["    \x7b"] ++ (entry.2.map (Statement.text version)).map ("        " ++ ·) ++
        ["    \x7d"]) := rfl
  rw [hlines, hlabel, labels, literalsIn_cons_append, literalsIn_eq_nil 5 (by decide)]
  · rfl
  · -- Statements stand further inside than labels.
    intro line hl
    simp only [List.mem_append, List.mem_singleton, List.mem_map] at hl
    obtain (rfl | ⟨statement, -, rfl⟩) | rfl := hl
    · decide
    · rw [Text.start_append (by decide)]
      decide
    · decide

theorem indices_caseLines (entry : String × List Statement) :
    indices (Body.caseLines version entry) = [] := by
  refine literalsIn_eq_nil 1 (by decide) fun line hl => ?_
  simp only [Body.caseLines, List.mem_append, List.mem_cons, List.not_mem_nil, or_false,
    List.mem_map] at hl
  obtain ((rfl | rfl) | ⟨statement, -, rfl⟩) | rfl := hl
  · rw [String.append_assoc, Text.start_append (by decide)]
    decide
  · decide
  · rw [Text.start_append (by decide)]
    decide
  · decide

/-- A choice has a label for each of its values. -/
theorem labels_lines_dispatch :
    labels ((Body.dispatch discriminator cases).lines version) = cases.keys.map labelOf := by
  rw [labels, Body.lines, literalsIn_append, literalsIn_append, literalsIn_flatMap,
    literalsIn_eq_nil 5 (by decide), literalsIn_eq_nil 5 (by decide), List.nil_append,
    List.append_nil]
  · -- Each case has one label, and no other line has any.
    rw [Fields.keys, List.map_map, ← List.flatMap_pure_eq_map]
    exact congrArg (List.flatMap · cases) (funext labels_caseLines)
  · intro line hl
    simp only [List.mem_cons, List.not_mem_nil, or_false] at hl
    obtain rfl | rfl | rfl := hl
    · decide
    · simp only [String.append_assoc]
      rw [Text.start_append (by decide)]
      decide
    · decide
  · intro line hl
    simp only [List.mem_cons, List.not_mem_nil, or_false] at hl
    obtain rfl | rfl | rfl := hl
    · decide
    · rw [String.append_assoc, Text.start_append (by decide)]
      decide
    · decide

/-- A choice looks up its discriminator only. -/
theorem indices_lines_dispatch :
    indices ((Body.dispatch discriminator cases).lines version) =
      [literalBefore "]?.ToString())" (discriminator ++ "\"" ++ "]?.ToString())")] := by
  have hindex : "switch (jObject[\"" ++ discriminator ++ "\"]?.ToString())" =
      "switch (jObject[\"" ++ (discriminator ++ "\"" ++ "]?.ToString())") := by
    rw [String.append_assoc, String.append_assoc]
    rfl
  have hcases : literalsIn "switch (jObject[\"" "]?.ToString())"
      (cases.flatMap (Body.caseLines version)) = [] := by
    rw [literalsIn_flatMap, List.flatMap_eq_nil_iff]
    exact fun entry _ => indices_caseLines entry
  -- The line before the choice reads the body, and its brackets belong to the call.
  have hhead (rest : List String) : literalsIn "switch (jObject[\"" "]?.ToString())"
      ("var jObject = await ParseJson<JObject>(request.Body);" :: rest) =
        literalsIn "switch (jObject[\"" "]?.ToString())" rest :=
    List.filterMap_cons_none (by decide)
  rw [indices, Body.lines, literalsIn_append, literalsIn_append, hcases, hhead, hindex,
    literalsIn_cons_append, literalsIn_eq_nil 1 (by decide), literalsIn_eq_nil 1 (by decide)]
  · rfl
  · intro line hl
    simp only [List.mem_cons, List.not_mem_nil, or_false] at hl
    obtain rfl | rfl | rfl := hl
    · decide
    · simp only [String.append_assoc]
      rw [Text.start_append (by decide)]
      decide
    · decide
  · intro line hl
    rw [List.mem_singleton.mp hl]
    decide

theorem map_labelOf_eq_iff {values : List String} :
    values.map labelOf = values.map some ↔ ∀ value ∈ values, IsPlain value := by
  rw [List.map_inj_left]
  exact forall₂_congr fun value _ => literalBefore_eq_some_iff

/-! ### Choices -/

/-- The statements that a choice runs for a value: those of the first case whose label says it. -/
def selected (cases : Fields (List Statement)) (value : String) : Option (List Statement) :=
  (cases.find? fun entry => labelOf entry.1 = some value).map Prod.snd

/-- If all labels say their values, then a choice runs for a value what it has for it. -/
theorem selected_eq_get? (h : ∀ value ∈ cases.keys, IsPlain value) (value : String) :
    selected cases value = cases.get? value := by
  induction cases with
  | nil => rfl
  | cons entry rest ih =>
    obtain ⟨key, block⟩ := entry
    rw [Fields.keys_cons, List.forall_mem_cons] at h
    have hlabel : labelOf key = some key := literalBefore_eq_some_iff.mpr h.1
    rw [selected, List.find?_cons, Fields.get?_cons, ← ih h.2]
    by_cases hvalue : value = key
    · simp [hlabel, hvalue]
    · simp [hlabel, hvalue, Ne.symm hvalue, selected]

/-! ### Dispatched endpoints -/

/-- From version 2 on, a body that is a union is dispatched to the classes that its values are
mapped to. -/
theorem bodyOf_eq_dispatch {endpoint : Endpoint} {candidates : List String}
    {mapping : Fields String} (hv : version ≠ 1)
    (hb : endpoint.bodySummary = some (.union candidates mapping discriminator)) :
    bodyOf version endpoint = .dispatch discriminator (mapping.mapValues fun candidate =>
      blockOf version endpoint.responseSummary
        (callWith version endpoint [.converted candidate])) := by
  have hi : invocation version endpoint = .dispatch discriminator
      (mapping.mapValues fun candidate => callWith version endpoint [.converted candidate]) := by
    rw [invocation, if_neg hv, hb]
  rw [bodyOf, hi]
  simp only [Fields.mapValues, List.map_map, Function.comp_def]

/-- What the function of a union looks up is the discriminator exactly if that is plain, and its
labels are the values of the mapping, in their order, exactly if each of these is.  Each case calls
the service once, with the class that its value is mapped to, and if all values are plain, then
these are the calls that are made for them, and none for other values. -/
theorem labels_statements_iff {version : Nat} {endpoint : Endpoint} {candidates : List String}
    {mapping : Fields String} {discriminator : String} (hv : version ≠ 1)
    (hb : endpoint.bodySummary = some (.union candidates mapping discriminator)) :
    (indices (statements version endpoint (invocation version endpoint)) = [some discriminator] ↔
      IsPlain discriminator) ∧
    (labels (statements version endpoint (invocation version endpoint)) = mapping.keys.map some ↔
      ∀ value ∈ mapping.keys, IsPlain value) ∧
    (∃ cases : Fields (List Statement),
      statements version endpoint (invocation version endpoint) =
        (Body.dispatch discriminator cases).lines version ∧
      List.Forall₂ (fun entry case => case.1 = entry.1 ∧
        callsOf case.2 = [callWith version endpoint [.converted entry.2]]) mapping cases ∧
      ((∀ value ∈ mapping.keys, IsPlain value) → ∀ value,
        (selected cases value).map callsOf = (mapping.get? value).map fun candidate =>
          [callWith version endpoint [.converted candidate]])) ∧
    ∀ known schemas paths, endpoint ∈ (resolveEndpoints known schemas paths).items →
      mapping.keys.Nodup := by
  have hlines := @lines_bodyOf version endpoint
  rw [bodyOf_eq_dispatch hv hb] at hlines
  rw [← hlines, labels_lines_dispatch, indices_lines_dispatch, Fields.keys_mapValues,
    map_labelOf_eq_iff, List.singleton_inj, literalBefore_eq_some_iff]
  refine ⟨Iff.rfl, Iff.rfl, ⟨_, rfl, ?_, fun hplain value => ?_⟩,
    fun known schemas paths he => Endpoint.nodup_keys_mapping he hb⟩
  · rw [Fields.mapValues, List.forall₂_map_right_iff]
    exact List.forall₂_same.mpr fun entry _ => ⟨rfl, callsOf_blockOf⟩
  · rw [selected_eq_get? (by rwa [Fields.keys_mapValues]), Fields.get?_mapValues, Option.map_map]
    exact congrArg (Option.map · _) (funext fun candidate => callsOf_blockOf)

/-! ### Admissions -/

/-- The operation by which a cat or a dog is admitted, where a value selects the cats. -/
def admissionPaths (value : String) : Fields PathItem :=
  let pet : Schema := { Schema.blank with
    oneOf := [.ref "#/components/schemas/Cat", .ref "#/components/schemas/Dog"]
    discriminator := some ⟨"kind",
      [(value, "#/components/schemas/Cat"), ("dog", "#/components/schemas/Dog")]⟩ }
  [("/pets", { PathItem.blank with
    operations := [(.post, ⟨some "admit", none, none, [],
      some (.inline ⟨none, [("application/json", ⟨some (.inline pet)⟩)], true⟩),
      [("204", .inline ⟨"Done", []⟩)]⟩)] })]

/-- The endpoint of an admission. -/
def admission (value : String) : Endpoint where
  operationId := "admit"
  name := "AdmitAsync"
  method := .post
  path := "pets"
  documentation := ["204 -> Done"]
  parameters := []
  needsRequestBody := true
  responses := [⟨204, "Done", none⟩]
  responseSummary := .single none 204
  bodySummary := some (.union ["Cat", "Dog"] [(value, "Cat"), ("dog", "Dog")] "kind")

/-- Apostrophes and blanks do no harm. -/
theorem labels_statements_admission :
    let endpoint := admission "the 'cat'"
    let lines := statements 3 endpoint (invocation 3 endpoint)
    endpoint ∈ (resolveEndpoints .empty [] (admissionPaths "the 'cat'")).items ∧
      indices lines = [some "kind"] ∧ labels lines = [some "the 'cat'", some "dog"] ∧
      ∃ cases, lines = (Body.dispatch "kind" cases).lines 3 ∧
        (selected cases "the 'cat'").map callsOf =
          some [⟨"AdmitAsync", [.converted "Cat"]⟩] ∧
        (selected cases "the cat").map callsOf = none := by
  intro endpoint lines
  have hversion : 3 ≠ 1 := by decide
  have hunion : endpoint.bodySummary =
      some (.union ["Cat", "Dog"] [("the 'cat'", "Cat"), ("dog", "Dog")] "kind") := rfl
  obtain ⟨hindices, hlabels, ⟨cases, hlines, -, hselected⟩, -⟩ :=
    labels_statements_iff hversion hunion
  have hplain : ∀ value ∈ Fields.keys [("the 'cat'", "Cat"), ("dog", "Dog")], IsPlain value := by
    decide +kernel
  exact ⟨by decide +kernel, hindices.mpr (by decide), hlabels.mpr hplain, cases, hlines,
    hselected hplain "the 'cat'", hselected hplain "the cat"⟩

/-- A value with quotes in it cannot be read from its label. -/
theorem labels_admission_quoted :
    let endpoint := admission "the \"cat\""
    let lines := statements 3 endpoint (invocation 3 endpoint)
    endpoint ∈ (resolveEndpoints .empty [] (admissionPaths "the \"cat\"")).items ∧
      "    case \"the \"cat\"\":" ∈ lines ∧ labels lines = [none, some "dog"] ∧
      labels lines ≠ [some "the \"cat\"", some "dog"] := by
  decide +kernel

end FunctionForge.CSharp
