import FunctionForge.CSharp.ServiceSource
import FunctionForge.Proofs.Endpoint.Documentation

/-!
# Documentation in the source

The documentation of an endpoint stands in the source as a comment of its methods, each entry behind
the mark of a comment line.  A comment whose entries are single lines is one as a text, too: however
the text is cut into lines, each of them begins with the mark (`isComment_text_summaryComment`).
The entries are single lines as far as the texts of the operation have no line break inside
(`singleLine_documentation_iff`); a second line in the description of a response leaves the comment
(`not_isComment_secondLine`).
-/

namespace FunctionForge.CSharp

open Document (Operation PathItem SchemaOrRef)
open Endpoint (ofSite resolveEndpoints sites statement)
open Text (BreaksAtEnds ReturnsEndLines SingleLine)

/-! ### Comments -/

/-- What a line of a comment begins with. -/
def commentMark (indent : String) : String :=
  indent ++ "///"

/-- A text all of whose lines belong to a comment, whether a line ends at a line feed or at a
carriage return. -/
def IsComment (indent text : String) : Prop :=
  '\r' ∉ text.toList ∧
    ∀ line ∈ Text.cut '\n' text, Text.startsWith (commentMark indent) line = true

instance (indent text : String) : Decidable (IsComment indent text) :=
  inferInstanceAs (Decidable (_ ∧ _))

theorem startsWith_append (lead rest : String) : Text.startsWith lead (lead ++ rest) = true := by
  rw [Text.startsWith, List.isPrefixOf_iff_prefix, String.toList_append]
  exact List.prefix_append _ _

theorem not_mem_text {c : Char} (hc : c ≠ '\n') {source : Source}
    (h : ∀ line ∈ source, c ∉ line.toList) : c ∉ (Source.text source).toList := by
  rw [Source.text]
  -- Between two lines stands nothing but a line feed.
  induction source with
  | nil => exact List.not_mem_nil
  | cons first rest ih =>
    have hfirst := h first List.mem_cons_self
    by_cases hrest : rest = []
    · rw [hrest]
      exact hfirst
    · have hjoin := Text.toList_join_cons '\n' first hrest
      rw [show "\n" = String.singleton '\n' from rfl, hjoin, List.mem_append, List.mem_cons]
      rintro (hm | hm | hm)
      · exact hfirst hm
      · exact hc hm
      · exact ih (fun line hl => h line (List.mem_cons_of_mem _ hl)) hm

/-- Single lines behind the mark make up a comment. -/
theorem isComment_text {indent : String} (hindent : SingleLine indent) {contents : List String}
    (hne : contents ≠ []) (h : ∀ content ∈ contents, SingleLine content) :
    IsComment indent (Source.text (contents.map (commentMark indent ++ ·))) := by
  have hmark : SingleLine (commentMark indent) :=
    Text.singleLine_append_iff.mpr ⟨hindent, by decide⟩
  have hsingle : ∀ line ∈ contents.map (commentMark indent ++ ·), SingleLine line := by
    intro line hl
    obtain ⟨content, hm, rfl⟩ := List.mem_map.mp hl
    exact Text.singleLine_append_iff.mpr ⟨hmark, h content hm⟩
  -- No line feed stands inside a line, so that cutting the text gives the lines back.
  have hcut : Text.cut '\n' (Source.text (contents.map (commentMark indent ++ ·))) =
      contents.map (commentMark indent ++ ·) :=
    Text.cut_join (mt List.map_eq_nil_iff.mp hne) fun line hl => (hsingle line hl).1
  refine ⟨not_mem_text (by decide) fun line hl => (hsingle line hl).2, fun line hl => ?_⟩
  rw [hcut] at hl
  obtain ⟨content, -, rfl⟩ := List.mem_map.mp hl
  exact startsWith_append _ _

theorem summaryComment_eq (indent : String) {documentation : List String}
    (hne : documentation ≠ []) : summaryComment indent documentation =
      ([" <summary>"] ++ documentation.map (" " ++ ·) ++ [" </summary>"]).map
        (commentMark indent ++ ·) := by
  have hopen : "/// <summary>" = "///" ++ " <summary>" := rfl
  have hentry : "/// " = "///" ++ " " := rfl
  have hclose : "/// </summary>" = "///" ++ " </summary>" := rfl
  rw [summaryComment, if_neg (mt List.isEmpty_iff.mp hne), hopen, hentry, hclose]
  simp only [commentMark, List.map_append, List.map_singleton, List.map_map, Function.comp_def,
    String.append_assoc]

/-- A comment whose entries are single lines is a comment as a text. -/
theorem isComment_text_summaryComment {indent : String} (hindent : SingleLine indent)
    {documentation : List String} (hne : documentation ≠ [])
    (h : ∀ entry ∈ documentation, SingleLine entry) :
    IsComment indent (Source.text (summaryComment indent documentation)) := by
  rw [summaryComment_eq indent hne]
  refine isComment_text hindent (by simp) fun content hm => ?_
  rcases List.mem_append.mp hm with hm | hm
  · rcases List.mem_append.mp hm with hm | hm
    · rw [List.mem_singleton.mp hm]
      decide
    · obtain ⟨entry, he, rfl⟩ := List.mem_map.mp hm
      exact Text.singleLine_append_iff.mpr ⟨by decide, h entry he⟩
  · rw [List.mem_singleton.mp hm]
    decide

/-! ### Endpoints -/

/-- Every method of an endpoint has the documentation of the endpoint. -/
theorem documentation_of_mem_serviceMethods {endpoint : Endpoint} {version : Nat}
    {method : ServiceMethod} (h : method ∈ serviceMethods endpoint version) :
    method.documentation = endpoint.documentation := by
  obtain ⟨body, -, rfl⟩ := List.mem_map.mp h
  rfl

/-- The entries of an endpoint's documentation are single lines exactly if no carriage return stands
inside a line of what the operation says of itself, and no line break inside what it says of a
response; then the documentation of each of its methods is a comment. -/
theorem singleLine_documentation_iff {known : KnownTypes} {schemas : Fields SchemaOrRef}
    {paths : Fields PathItem} {endpoint : Endpoint}
    (h : endpoint ∈ (resolveEndpoints known schemas paths).items) :
    ∃ site ∈ sites paths, ofSite known schemas site = .ok endpoint ∧
      ((∀ entry ∈ endpoint.documentation, SingleLine entry) ↔
        ReturnsEndLines (statement site.operation) ∧
          ∀ key response, (key, .inline response) ∈ site.operation.responses →
            SingleLine key ∧ BreaksAtEnds response.description) ∧
      ((∀ entry ∈ endpoint.documentation, SingleLine entry) → endpoint.documentation ≠ [] →
        ∀ version, ∀ method ∈ serviceMethods endpoint version,
          IsComment "        " (Source.text (summaryComment "        " method.documentation))) := by
  obtain ⟨site, hm, hs⟩ := Endpoint.exists_site_of_item h
  refine ⟨site, hm, hs, ?_, fun hsingle hne version method hmethod => ?_⟩
  · rw [Endpoint.documentation_of_ofSite hs]
    exact Endpoint.forall_singleLine_documentationLines_iff
  · rw [documentation_of_mem_serviceMethods hmethod]
    exact isComment_text_summaryComment (by decide) hne hsingle

/-! ### The comment of a listing -/

/-- A listing of pets, with what is said of its response. -/
def listingPaths (description : String) : Fields PathItem :=
  [("/pets", { PathItem.blank with
    operations := [(.get, ⟨some "list", none, some "Lists pets.\nAll of them.", [], none,
      [("200", .inline ⟨description, []⟩)]⟩)] })]

/-- The endpoint of the listing. -/
def listing (description : String) : Endpoint where
  operationId := "list"
  name := "ListAsync"
  method := .get
  path := "pets"
  documentation := ["Lists pets.", "All of them.", "200 -> " ++ Text.trim description]
  parameters := []
  needsRequestBody := false
  responses := [⟨200, description, none⟩]
  responseSummary := .single none 200
  bodySummary := none

/-- The second line of what the operation says of itself stays in the comment, and so does the
response if a line break only ends its description. -/
theorem singleLine_documentation_listing :
    let endpoint := listing "The pets.\n"
    endpoint ∈ (resolveEndpoints .empty [] (listingPaths "The pets.\n")).items ∧
      (∃ site ∈ sites (listingPaths "The pets.\n"), ReturnsEndLines (statement site.operation) ∧
        ∀ key response, (key, .inline response) ∈ site.operation.responses →
          SingleLine key ∧ BreaksAtEnds response.description) ∧
      ∀ version, ∀ method ∈ serviceMethods endpoint version,
        IsComment "        " (Source.text (summaryComment "        " method.documentation)) := by
  intro endpoint
  have hm : endpoint ∈ (resolveEndpoints .empty [] (listingPaths "The pets.\n")).items := by
    decide +kernel
  have hsingle : ∀ entry ∈ endpoint.documentation, SingleLine entry := by decide +kernel
  obtain ⟨site, hsite, -, hiff, hcomment⟩ := singleLine_documentation_iff hm
  exact ⟨hm, ⟨site, hsite, hiff.mp hsingle⟩, hcomment hsingle (List.cons_ne_nil _ _)⟩

/-- A second line in the description of a response leaves the comment. -/
theorem not_isComment_secondLine :
    ∃ endpoint ∈ (resolveEndpoints .empty [] (listingPaths "The pets.\nvar x = 1;")).items,
      "200 -> The pets.\nvar x = 1;" ∈ endpoint.documentation ∧
        ¬ SingleLine "200 -> The pets.\nvar x = 1;" ∧
        ∃ method ∈ serviceMethods endpoint 3,
          ¬ IsComment "        "
            (Source.text (summaryComment "        " method.documentation)) := by
  refine ⟨listing "The pets.\nvar x = 1;", ?_⟩
  decide +kernel

end FunctionForge.CSharp
