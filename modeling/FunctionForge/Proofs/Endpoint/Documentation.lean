import FunctionForge.Proofs.Endpoint.Mentions
import FunctionForge.Proofs.Text.Lines

/-!
# The documentation of an endpoint

What an operation says of itself is cut into lines; what it says of a response is not, but put
behind the key of the response as it is, without the blanks at its ends.  So the documentation
consists of single lines exactly if the carriage returns of the one stand at the ends of its lines,
and the line breaks of the other at its own ends (`forall_singleLine_documentationLines_iff`).
-/

namespace FunctionForge.Endpoint

open Document (Operation Referable Response SchemaOrRef)
open Text (BreaksAtEnds ReturnsEndLines SingleLine)

/-- What an operation says of itself: its description, or else its summary. -/
def statement (operation : Operation) : String :=
  (operation.description.or operation.summary).getD ""

theorem documentation_of_ofSite {known : KnownTypes} {schemas : Fields SchemaOrRef} {site : Site}
    {endpoint : Endpoint} (h : ofSite known schemas site = .ok endpoint) :
    endpoint.documentation = documentationLines site.operation := by
  obtain ⟨operationId, parameters, bodySummary, -, -, -, rfl⟩ := exists_parts_of_ofSite h
  rfl

theorem mem_responseLines_iff {responses : Fields (Referable Response)} {line : String} :
    line ∈ responses.filterMap responseLine? ↔
      ∃ key response, (key, .inline response) ∈ responses ∧
        line = key ++ " -> " ++ Text.trim response.description := by
  rw [List.mem_filterMap]
  constructor
  · rintro ⟨⟨key, given⟩, hm, hline⟩
    cases given with
    | ref path => exact absurd hline nofun
    | inline response => exact ⟨key, response, hm, (Option.some.inj hline).symm⟩
  · rintro ⟨key, response, hm, rfl⟩
    exact ⟨(key, .inline response), hm, rfl⟩

/-- The line of a response is single if its key is, and its description has no line break inside. -/
theorem singleLine_responseLine_iff {key description : String} :
    SingleLine (key ++ " -> " ++ Text.trim description) ↔
      SingleLine key ∧ BreaksAtEnds description := by
  have harrow : SingleLine " -> " := by decide
  rw [Text.singleLine_append_iff, Text.singleLine_append_iff, and_iff_left harrow,
    Text.singleLine_trim_iff]

/-- What is written of an operation is single lines exactly if no carriage return stands inside a
line of what it says of itself, and no line break inside what it says of a response. -/
theorem forall_singleLine_documentationLines_iff {operation : Operation} :
    (∀ line ∈ documentationLines operation, SingleLine line) ↔
      ReturnsEndLines (statement operation) ∧
        ∀ key response, (key, .inline response) ∈ operation.responses →
          SingleLine key ∧ BreaksAtEnds response.description := by
  rw [documentationLines, List.forall_mem_append, Text.forall_singleLine_lines_iff]
  refine and_congr_right fun _ => ?_
  constructor
  · intro h key response hm
    exact singleLine_responseLine_iff.mp (h _ (mem_responseLines_iff.mpr ⟨key, response, hm, rfl⟩))
  · intro h line hline
    obtain ⟨key, response, hm, rfl⟩ := mem_responseLines_iff.mp hline
    exact singleLine_responseLine_iff.mpr (h key response hm)

end FunctionForge.Endpoint
