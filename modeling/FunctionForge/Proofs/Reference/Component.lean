import FunctionForge.Proofs.Document.Traverse
import FunctionForge.Proofs.Fields
import FunctionForge.Proofs.Result
import FunctionForge.Reference.Component

/-!
# References to components, put in place

What a chain of references to components leads to is given in place somewhere in its section
(`followFrom_eq_ok`).  So putting it in the place of the references brings no references to schemas
into a document that are not there already (`references_inlineComponents`), and leaves the
components as they are.
-/

namespace FunctionForge.Reference

open Document (ApiDocument Components Operation Parameter PathItem Referable RequestBody Response
  optionReferences)

/-! ### Chains -/

section

variable {α : Type} {family : Section α} {entry entry' : Referable α}

theorem target_mem {path : String} (h : family.target path = .ok entry) :
    entry ∈ family.entries.values := by
  obtain ⟨name, -, h⟩ := bind_eq_ok.mp h
  cases hg : family.entries.get? name with
  | none => simp [hg, throw, throwThe, MonadExceptOf.throw] at h
  | some found =>
    rw [hg] at h
    obtain rfl := Except.ok.inj h
    exact List.mem_map_of_mem (Fields.mem_of_get? hg)

/-- What a chain leads to is given in place where it starts or in its section. -/
theorem followFrom_eq_ok {fuel : Nat} {seen : List String} {value : α}
    (h : followFrom family fuel seen entry = .ok value) :
    entry = .inline value ∨ .inline value ∈ family.entries.values := by
  induction fuel generalizing seen entry with
  | zero =>
    cases entry with
    | inline given =>
      rw [followFrom] at h
      exact Or.inl (by rw [Except.ok.inj h])
    | ref path =>
      rw [followFrom] at h
      exact absurd h nofun
  | succ fuel ih =>
    cases entry with
    | inline given =>
      rw [followFrom] at h
      exact Or.inl (by rw [Except.ok.inj h])
    | ref path =>
      rw [followFrom] at h
      split_ifs at h
      obtain ⟨next, hn, h⟩ := bind_eq_ok.mp h
      -- The next entry is one of the section, so what it leads to is there as well.
      rcases ih h with rfl | hv
      · exact Or.inr (target_mem hn)
      · exact Or.inr hv

theorem references_inlineEntry (refs : α → List String)
    (h : inlineEntry family entry = .ok entry') : entry'.references refs ⊆
      entry.references refs ++ family.entries.values.flatMap (Referable.references refs) := by
  obtain ⟨value, hv, rfl⟩ := map_eq_ok.mp h
  intro r hr
  rw [List.mem_append, List.mem_flatMap]
  rcases followFrom_eq_ok hv with rfl | hm
  · exact Or.inl hr
  · exact Or.inr ⟨_, hm, hr⟩

end

/-! ### Documents -/

section

variable {components : Components}

theorem references_inlineParameters {parameters parameters' : List (Referable Parameter)}
    (h : parameters.mapM (inlineEntry (parameterSection components)) = .ok parameters') :
    parameters'.flatMap (Referable.references Parameter.references) ⊆
      parameters.flatMap (Referable.references Parameter.references) ++ components.references := by
  intro r hr
  obtain ⟨entry', hm, hr⟩ := List.mem_flatMap.mp hr
  obtain ⟨entry, he, hi⟩ := exists_mem_of_mapM h hm
  rw [List.mem_append, List.mem_flatMap, Components.references]
  rcases List.mem_append.mp (references_inlineEntry _ hi hr) with hr | hr
  · exact Or.inl ⟨entry, he, hr⟩
  · exact Or.inr (List.mem_append_right _ (List.mem_append_left _ hr))

/-- What putting components in place does to an operation. -/
theorem inlineOperation_eq_ok {operation operation' : Operation}
    (h : inlineOperation components operation = .ok operation') :
    ∃ parameters requestBody responses,
      operation.parameters.mapM (inlineEntry (parameterSection components)) = .ok parameters ∧
      Option.Rel
        (fun entry entry' => inlineEntry (requestBodySection components) entry = .ok entry')
        operation.requestBody requestBody ∧
      operation.responses.mapValuesM (inlineEntry (responseSection components)) = .ok responses ∧
      operation' = { operation with parameters, requestBody, responses } := by
  obtain ⟨parameters, hp, h⟩ := bind_eq_ok.mp h
  cases hbody : operation.requestBody with
  | none =>
    rw [hbody] at h
    obtain ⟨requestBody, hb, h⟩ := bind_eq_ok.mp h
    obtain rfl := Except.ok.inj hb
    obtain ⟨responses, hs, h⟩ := bind_eq_ok.mp h
    exact ⟨parameters, none, responses, hp, .none, hs, (Except.ok.inj h).symm⟩
  | some given =>
    rw [hbody] at h
    obtain ⟨requestBody, hb, h⟩ := bind_eq_ok.mp h
    obtain ⟨responses, hs, h⟩ := bind_eq_ok.mp h
    obtain ⟨entry', he, rfl⟩ := map_eq_ok.mp hb
    exact ⟨parameters, some entry', responses, hp, .some he, hs, (Except.ok.inj h).symm⟩

theorem references_inlineRequestBody {entry entry' : Option (Referable RequestBody)}
    (h : Option.Rel (fun entry entry' =>
      inlineEntry (requestBodySection components) entry = .ok entry') entry entry') :
    optionReferences (Referable.references RequestBody.references) entry' ⊆
      optionReferences (Referable.references RequestBody.references) entry ++
        components.references := by
  cases h with
  | none => exact List.nil_subset _
  | some he =>
    intro r hr
    rw [List.mem_append, Components.references]
    rcases List.mem_append.mp (references_inlineEntry _ he hr) with hr | hr
    · exact Or.inl hr
    · exact Or.inr (List.mem_append_right _ (List.mem_append_right _ (List.mem_append_left _ hr)))

theorem references_inlineOperation {operation operation' : Operation}
    (h : inlineOperation components operation = .ok operation') :
    operation'.references ⊆ operation.references ++ components.references := by
  obtain ⟨parameters, requestBody, responses, hp, hb, hs, rfl⟩ := inlineOperation_eq_ok h
  intro r hr
  rw [Operation.references, List.mem_append, List.mem_append] at hr
  rw [Operation.references, List.mem_append, List.mem_append, List.mem_append]
  rcases hr with hr | hr | hr
  · rcases List.mem_append.mp (references_inlineParameters hp hr) with hr | hr
    · exact Or.inl (Or.inl hr)
    · exact Or.inr hr
  · rcases List.mem_append.mp (references_inlineRequestBody hb hr) with hr | hr
    · exact Or.inl (Or.inr (Or.inl hr))
    · exact Or.inr hr
  · -- A response is the given one or one of the components.
    obtain ⟨entry', hm, hr⟩ := List.mem_flatMap.mp hr
    obtain ⟨entry, he, hi⟩ := exists_mem_of_mapValuesM hs hm
    rcases List.mem_append.mp (references_inlineEntry _ hi hr) with hr | hr
    · exact Or.inl (Or.inr (Or.inr (List.mem_flatMap.mpr ⟨entry, he, hr⟩)))
    · exact Or.inr (List.mem_append_right _ (List.mem_append_right _ (List.mem_append_right _ hr)))

theorem references_inlinePathItem {item item' : PathItem}
    (h : inlinePathItem components item = .ok item') :
    item'.references ⊆ item.references ++ components.references := by
  obtain ⟨parameters, hp, h⟩ := bind_eq_ok.mp h
  obtain ⟨operations, ho, h⟩ := bind_eq_ok.mp h
  obtain rfl := Except.ok.inj h
  intro r hr
  rw [PathItem.references, List.mem_append] at hr
  rw [PathItem.references, List.mem_append, List.mem_append]
  rcases hr with hr | hr
  · rcases List.mem_append.mp (references_inlineParameters hp hr) with hr | hr
    · exact Or.inl (Or.inl hr)
    · exact Or.inr hr
  · obtain ⟨entry', hm, hr⟩ := List.mem_flatMap.mp hr
    obtain ⟨entry, he, hi⟩ := exists_mem_of_mapM ho hm
    obtain ⟨operation', hop, hi⟩ := bind_eq_ok.mp hi
    obtain rfl := Except.ok.inj hi
    rcases List.mem_append.mp (references_inlineOperation hop hr) with hr | hr
    · exact Or.inl (Or.inr (List.mem_flatMap.mpr ⟨entry, he, hr⟩))
    · exact Or.inr hr

variable {document document' : ApiDocument}

/-- Putting components in place changes nothing but the paths. -/
theorem exists_paths_of_inlineComponents (h : inlineComponents document = .ok document') :
    ∃ paths, document' = { document with paths } := by
  rw [inlineComponents] at h
  split at h
  · exact ⟨document.paths, (Except.ok.inj h).symm⟩
  · obtain ⟨paths, -, h⟩ := bind_eq_ok.mp h
    exact ⟨some paths, (Except.ok.inj h).symm⟩

theorem components_inlineComponents (h : inlineComponents document = .ok document') :
    document'.components = document.components := by
  obtain ⟨paths, rfl⟩ := exists_paths_of_inlineComponents h
  rfl

/-- Putting components in place brings no new references to schemas. -/
theorem references_inlineComponents (h : inlineComponents document = .ok document') :
    document'.references ⊆ document.references := by
  have hc := components_inlineComponents h
  -- Putting in place touches the paths alone.
  rw [inlineComponents] at h
  intro r hr
  rw [ApiDocument.references, hc, List.mem_append] at hr
  rw [ApiDocument.references, List.mem_append]
  split at h
  · obtain rfl := Except.ok.inj h
    exact hr
  · rename_i paths hpaths
    obtain ⟨paths', hi, h⟩ := bind_eq_ok.mp h
    obtain rfl := Except.ok.inj h
    rcases hr with hr | hr
    · exact Or.inl hr
    · obtain ⟨item', hm, hr⟩ := List.mem_flatMap.mp hr
      obtain ⟨item, hitem, hi⟩ := exists_mem_of_mapValuesM hi hm
      rcases List.mem_append.mp (references_inlinePathItem hi hr) with hr | hr
      · rw [hpaths]
        exact Or.inr (List.mem_flatMap.mpr ⟨item, hitem, hr⟩)
      · cases hcomponents : document.components with
        | none =>
          rw [hcomponents] at hr
          exact absurd hr List.not_mem_nil
        | some given =>
          rw [hcomponents] at hr
          exact Or.inl hr

end

end FunctionForge.Reference
