import FunctionForge.Proofs.Document.Traverse
import FunctionForge.Proofs.Fields
import FunctionForge.Proofs.Result
import FunctionForge.Proofs.Text.Cut
import FunctionForge.Reference.Component

/-!
# Chains of references to components

A reference to a component is written in one way only (`parseRefName_eq_ok_iff`), so that it leads
to one entry of its section (`Section.target_eq_ok_iff`).  `EndsIn` says what stands at the end of
a chain of such references: there is one such definition at most (`EndsIn.unique`), and what
following a chain comes to is that one (`endsIn_of_followComponent`).  A chain that goes through
changed definitions goes through the ones that they were made of, and ends in a changed one
(`exists_endsIn_of_map`).
-/

namespace FunctionForge.Reference

open Document (Components Referable)

/-! ### References -/

/-- The reference to a component of a section. -/
def componentRef (family name : String) : String :=
  componentsLead ++ (family ++ "/" ++ name)

/-- A reference is cut at the first slash behind what all of them start with. -/
theorem cutRef_eq_some_iff {path found name : String} :
    (Text.dropLead? componentsLead path).bind (Text.cutFirst '/') = some (found, name) ↔
      '/' ∉ found.toList ∧ path = componentRef found name := by
  have hslash : String.singleton '/' = "/" := by decide +kernel
  rw [Option.bind_eq_some_iff]
  simp only [Text.dropLead?_eq_some_iff, Text.cutFirst_eq_some_iff, hslash]
  constructor
  · rintro ⟨rest, rfl, hfound, rfl⟩
    exact ⟨hfound, rfl⟩
  · rintro ⟨hfound, rfl⟩
    exact ⟨_, rfl, hfound, rfl⟩

theorem componentRef_inj {family name found other : String} (hf : '/' ∉ family.toList)
    (ho : '/' ∉ found.toList) (h : componentRef family name = componentRef found other) :
    family = found ∧ name = other := by
  have hcut : (Text.dropLead? componentsLead (componentRef family name)).bind
      (Text.cutFirst '/') = some (family, name) := cutRef_eq_some_iff.mpr ⟨hf, rfl⟩
  have hcut' := cutRef_eq_some_iff.mpr ⟨ho, h⟩
  exact Prod.mk.inj (Option.some.inj (hcut.symm.trans hcut'))

theorem parseRefName_eq_ok_iff {path family name : String} (hf : '/' ∉ family.toList) :
    parseRefName path family = .ok name ↔ path = componentRef family name := by
  rw [parseRefName]
  cases hc : (Text.dropLead? componentsLead path).bind (Text.cutFirst '/') with
  | none =>
    refine iff_of_false nofun fun hpath => ?_
    rw [cutRef_eq_some_iff.mpr ⟨hf, hpath⟩] at hc
    exact absurd hc nofun
  | some cut =>
    obtain ⟨found, rest⟩ := cut
    obtain ⟨hslash, rfl⟩ := cutRef_eq_some_iff.mp hc
    dsimp only
    split_ifs with hfound
    · subst hfound
      rw [Except.ok.injEq]
      refine ⟨fun h => by rw [h], fun h => (componentRef_inj hslash hslash h).2⟩
    · exact iff_of_false nofun fun h => hfound (componentRef_inj hslash hf h).1

section

variable {α : Type} {family : Section α} {entry : Referable α} {value : α} {path : String}

theorem Section.target_eq_ok_iff (hf : '/' ∉ family.name.toList) :
    family.target path = .ok entry ↔
      ∃ name, path = componentRef family.name name ∧ family.entries.get? name = some entry := by
  rw [Section.target, bind_eq_ok]
  refine exists_congr fun name => and_congr (parseRefName_eq_ok_iff hf) ?_
  cases family.entries.get? name with
  | none => exact iff_of_false nofun nofun
  | some found =>
    change Except.ok found = .ok entry ↔ _
    rw [Except.ok.injEq, Option.some.injEq]

/-! ### Chains -/

/-- The definition that stands at the end of a chain of references to components of a section. -/
inductive EndsIn (family : Section α) : Referable α → α → Prop
  | inline (value : α) : EndsIn family (.inline value) value
  | ref {name : String} {entry : Referable α} {value : α}
      (he : family.entries.get? name = some entry) (h : EndsIn family entry value) :
      EndsIn family (.ref (componentRef family.name name)) value

theorem endsIn_inline_iff {given : α} : EndsIn family (.inline given) value ↔ value = given := by
  constructor
  · rintro ⟨⟩
    rfl
  · rintro rfl
    exact .inline value

theorem endsIn_ref_iff (hf : '/' ∉ family.name.toList) :
    EndsIn family (.ref path) value ↔
      ∃ next, family.target path = .ok next ∧ EndsIn family next value := by
  constructor
  · rintro (_ | ⟨he, h⟩)
    exact ⟨_, (Section.target_eq_ok_iff hf).mpr ⟨_, rfl, he⟩, h⟩
  · rintro ⟨next, ht, h⟩
    obtain ⟨name, rfl, he⟩ := (Section.target_eq_ok_iff hf).mp ht
    exact .ref he h

/-- A chain has one end at most. -/
theorem EndsIn.unique (hf : '/' ∉ family.name.toList) {other : α} (h : EndsIn family entry value)
    (h' : EndsIn family entry other) : value = other := by
  induction h with
  | inline value => exact (endsIn_inline_iff.mp h').symm
  | ref he h ih =>
    obtain ⟨next, ht, h'⟩ := (endsIn_ref_iff hf).mp h'
    have hnext := ht.symm.trans ((Section.target_eq_ok_iff hf).mpr ⟨_, rfl, he⟩)
    rw [Except.ok.inj hnext] at h'
    exact ih h'

theorem endsIn_of_followFrom (hf : '/' ∉ family.name.toList) {fuel : Nat} {seen : List String}
    (h : followFrom family fuel seen entry = .ok value) : EndsIn family entry value := by
  induction fuel generalizing seen entry with
  | zero =>
    cases entry with
    | inline given =>
      rw [followFrom] at h
      exact endsIn_inline_iff.mpr (Except.ok.inj h).symm
    | ref path =>
      rw [followFrom] at h
      exact absurd h nofun
  | succ fuel ih =>
    cases entry with
    | inline given =>
      rw [followFrom] at h
      exact endsIn_inline_iff.mpr (Except.ok.inj h).symm
    | ref path =>
      -- The references that have been seen only stop a chain, and do not change where it leads.
      rw [followFrom] at h
      split_ifs at h
      obtain ⟨next, ht, h⟩ := bind_eq_ok.mp h
      exact (endsIn_ref_iff hf).mpr ⟨next, ht, ih h⟩

/-- What following a chain comes to stands at its end. -/
theorem endsIn_of_followComponent (hf : '/' ∉ family.name.toList)
    (h : followComponent family entry = .ok value) : EndsIn family entry value :=
  endsIn_of_followFrom hf h

/-! ### Changed definitions -/

/-- A section with its definitions changed. -/
def Section.map (f : α → α) (family : Section α) : Section α :=
  ⟨family.name, family.entries.mapValues (Referable.map f)⟩

/-- A chain through changed definitions goes through those that they were made of. -/
theorem exists_endsIn_of_map {f : α → α} {changed : α}
    (h : EndsIn (family.map f) (entry.map f) changed) :
    ∃ value, EndsIn family entry value ∧ changed = f value := by
  -- The induction is on the chain of changed entries; each of them has an original.
  generalize he : entry.map f = entry' at h
  induction h generalizing entry with
  | inline given =>
    cases entry with
    | ref path => exact absurd he nofun
    | inline value => exact ⟨value, .inline value, (Referable.inline.inj he).symm⟩
  | @ref name next changed hnext h ih =>
    cases entry with
    | inline value => exact absurd he nofun
    | ref path =>
      obtain rfl := Referable.ref.inj he
      rw [Section.map, Fields.get?_mapValues, Option.map_eq_some_iff] at hnext
      obtain ⟨original, ho, hmap⟩ := hnext
      obtain ⟨value, hv, heq⟩ := ih hmap
      exact ⟨value, .ref ho hv, heq⟩

end

/-! ### The sections -/

section

variable (components : Components)

theorem slash_not_mem_parameterSection : '/' ∉ (parameterSection components).name.toList :=
  (by decide +kernel : '/' ∉ "parameters".toList)

theorem slash_not_mem_requestBodySection : '/' ∉ (requestBodySection components).name.toList :=
  (by decide +kernel : '/' ∉ "requestBodies".toList)

theorem slash_not_mem_responseSection : '/' ∉ (responseSection components).name.toList :=
  (by decide +kernel : '/' ∉ "responses".toList)

end

end FunctionForge.Reference
