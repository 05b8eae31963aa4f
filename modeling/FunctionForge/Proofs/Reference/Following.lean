import FunctionForge.Proofs.Reference.Chain
import Mathlib.Data.List.Perm.Subperm
import Mathlib.Logic.Relation

/-!
# Following a chain of references to components

A chain is followed until something is given in place, a reference comes up again, or a reference
leads nowhere.  `Loop` is this process without a bound, and `Trail` says how far it has come.  The
references on a trail are distinct and name entries of the section (`Trail.length_le`), so that a
bound by the size of the section never stops a chain (`loop_followFrom`).  A chain that ends in a
definition never goes round in a cycle (`EndsIn.not_transGen`), and so following it comes to that
definition; any other chain has a first bad step, and following it comes to the error of that step
(`classified_of_slash_not_mem`).  That is so for all sections of all components
(`classified_sections`).
-/

namespace FunctionForge.Reference

open Document (Components Referable)

/-! ### Bad references -/

/-- What is wrong with a reference that is none to a component of a section. -/
inductive FormatError (family path : String) : ResolveError → Prop
  /-- It is no reference to a component at all. -/
  | shape (h : ∀ found name, '/' ∉ found.toList → path ≠ componentRef found name) :
      FormatError family path (.invalidFormat path)
  | otherSection {found name : String} (hf : '/' ∉ found.toList)
      (hp : path = componentRef found name) (hne : found ≠ family) :
      FormatError family path (.wrongSection family found path)

theorem formatError_of_parseRefName {path family : String} {cause : ResolveError}
    (h : parseRefName path family = .error cause) : FormatError family path cause := by
  rw [parseRefName] at h
  cases hc : (Text.dropLead? componentsLead path).bind (Text.cutFirst '/') with
  | none =>
    rw [hc] at h
    obtain rfl := Except.error.inj h
    refine .shape fun found name hf hp => ?_
    rw [cutRef_eq_some_iff.mpr ⟨hf, hp⟩] at hc
    cases hc
  | some cut =>
    obtain ⟨found, rest⟩ := cut
    obtain ⟨hf, hp⟩ := cutRef_eq_some_iff.mp hc
    rw [hc] at h
    dsimp only at h
    split_ifs at h with hne
    obtain rfl := Except.error.inj h
    exact .otherSection hf hp hne

theorem FormatError.ne {path family : String} {cause : ResolveError}
    (h : FormatError family path cause) (hf : '/' ∉ family.toList) (name : String) :
    path ≠ componentRef family name := by
  cases h with
  | shape h => exact h family name hf
  | otherSection hfound hp hne =>
    intro heq
    exact hne (componentRef_inj hfound hf (hp.symm.trans heq)).1

theorem FormatError.unique {path family : String} {cause other : ResolveError}
    (h : FormatError family path cause) (ho : FormatError family path other) : cause = other := by
  cases h with
  | shape h =>
    cases ho with
    | shape => rfl
    | otherSection hf hp => exact absurd hp (h _ _ hf)
  | otherSection hf hp =>
    cases ho with
    | shape ho => exact absurd hp (ho _ _ hf)
    | otherSection hf' hp' => rw [(componentRef_inj hf hf' (hp.symm.trans hp')).1]

variable {α : Type} {family : Section α}

/-- Why a reference leads to no entry of a section: it is none to a component of the section, or
there is no such component. -/
inductive Lost (family : Section α) (path : String) : ResolveError → Prop
  | format {cause : ResolveError} (hp : ∀ name, path ≠ componentRef family.name name)
      (h : FormatError family.name path cause) : Lost family path cause
  | missing {name : String} (hp : path = componentRef family.name name)
      (h : family.entries.get? name = none) : Lost family path (.targetNotFound path)

theorem Section.target_eq_error_iff (hf : '/' ∉ family.name.toList) {path : String}
    {cause : ResolveError} : family.target path = .error cause ↔ Lost family path cause := by
  rw [Section.target, bind_eq_error]
  constructor
  · rintro (hparse | ⟨name, hparse, htarget⟩)
    · have hformat := formatError_of_parseRefName hparse
      exact .format (hformat.ne hf) hformat
    · have hp := (parseRefName_eq_ok_iff hf).mp hparse
      cases hget : family.entries.get? name with
      | some entry =>
        rw [hget] at htarget
        cases htarget
      | none =>
        rw [hget] at htarget
        obtain rfl := Except.error.inj htarget
        exact .missing hp hget
  · -- A reference is of no component, or of one that the section does not have.
    rintro (⟨hp, hformat⟩ | ⟨hp, hget⟩)
    · refine Or.inl ?_
      cases hparse : parseRefName path family.name with
      | ok name => exact absurd ((parseRefName_eq_ok_iff hf).mp hparse) (hp name)
      | error other => rw [(formatError_of_parseRefName hparse).unique hformat]
    · refine Or.inr ⟨_, (parseRefName_eq_ok_iff hf).mpr hp, ?_⟩
      rw [hget]
      rfl

/-- The name of an entry leads to it. -/
theorem Section.target_componentRef (hf : '/' ∉ family.name.toList) {name : String}
    {next : Referable α} (he : family.entries.get? name = some next) :
    family.target (componentRef family.name name) = .ok next :=
  (Section.target_eq_ok_iff hf).mpr ⟨name, rfl, he⟩

/-! ### The process -/

/-- Following a chain from an entry comes to a result if some references have been seen already. -/
inductive Loop (family : Section α) :
    List String → Referable α → Except ResolveError α → Prop
  | found {seen : List String} {value : α} : Loop family seen (.inline value) (.ok value)
  | again {seen : List String} {path : String} (h : path ∈ seen) :
      Loop family seen (.ref path) (.error (.circular path))
  | lost {seen : List String} {path : String} {cause : ResolveError} (h : path ∉ seen)
      (ht : family.target path = .error cause) : Loop family seen (.ref path) (.error cause)
  | step {seen : List String} {path : String} {next : Referable α}
      {result : Except ResolveError α} (h : path ∉ seen) (ht : family.target path = .ok next)
      (hl : Loop family (path :: seen) next result) : Loop family seen (.ref path) result

theorem Loop.unique {seen : List String} {entry : Referable α}
    {result other : Except ResolveError α}
    (h : Loop family seen entry result) (ho : Loop family seen entry other) : result = other := by
  -- Each round is settled by the entry and by what has been seen, so the two loops go on together.
  induction h with
  | found =>
    cases ho with
    | found => rfl
  | again h =>
    cases ho with
    | again => rfl
    | lost hnot => exact absurd h hnot
    | step hnot => exact absurd h hnot
  | lost hnot ht =>
    cases ho with
    | again h => exact absurd h hnot
    | lost _ ht' => rw [Except.error.inj (ht.symm.trans ht')]
    | step _ ht' => exact absurd (ht.symm.trans ht') nofun
  | step hnot ht _ ih =>
    cases ho with
    | again h => exact absurd h hnot
    | lost _ ht' => exact absurd (ht.symm.trans ht') nofun
    | step _ ht' hl =>
      obtain rfl := Except.ok.inj (ht.symm.trans ht')
      exact ih hl

/-- Following a chain from `start` has come to an entry; the references before it have been seen,
the latest first. -/
inductive Trail (family : Section α) (start : Referable α) : List String → Referable α → Prop
  | start : Trail family start [] start
  | step {seen : List String} {name : String} {next : Referable α}
      (h : Trail family start seen (.ref (componentRef family.name name)))
      (hnew : componentRef family.name name ∉ seen)
      (he : family.entries.get? name = some next) :
      Trail family start (componentRef family.name name :: seen) next

/-- The first step of a chain that cannot be taken: the reference has been seen, or it leads
nowhere. -/
inductive BadStep (family : Section α) (seen : List String) (path : String) : ResolveError → Prop
  | circular (h : path ∈ seen) : BadStep family seen path (.circular path)
  | lost {cause : ResolveError} (h : path ∉ seen) (hl : Lost family path cause) :
      BadStep family seen path cause

namespace Trail

variable {start entry : Referable α} {seen : List String}

theorem nodup (h : Trail family start seen entry) : seen.Nodup := by
  induction h with
  | start => exact List.nodup_nil
  | step _ hnew _ ih => exact List.nodup_cons.mpr ⟨hnew, ih⟩

theorem subset (h : Trail family start seen entry) :
    seen ⊆ family.entries.keys.map (componentRef family.name) := by
  induction h with
  | start => exact List.nil_subset _
  | step _ _ he ih =>
    have hkey := Fields.mem_keys_of_mem (Fields.mem_of_get? he)
    exact List.cons_subset.mpr ⟨List.mem_map_of_mem hkey, ih⟩

/-- A trail is not longer than the section. -/
theorem length_le (h : Trail family start seen entry) : seen.length ≤ family.entries.length := by
  have hle := (h.nodup.subperm h.subset).length_le
  rwa [List.length_map, Fields.keys, List.length_map] at hle

/-- What can be done from where a trail has come to can be done from its start. -/
theorem loop (h : Trail family start seen entry) (hf : '/' ∉ family.name.toList)
    {result : Except ResolveError α} (hl : Loop family seen entry result) :
    Loop family [] start result := by
  induction h with
  | start => exact hl
  | step _ hnew he ih => exact ih (.step hnew (Section.target_componentRef hf he) hl)

/-- A trail goes along the chain that it starts. -/
theorem endsIn (h : Trail family start seen entry) {value : α} (hf : '/' ∉ family.name.toList) :
    EndsIn family start value ↔ EndsIn family entry value := by
  induction h with
  | start => rfl
  | step _ _ he ih =>
    rw [ih, endsIn_ref_iff hf, Section.target_componentRef hf he]
    simp only [Except.ok.injEq, exists_eq_left']

end Trail

/-! ### The bound -/

/-- A bound by the size of the section is enough: whatever has been seen names an entry of it. -/
theorem loop_followFrom (hf : '/' ∉ family.name.toList) {start entry : Referable α}
    {seen : List String} (h : Trail family start seen entry) {fuel : Nat}
    (hfuel : family.entries.length < fuel + seen.length) :
    Loop family seen entry (followFrom family fuel seen entry) := by
  induction fuel generalizing seen entry with
  | zero =>
    -- Without fuel the trail would be longer than the section.
    have hle := h.length_le
    omega
  | succ fuel ih =>
    cases entry with
    | inline value =>
      rw [followFrom]
      exact .found
    | ref path =>
      rw [followFrom]
      split_ifs with hseen
      · exact .again (List.contains_iff_mem.mp hseen)
      · have hnew : path ∉ seen := fun hm => hseen (List.contains_iff_mem.mpr hm)
        cases ht : family.target path with
        | error cause => exact .lost hnew ht
        | ok next =>
          obtain ⟨name, rfl, he⟩ := (Section.target_eq_ok_iff hf).mp ht
          have hnext := h.step hnew he
          exact .step hnew ht (ih hnext (by rw [List.length_cons]; omega))

theorem loop_followComponent (hf : '/' ∉ family.name.toList) (entry : Referable α) :
    Loop family [] entry (followComponent family entry) :=
  loop_followFrom hf .start (by rw [List.length_nil]; omega)

/-! ### Chains that end in a definition -/

/-- A reference leads from an entry to another one. -/
def Next (family : Section α) (entry next : Referable α) : Prop :=
  ∃ path, entry = .ref path ∧ family.target path = .ok next

theorem Next.unique {entry next other : Referable α} (h : Next family entry next)
    (ho : Next family entry other) : next = other := by
  obtain ⟨path, rfl, ht⟩ := h
  obtain ⟨path', hpath, ht'⟩ := ho
  obtain rfl := Referable.ref.inj hpath
  exact Except.ok.inj (ht.symm.trans ht')

/-- A chain that ends in a definition does not lead back to where it starts. -/
theorem EndsIn.not_transGen (hf : '/' ∉ family.name.toList) {entry : Referable α} {value : α}
    (h : EndsIn family entry value) : ¬Relation.TransGen (Next family) entry entry := by
  induction h with
  | inline value =>
    intro hround
    obtain ⟨next, ⟨path, hpath, -⟩, -⟩ := Relation.TransGen.head'_iff.mp hround
    exact absurd hpath nofun
  | @ref name next value he h ih =>
    -- A cycle through an entry goes through what comes next, too.
    intro hround
    have hnext : Next family (.ref (componentRef family.name name)) next :=
      ⟨_, rfl, Section.target_componentRef hf he⟩
    obtain ⟨other, hother, hback⟩ := Relation.TransGen.head'_iff.mp hround
    obtain rfl := hnext.unique hother
    exact ih (Relation.TransGen.tail' hback hnext)

/-- A reference on a trail leads to where the trail has come to. -/
theorem Trail.transGen (hf : '/' ∉ family.name.toList) {start entry : Referable α}
    {seen : List String} (h : Trail family start seen entry) {path : String} (hm : path ∈ seen) :
    Relation.TransGen (Next family) (.ref path) entry := by
  induction h with
  | start => exact absurd hm List.not_mem_nil
  | step _ _ he ih =>
    have hnext : Next family (.ref (componentRef family.name _)) _ :=
      ⟨_, rfl, Section.target_componentRef hf he⟩
    rcases List.mem_cons.mp hm with rfl | hm
    · exact .single hnext
    · exact (ih hm).tail hnext

/-! ### Outcomes -/

/-- The process comes to an error at the first bad step of the chain. -/
theorem exists_badStep_of_loop (hf : '/' ∉ family.name.toList) {start entry : Referable α}
    {seen : List String} (h : Trail family start seen entry) {cause : ResolveError}
    (hl : Loop family seen entry (.error cause)) :
    ∃ seen path, Trail family start seen (.ref path) ∧ BadStep family seen path cause := by
  -- The induction is on a process with any result, of which the error is the case in question.
  generalize hresult : Except.error cause = result at hl
  induction hl with
  | found => exact absurd hresult nofun
  | again hm =>
    obtain rfl := Except.error.inj hresult
    exact ⟨_, _, h, .circular hm⟩
  | lost hnot ht =>
    obtain rfl := Except.error.inj hresult
    exact ⟨_, _, h, .lost hnot ((Section.target_eq_error_iff hf).mp ht)⟩
  | step hnot ht _ ih =>
    obtain ⟨name, rfl, he⟩ := (Section.target_eq_ok_iff hf).mp ht
    exact ih (h.step hnot he) hresult

theorem BadStep.loop (hf : '/' ∉ family.name.toList) {seen : List String} {path : String}
    {cause : ResolveError} (h : BadStep family seen path cause) :
    Loop family seen (.ref path) (.error cause) := by
  cases h with
  | circular hm => exact .again hm
  | lost hnot hl => exact .lost hnot ((Section.target_eq_error_iff hf).mpr hl)

/-- No chain that ends in a definition has a bad step. -/
theorem BadStep.not_endsIn (hf : '/' ∉ family.name.toList) {start : Referable α}
    {seen : List String} {path : String} {cause : ResolveError}
    (h : Trail family start seen (.ref path)) (hb : BadStep family seen path cause) {value : α} :
    ¬EndsIn family start value := by
  rw [h.endsIn hf]
  intro hends
  cases hb with
  | circular hm => exact hends.not_transGen hf (h.transGen hf hm)
  | lost _ hl =>
    obtain ⟨next, ht, -⟩ := (endsIn_ref_iff hf).mp hends
    rw [(Section.target_eq_error_iff hf).mpr hl] at ht
    exact absurd ht nofun

/-- What following a chain comes to from every entry: the process without a bound stops there; it is
the definition that the chain ends in; and if there is none, the error of the first bad step. -/
structure Classified (family : Section α) : Prop where
  loop : ∀ entry result, Loop family [] entry result ↔ followComponent family entry = result
  ok : ∀ entry value, followComponent family entry = .ok value ↔ EndsIn family entry value
  error : ∀ entry cause, followComponent family entry = .error cause ↔
    ∃ seen path, Trail family entry seen (.ref path) ∧ BadStep family seen path cause

theorem classified_of_slash_not_mem (hf : '/' ∉ family.name.toList) : Classified family := by
  have hloop := loop_followComponent hf
  have herror (entry : Referable α) (cause : ResolveError) :
      followComponent family entry = .error cause ↔
        ∃ seen path, Trail family entry seen (.ref path) ∧ BadStep family seen path cause := by
    constructor
    · intro h
      have hl := hloop entry
      rw [h] at hl
      exact exists_badStep_of_loop hf .start hl
    · rintro ⟨seen, path, ht, hb⟩
      exact (hloop entry).unique (ht.loop hf (hb.loop hf))
  refine ⟨fun entry result => ⟨(hloop entry).unique, fun h => h ▸ hloop entry⟩,
    fun entry value => ⟨endsIn_of_followComponent hf, fun h => ?_⟩, herror⟩
  -- A chain with a definition at its end has no bad step, so following it cannot fail.
  cases hresult : followComponent family entry with
  | ok other => rw [(endsIn_of_followComponent hf hresult).unique hf h]
  | error cause =>
    obtain ⟨seen, path, ht, hb⟩ := (herror entry cause).mp hresult
    exact absurd h (hb.not_endsIn hf ht)

/-! ### Sections of components -/

/-- Following a chain from a parameter, a request body or a response always stops, at the definition
that the chain ends in, or else with the error of its first bad step. A name is read off a reference
exactly if it is written behind the section and a slash. -/
theorem classified_sections :
    (∀ components : Components, Classified (parameterSection components) ∧
      Classified (requestBodySection components) ∧ Classified (responseSection components)) ∧
    ∀ path family name, '/' ∉ family.toList →
      (parseRefName path family = .ok name ↔ path = componentRef family name) := by
  refine ⟨fun components => ⟨?_, ?_, ?_⟩, fun path family name => parseRefName_eq_ok_iff⟩
  · exact classified_of_slash_not_mem (slash_not_mem_parameterSection components)
  · exact classified_of_slash_not_mem (slash_not_mem_requestBodySection components)
  · exact classified_of_slash_not_mem (slash_not_mem_responseSection components)

/-- Responses of which one is given in place, and two refer to each other. -/
def cyclicComponents : Components :=
  { Components.none with
    responses := [
      ("NotFound", .inline ⟨"There is no such thing.", []⟩),
      ("Gone", .ref "#/components/responses/NotFound"),
      ("First", .ref "#/components/responses/Second"),
      ("Second", .ref "#/components/responses/First")] }

/-- A chain comes to the response at its end, or back to the reference that it starts with. -/
theorem classified_sections_cyclic :
    let family := responseSection cyclicComponents
    '/' ∉ "responses".toList ∧
      parseRefName "#/components/responses/Gone" "responses" = .ok "Gone" ∧
      followComponent family (.ref "#/components/responses/Gone") =
        .ok ⟨"There is no such thing.", []⟩ ∧
      followComponent family (.ref "#/components/responses/First") =
        .error (.circular "#/components/responses/First") := by
  intro family
  obtain ⟨hsections, hparse⟩ := classified_sections
  obtain ⟨-, -, hclassified⟩ := hsections cyclicComponents
  have hslash : '/' ∉ "responses".toList := slash_not_mem_responseSection cyclicComponents
  have hgone : "#/components/responses/Gone" = componentRef "responses" "Gone" := by
    decide +kernel
  have hfound : "#/components/responses/NotFound" = componentRef "responses" "NotFound" := by
    decide +kernel
  have hfirst : "#/components/responses/First" = componentRef "responses" "First" := by
    decide +kernel
  have hsecond : "#/components/responses/Second" = componentRef "responses" "Second" := by
    decide +kernel
  refine ⟨hslash, (hparse _ _ _ hslash).mpr hgone, (hclassified.ok _ _).mpr ?_,
    (hclassified.error _ _).mpr ?_⟩
  · have hend : EndsIn family (.ref (componentRef "responses" "NotFound"))
        ⟨"There is no such thing.", []⟩ := .ref rfl (.inline _)
    rw [hgone]
    exact .ref rfl (hfound ▸ hend)
  · refine ⟨[componentRef "responses" "Second", componentRef "responses" "First"], _, ?_,
      .circular (hfirst ▸ List.mem_cons_of_mem _ List.mem_cons_self)⟩
    have hone : Trail family (.ref "#/components/responses/First")
        [componentRef "responses" "First"] (.ref (componentRef "responses" "Second")) := by
      rw [hfirst, ← hsecond]
      exact .step .start List.not_mem_nil rfl
    have hnew : componentRef "responses" "Second" ∉ [componentRef "responses" "First"] := by
      rw [← hfirst, ← hsecond]
      decide
    exact hone.step hnew rfl

end FunctionForge.Reference
