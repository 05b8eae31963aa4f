import FunctionForge.Proofs.Reference.Imports

/-!
# What a resolver remembers

A resolver remembers which files it has read and what it has imported from, and takes both to the
next document.  A run of visits adds to this and takes nothing back, with an error or without one
(`Visited.grown`): it reads no file but those that it marks, and adds no schema but under the names
of what it marks.

What is remembered of other files makes no difference to a run (`Visited.recalling`).  So a document
that leads into none of the files which a resolver remembers is resolved as by a fresh one.
-/

namespace FunctionForge.Reference

open Document (ApiDocument LoadError SchemaOrRef)
open Files (Path)
open Markup (Tree)

namespace Bundle

variable {load : Path → Except LoadError Value} {origin : Origin} {path : String}
  {refs : List String} {st st₁ st' : Bundling}

theorem eq_of_file? {file other : Path} (h : file? origin path = .ok (some file))
    (h' : file? origin path = .ok (some other)) : other = file :=
  Option.some.inj (Except.ok.inj (h'.symm.trans h))

/-! ### Growth -/

theorem Found.isSome_lookup_iff {documents documents' : List (String × Value)} {file : Path}
    {value : Value} (h : Found load documents file value documents') (text : String) :
    (documents'.lookup text).isSome = true ↔
      (documents.lookup text).isSome = true ∨ text = file.plainText := by
  cases h with
  | remembered h =>
    refine ⟨Or.inl, fun hor => hor.elim id ?_⟩
    rintro rfl
    rw [h, Option.isSome_some]
  | loaded hd hv =>
    rw [List.lookup_cons]
    by_cases ht : text = file.plainText
    · rw [beq_iff_eq.mpr ht]
      exact ⟨fun _ => Or.inr ht, fun _ => rfl⟩
    · rw [beq_eq_false_iff_ne.mpr ht]
      exact (or_iff_left ht).symm

/-- What a run of visits, with an error or without one, has done to the state. -/
structure Grown (load : Path → Except LoadError Value) (st st' : Bundling) : Prop where
  folder : st'.resolver.folder = st.resolver.folder
  remembers : Remembers load st'
  marks : ∀ mark ∈ st.resolver.imported, mark ∈ st'.resolver.imported
  /-- No file has been read that is not marked. -/
  read : ∀ text, (st'.resolver.documents.lookup text).isSome = true →
    (st.resolver.documents.lookup text).isSome = true ∨
      ∃ mark ∈ st'.resolver.imported, mark.1 = text
  /-- Nothing has been added but under the name of something that has been marked. -/
  names : ∀ name ∈ st'.imports.keys, name ∈ st.imports.keys ∨
    ∃ mark ∈ st'.resolver.imported, mark ∉ st.resolver.imported ∧ importedName? mark = some name

namespace Grown

variable {st₂ : Bundling}

/-- What remains as it is has grown by nothing. -/
theorem refl (h : Remembers load st) : Grown load st st :=
  ⟨rfl, h, fun _ => id, fun _ => Or.inl, fun _ => Or.inl⟩

/-- What has grown twice has grown. -/
theorem trans (h : Grown load st st₁) (h' : Grown load st₁ st₂) : Grown load st st₂ where
  folder := h'.folder.trans h.folder
  remembers := h'.remembers
  marks mark hm := h'.marks mark (h.marks mark hm)
  read text ht := by
    rcases h'.read text ht with ht | hmark
    · rcases h.read text ht with ht | ⟨mark, hm, heq⟩
      · exact Or.inl ht
      · exact Or.inr ⟨mark, h'.marks mark hm, heq⟩
    · exact Or.inr hmark
  names name hn := by
    rcases h'.names name hn with hn | ⟨mark, hm, hnew, hname⟩
    · rcases h.names name hn with hn | ⟨mark, hm, hnew, hname⟩
      · exact Or.inl hn
      · exact Or.inr ⟨mark, h'.marks mark hm, hnew, hname⟩
    · exact Or.inr ⟨mark, hm, fun hold => hnew (h.marks mark hold), hname⟩

/-- A schema may be added under the name of something that was marked on the way. -/
theorem withImport {name : String} (h : Grown load st st₁)
    (hn : ∃ mark ∈ st₁.resolver.imported, mark ∉ st.resolver.imported ∧
      importedName? mark = some name) (schema : SchemaOrRef) :
    Grown load st (st₁.withImport name schema) := by
  refine ⟨?_, ?_, ?_, ?_, fun other ho => ?_⟩
  · rw [withImport_resolver, h.folder]
  · exact remembers_withImport.mpr h.remembers
  · rw [withImport_resolver]
    exact h.marks
  · rw [withImport_resolver]
    exact h.read
  · rw [withImport_resolver]
    obtain ⟨value, hm⟩ := Fields.exists_get?_of_mem_keys ho
    rcases mem_withImport (Fields.mem_of_get? hm) with hm | hm
    · exact h.names other (Fields.mem_keys_of_mem hm)
    · obtain rfl := (Prod.mk.inj hm).1
      exact Or.inr hn

end Grown

/-- Looking at where a reference leads adds a file and a mark at most. -/
theorem grown_of_entered {r : Except ResolveError (Option Arrival)}
    (he : Entered load origin path st r st₁) (hr : Remembers load st₁) : Grown load st st₁ := by
  cases he with
  | inside _ => exact .refl hr
  | known _ _ _ => exact .refl hr
  | refused _ => exact .refl hr
  | unnamed _ _ => exact .refl hr
  | unloadable _ _ _ _ _ =>
    exact ⟨rfl, hr, fun _ => List.mem_cons_of_mem _, fun _ => Or.inl, fun _ => Or.inl⟩
  | @arrived file name value schema documents _ _ _ _ _ hd =>
    refine ⟨rfl, hr, fun _ => List.mem_cons_of_mem _, fun text ht => ?_, fun _ => Or.inl⟩
    exact ((hd.isSome_lookup_iff text).mp ht).imp_right fun heq =>
      ⟨key file path, List.mem_cons_self, heq.symm⟩
  | @astray file name value cause documents _ _ _ _ _ hd =>
    refine ⟨rfl, hr, fun _ => List.mem_cons_of_mem _, fun text ht => ?_, fun _ => Or.inl⟩
    exact ((hd.isSome_lookup_iff text).mp ht).imp_right fun heq =>
      ⟨key file path, List.mem_cons_self, heq.symm⟩

/-- What a reference arrives at is marked, and was not before. -/
theorem mark_of_arrived {arrival : Arrival}
    (he : Entered load origin path st (.ok (some arrival)) st₁) :
    ∃ mark ∈ st₁.resolver.imported, mark ∉ st.resolver.imported ∧
      importedName? mark = some arrival.name := by
  cases he with
  | arrived _ hn hk _ _ _ => exact ⟨_, List.mem_cons_self, hk, importName_eq_ok_iff.mp hn⟩

/-- A run of visits adds to what is remembered, with an error or without one. -/
theorem Visited.grown {r : Except ResolveError Unit} (h : Visited load origin refs st r st')
    (hr : Remembers load st) : Grown load st st' := by
  -- Each visit adds to what is remembered, and an import is named after a mark of its own visit.
  induction h with
  | nil => exact .refl hr
  | settled he _ ih =>
    obtain ⟨hen, hr₁⟩ := entered_of_exec hr he
    exact (grown_of_entered hen hr₁).trans (ih hr₁)
  | refused he =>
    obtain ⟨hen, hr₁⟩ := entered_of_exec hr he
    exact grown_of_entered hen hr₁
  | @imported _ _ _ _ _ _ _ arrival _ he _ _ ihi ihr =>
    obtain ⟨hen, hr₁⟩ := entered_of_exec hr he
    have hinner := ihi hr₁
    obtain ⟨mark, hm, hnew, hname⟩ := mark_of_arrived hen
    have hadded := ((grown_of_entered hen hr₁).trans hinner).withImport
      ⟨mark, hinner.marks mark hm, hnew, hname⟩ arrival.bundled
    exact hadded.trans (ihr hadded.remembers)
  | failed he _ ih =>
    obtain ⟨hen, hr₁⟩ := entered_of_exec hr he
    exact (grown_of_entered hen hr₁).trans (ih hr₁)

/-- What has been marked before a schema is added stays so to the end of a run. -/
theorem Visited.marks_of_withImport {r : Except ResolveError Unit} {name : String}
    {schema : SchemaOrRef} (h : Visited load origin refs (st.withImport name schema) r st')
    (hr : Remembers load st) : ∀ mark ∈ st.resolver.imported, mark ∈ st'.resolver.imported := by
  have hmarks := (h.grown (remembers_withImport.mpr hr)).marks
  rwa [withImport_resolver] at hmarks

/-! ### Other files -/

/-- A resolver remembers nothing of a file. -/
structure Unknown (used : Resolver) (text : String) : Prop where
  unmarked : ∀ mark ∈ used.imported, mark.1 ≠ text
  unread : used.documents.lookup text = none

/-- A state in which all that a resolver remembers is remembered as well. -/
def recalling (used : Resolver) (st : Bundling) : Bundling :=
  { st with resolver := { st.resolver with
      documents := st.resolver.documents ++ used.documents
      imported := st.resolver.imported ++ used.imported } }

/-- It makes no difference to a step what a resolver remembers. -/
def Blind (used : Resolver) {α : Type} (x : Bundle α) : Prop :=
  ∀ st, exec x (recalling used st) =
    (exec x st).map fun outcome => (outcome.1, recalling used outcome.2)

section

variable {used : Resolver} {α β : Type}

theorem Blind.bind {x : Bundle α} {k : α → Bundle β} (hx : Blind used x)
    (hk : ∀ a, Blind used (k a)) : Blind used (x >>= k) := by
  intro st
  rw [exec_bind, exec_bind, hx st]
  cases exec x st with
  | none => rfl
  | some outcome =>
    obtain ⟨result, st₁⟩ := outcome
    cases result with
    | ok a => exact hk a st₁
    | error cause => rfl

theorem blind_pure (a : α) : Blind used (pure a) := fun _ => rfl

theorem blind_throw (cause : ResolveError) : Blind used (throw cause : Bundle α) := fun _ => rfl

theorem blind_liftExcept (result : Except ResolveError α) :
    Blind used (importRef.liftExcept result) := fun _ => rfl

/-- A file that was not remembered is read with or without the memory. -/
theorem blind_document {file : Path} (h : Unknown used file.plainText) :
    Blind used (document load file) := by
  intro st
  have hlookup : (recalling used st).resolver.documents.lookup file.plainText =
      st.resolver.documents.lookup file.plainText := by
    rw [recalling, List.lookup_append, h.unread, Option.or_none]
  rw [exec_document, exec_document, hlookup]
  cases st.resolver.documents.lookup file.plainText with
  | some value => rfl
  | none =>
    cases load file with
    | error cause => rfl
    | ok value => rfl

/-- What was not remembered is marked with or without the memory. -/
theorem blind_markImported {file : Path} (h : Unknown used file.plainText) (path : String) :
    Blind used (markImported file (parts path).2) := by
  intro st
  have hmem : key file path ∈ (recalling used st).resolver.imported ↔
      key file path ∈ st.resolver.imported := by
    rw [recalling, List.mem_append]
    exact or_iff_left fun hm => h.unmarked _ hm rfl
  by_cases hk : key file path ∈ st.resolver.imported
  · rw [exec_markImported_of_mem hk, exec_markImported_of_mem (hmem.mpr hk)]
    rfl
  · rw [exec_markImported_of_not_mem hk, exec_markImported_of_not_mem (mt hmem.mp hk)]
    rfl

theorem blind_targetSchema {file : Path} (h : Unknown used file.plainText) (path : String) :
    Blind used (targetSchema load path file) := by
  refine (blind_document h).bind fun value => ?_
  by_cases hp : (parts path).2.isEmpty = true
  · rw [if_pos hp]
    simp only [pure_bind]
    cases SchemaOrRef.ofTree? (Tree.ofValue value) with
    | none => exact blind_throw _
    | some schema => exact blind_pure schema
  · rw [if_neg hp]
    cases follow? value (parts path).2 with
    | none => exact blind_throw (.targetNotFound path)
    | some target =>
      simp only [pure_bind]
      cases SchemaOrRef.ofTree? (Tree.ofValue target) with
      | none => exact blind_throw _
      | some schema => exact blind_pure schema

/-- Looking at a reference, it makes no difference what is remembered of other files. -/
theorem blind_enter (h : ∀ file name, file? origin path = .ok (some file) →
    importName path file = .ok name → Unknown used file.plainText) :
    Blind used (enter load origin path) := by
  rw [enter]
  cases hf : file? origin path with
  | error cause => exact blind_liftExcept _
  | ok found =>
    rw [liftExcept_ok_bind]
    cases found with
    | none => exact blind_pure none
    | some file =>
      cases hn : importName path file with
      | error cause =>
        simp only [hn, liftExcept_error_bind]
        exact blind_liftExcept _
      | ok name =>
        -- Only here the memory is asked, about a file that is not remembered.
        have hunknown := h file name hf hn
        simp only [hn, liftExcept_ok_bind]
        refine (blind_markImported hunknown path).bind fun known => ?_
        cases known with
        | true => exact blind_pure none
        | false => exact (blind_targetSchema hunknown path).bind fun _ => blind_pure _

theorem recalling_withImport (used : Resolver) (st : Bundling) (name : String)
    (schema : SchemaOrRef) :
    recalling used (st.withImport name schema) = (recalling used st).withImport name schema := by
  rw [Bundling.withImport, Bundling.withImport]
  change _ = if st.imports.has name = true then _ else _
  split_ifs
  · rfl
  · rfl

/-- What a reference leads to is marked once it has been looked at. -/
theorem mem_imported_of_entered {r : Except ResolveError (Option Arrival)} {file : Path}
    {name : String} (he : Entered load origin path st r st₁)
    (hf : file? origin path = .ok (some file)) (hn : importName path file = .ok name) :
    key file path ∈ st₁.resolver.imported := by
  cases he with
  | inside h => exact absurd (h.symm.trans hf) nofun
  | known h _ hk => exact eq_of_file? h hf ▸ hk
  | arrived h _ _ _ _ _ => exact eq_of_file? h hf ▸ List.mem_cons_self
  | refused h => exact absurd (h.symm.trans hf) nofun
  | unnamed h hno =>
    obtain rfl := eq_of_file? hf h
    exact absurd (hno.symm.trans hn) nofun
  | unloadable h _ _ _ _ => exact eq_of_file? h hf ▸ List.mem_cons_self
  | astray h _ _ _ _ _ => exact eq_of_file? h hf ▸ List.mem_cons_self

/-- A reference into a file that was not remembered leads to the same place. -/
theorem exec_enter_recalling {r : Except ResolveError (Option Arrival)} (hr : Remembers load st)
    (he : exec (enter load origin path) st = some (r, st₁))
    (hu : ∀ mark ∈ st₁.resolver.imported, Unknown used mark.1) :
    exec (enter load origin path) (recalling used st) = some (r, recalling used st₁) := by
  have hblind : Blind used (enter load origin path) := blind_enter fun file name hf hn =>
    hu _ (mem_imported_of_entered (entered_of_exec hr he).1 hf hn)
  rw [hblind st, he, Option.map_some]

/-- To a run of visits that comes to none of the files that a resolver remembers, it makes no
difference what it remembers. -/
theorem Visited.recalling {r : Except ResolveError Unit} (h : Visited load origin refs st r st')
    (hr : Remembers load st) (hu : ∀ mark ∈ st'.resolver.imported, Unknown used mark.1) :
    Visited load origin refs (recalling used st) r (recalling used st') := by
  induction h with
  | nil => exact .nil
  | settled he hrest ih =>
    obtain ⟨-, hr₁⟩ := entered_of_exec hr he
    have hmarks := (hrest.grown hr₁).marks
    exact .settled (exec_enter_recalling hr he fun mark hm => hu mark (hmarks mark hm)) (ih hr₁ hu)
  | refused he => exact .refused (exec_enter_recalling hr he hu)
  | @imported _ _ _ _ _ st₂ _ arrival _ he hi hrest ihi ihr =>
    obtain ⟨-, hr₁⟩ := entered_of_exec hr he
    have hinner := hi.grown hr₁
    -- What was marked on the way is still marked at the end, so the bound on the files holds for
    -- it.
    have hu₂ : ∀ mark ∈ st₂.resolver.imported, Unknown used mark.1 := fun mark hm =>
      hu mark (hrest.marks_of_withImport hinner.remembers mark hm)
    have hrest' := ihr (remembers_withImport.mpr hinner.remembers) hu
    rw [recalling_withImport] at hrest'
    exact .imported (exec_enter_recalling hr he fun mark hm => hu₂ mark (hinner.marks mark hm))
      (ihi hr₁ hu₂) hrest'
  | failed he hi ih =>
    obtain ⟨-, hr₁⟩ := entered_of_exec hr he
    have hmarks := (hi.grown hr₁).marks
    exact .failed (exec_enter_recalling hr he fun mark hm => hu mark (hmarks mark hm)) (ih hr₁ hu)

end

end Bundle

namespace Resolver

open Reference.Bundle

variable {load : Path → Except LoadError Value} {document : ApiDocument} {used : Resolver}
  {folder : Path} {r : Except ResolveError Unit} {st : Bundling}

/-- A document that leads into no file that a resolver remembers is bundled as by a fresh one. -/
theorem Bundles.recalling (h : (Resolver.fresh used.folder).Bundles load document r st)
    (hu : ∀ mark ∈ st.resolver.imported, Unknown used mark.1) :
    used.Bundles load document r (Bundle.recalling used st) :=
  Visited.recalling h nofun hu

theorem Bundles.grown (h : (Resolver.fresh folder).Bundles load document r st) :
    Grown load ⟨Resolver.fresh folder, [], []⟩ st :=
  Visited.grown h nofun

/-- A resolver that has been used remembers nothing of a file that nothing was imported from. -/
theorem Bundles.unknown (h : (Resolver.fresh folder).Bundles load document r st) {text : String}
    (hne : ∀ mark ∈ st.resolver.imported, mark.1 ≠ text) : Unknown st.resolver text where
  unmarked := hne
  unread := by
    cases hd : st.resolver.documents.lookup text with
    | none => rfl
    | some value =>
      rcases h.grown.read text (by rw [hd, Option.isSome_some]) with hold | ⟨mark, hm, heq⟩
      · exact absurd hold nofun
      · exact absurd heq (hne mark hm)

end Resolver

end FunctionForge.Reference
