import FunctionForge.Proofs.Fields
import FunctionForge.Proofs.Files.Path
import FunctionForge.Proofs.Reference.Run

/-!
# What bundling imports

A run of visits without an error marks files and pointers as imported from and adds schemas.
`Visited.progress` says what the two have to do with each other in the end: whatever the run has
marked is imported under its name, whatever it has added comes from something marked, and all
references in either lead to something marked.  While the run lasts this does not hold of what it is
still inside of, so it is stated as a relation of the states before and after (`Progress`), which
composes.

Two spellings of a file's path are marked alike, and give the same name (`importName_eq_ok_iff`).
-/

namespace FunctionForge.Reference.Bundle

open Document (LoadError SchemaOrRef)
open Files (Path)

variable {load : Path → Except LoadError Value}

/-! ### Names -/

/-- The name under which something marked is imported. -/
def importedName? (mark : String × String) : Option String :=
  (lastName? mark.2).or (Files.Path.mk mark.1).stem?

theorem importedName?_key (file : Path) (path : String) :
    importedName? (key file path) = (lastName? (parts path).2).or file.stem? := by
  rw [importedName?, key, Path.stem?_congr (Path.segments_plainText file)]

/-- What something is imported as depends on its mark alone. -/
theorem importName_eq_ok_iff {path name : String} {file : Path} :
    importName path file = .ok name ↔ importedName? (key file path) = some name := by
  rw [importName, importedName?_key]
  cases (lastName? (parts path).2).or file.stem? with
  | none => simp
  | some found => simp

/-! ### Settled references -/

/-- A reference leads into the document or to something marked. -/
def Settled (origin : Origin) (path : String) (st : Bundling) : Prop :=
  file? origin path = .ok none ∨
    ∃ file name, file? origin path = .ok (some file) ∧ importName path file = .ok name ∧
      key file path ∈ st.resolver.imported

/-- What is settled stays so while more is marked. -/
theorem Settled.mono {origin : Origin} {path : String} {st st' : Bundling}
    (h : Settled origin path st)
    (hm : ∀ mark ∈ st.resolver.imported, mark ∈ st'.resolver.imported) :
    Settled origin path st' := by
  rcases h with hf | ⟨file, name, hf, hn, hk⟩
  · exact Or.inl hf
  · exact Or.inr ⟨file, name, hf, hn, hm _ hk⟩

/-! ### Imports -/

/-- An arrival is what a mark stands for, and its references are settled. -/
structure Imported (load : Path → Except LoadError Value) (st : Bundling) (mark : String × String)
    (arrival : Arrival) : Prop where
  file : arrival.file.plainText = mark.1
  name : importedName? mark = some arrival.name
  schema : ∃ value, Holds load mark.1 value ∧ schemaAt? value mark.2 = some arrival.schema
  settled : ∀ path ∈ arrival.schema.references, Settled (originIn arrival.file) path st

theorem Imported.mono {st st' : Bundling} {mark : String × String} {arrival : Arrival}
    (h : Imported load st mark arrival)
    (hm : ∀ mark ∈ st.resolver.imported, mark ∈ st'.resolver.imported) :
    Imported load st' mark arrival :=
  ⟨h.file, h.name, h.schema, fun path hp => (h.settled path hp).mono hm⟩

/-- What a run of visits without an error has done to the state. -/
structure Progress (load : Path → Except LoadError Value) (st st' : Bundling) : Prop where
  remembers : Remembers load st'
  marks : ∀ mark ∈ st.resolver.imported, mark ∈ st'.resolver.imported
  names : ∀ name ∈ st.imports.keys, name ∈ st'.imports.keys
  /-- What has been marked is imported. -/
  done : ∀ mark ∈ st'.resolver.imported, mark ∈ st.resolver.imported ∨
    ∃ arrival, Imported load st' mark arrival ∧ arrival.name ∈ st'.imports.keys
  /-- What has been added comes from something marked. -/
  added : ∀ entry ∈ st'.imports, entry ∈ st.imports ∨
    ∃ mark ∈ st'.resolver.imported, ∃ arrival, Imported load st' mark arrival ∧
      entry = (arrival.name, arrival.bundled)

namespace Progress

variable {st st₁ st₂ : Bundling}

theorem refl (h : Remembers load st) : Progress load st st :=
  ⟨h, fun _ => id, fun _ => id, fun _ => Or.inl, fun _ => Or.inl⟩

theorem trans (h : Progress load st st₁) (h' : Progress load st₁ st₂) : Progress load st st₂ where
  remembers := h'.remembers
  marks mark hm := h'.marks mark (h.marks mark hm)
  names name hn := h'.names name (h.names name hn)
  done mark hm := by
    rcases h'.done mark hm with hm | hd
    · rcases h.done mark hm with hm | ⟨arrival, hi, hn⟩
      · exact Or.inl hm
      · exact Or.inr ⟨arrival, hi.mono h'.marks, h'.names _ hn⟩
    · exact Or.inr hd
  added entry he := by
    rcases h'.added entry he with he | ha
    · rcases h.added entry he with he | ⟨mark, hm, arrival, hi, heq⟩
      · exact Or.inl he
      · exact Or.inr ⟨mark, h'.marks mark hm, arrival, hi.mono h'.marks, heq⟩
    · exact Or.inr ha

end Progress

/-! ### Adding an import -/

section

variable {st : Bundling} {name : String} {schema : SchemaOrRef}

@[simp]
theorem withImport_resolver : (st.withImport name schema).resolver = st.resolver := by
  rw [Bundling.withImport]
  split
  · rfl
  · rfl

theorem remembers_withImport :
    Remembers load (st.withImport name schema) ↔ Remembers load st := by
  rw [Remembers, Remembers, withImport_resolver]

theorem mem_keys_withImport : name ∈ (st.withImport name schema).imports.keys := by
  rw [Bundling.withImport]
  split
  · rename_i h
    exact Fields.has_iff_mem_keys.mp h
  · exact Fields.mem_keys_insert.mpr (Or.inl rfl)

theorem mem_keys_withImport_of_mem {other : String} (h : other ∈ st.imports.keys) :
    other ∈ (st.withImport name schema).imports.keys := by
  rw [Bundling.withImport]
  split
  · exact h
  · exact Fields.mem_keys_insert.mpr (Or.inr h)

/-- Adding an import brings in one entry at most. -/
theorem mem_withImport {entry : String × SchemaOrRef}
    (h : entry ∈ (st.withImport name schema).imports) :
    entry ∈ st.imports ∨ entry = (name, schema) := by
  rw [Bundling.withImport] at h
  split at h
  · exact Or.inl h
  · rename_i hn
    rw [Bool.not_eq_true, Fields.has_eq_false_iff] at hn
    change entry ∈ st.imports.insert name schema at h
    rw [Fields.insert_of_not_mem schema hn, List.mem_append, List.mem_singleton] at h
    exact h

end

/-! ### Runs -/

/-- What looking at a reference and importing what is new there has done to the state. -/
theorem progress_of_arrived {origin : Origin} {path : String} {st st₁ st₂ : Bundling}
    {arrival : Arrival} (he : Entered load origin path st (.ok (some arrival)) st₁)
    (h : Progress load st₁ st₂)
    (hs : ∀ path ∈ arrival.schema.references, Settled (originIn arrival.file) path st₂) :
    Progress load st (st₂.withImport arrival.name arrival.bundled) ∧
      Settled origin path (st₂.withImport arrival.name arrival.bundled) := by
  cases he with
  | @arrived file name value schema documents hf hn hk hv hschema =>
    have hmark : key file path ∈ st₂.resolver.imported := h.marks _ List.mem_cons_self
    have hmarks {mark : String × String} (hm : mark ∈ st₂.resolver.imported) :
        mark ∈ (st₂.withImport name (Arrival.bundled ⟨file, name, schema⟩)).resolver.imported := by
      rwa [withImport_resolver]
    have hi : Imported load st₂ (key file path) ⟨file, name, schema⟩ :=
      ⟨rfl, importName_eq_ok_iff.mp hn, ⟨value, hv, hschema⟩, hs⟩
    refine ⟨⟨?_, ?_, ?_, ?_, ?_⟩, Or.inr ⟨file, name, hf, hn, hmarks hmark⟩⟩
    · rw [Remembers, withImport_resolver]
      exact h.remembers
    · exact fun mark hm => hmarks (h.marks mark (List.mem_cons_of_mem _ hm))
    · exact fun other ho => mem_keys_withImport_of_mem (h.names other ho)
    · intro mark hm
      rw [withImport_resolver] at hm
      rcases h.done mark hm with hm | ⟨other, ho, hother⟩
      -- The new mark is done now; the others were done before or on the way.
      · rcases List.mem_cons.mp hm with rfl | hm
        · exact Or.inr ⟨_, hi.mono fun _ => hmarks, mem_keys_withImport⟩
        · exact Or.inl hm
      · exact Or.inr ⟨other, ho.mono fun _ => hmarks, mem_keys_withImport_of_mem hother⟩
    · intro entry hm
      rcases mem_withImport hm with hm | rfl
      · rcases h.added entry hm with hm | ⟨mark, hmark, other, ho, rfl⟩
        · exact Or.inl hm
        · exact Or.inr ⟨mark, hmarks hmark, other, ho.mono fun _ => hmarks, rfl⟩
      · exact Or.inr ⟨_, hmarks hmark, _, hi.mono fun _ => hmarks, rfl⟩

/-- A reference that brings nothing new is settled. -/
theorem settled_of_entered {origin : Origin} {path : String} {st st₁ : Bundling}
    (he : Entered load origin path st (.ok none) st₁) : st₁ = st ∧ Settled origin path st := by
  cases he with
  | inside hf => exact ⟨rfl, Or.inl hf⟩
  | known hf hn hk => exact ⟨rfl, Or.inr ⟨_, _, hf, hn, hk⟩⟩

/-- A run without an error settles its references. -/
theorem Visited.progress {origin : Origin} {refs : List String} {st st' : Bundling}
    (h : Visited load origin refs st (.ok ()) st') (hr : Remembers load st) :
    Progress load st st' ∧ ∀ path ∈ refs, Settled origin path st' := by
  generalize hok : (Except.ok () : Except ResolveError Unit) = r at h
  induction h with
  | nil => exact ⟨.refl hr, fun _ hm => absurd hm List.not_mem_nil⟩
  | settled he _ ih =>
    obtain ⟨hen, -⟩ := entered_of_exec hr he
    obtain ⟨rfl, hs⟩ := settled_of_entered hen
    obtain ⟨hp, hrest⟩ := ih hr hok
    refine ⟨hp, fun other hm => ?_⟩
    rcases List.mem_cons.mp hm with rfl | hm
    · exact hs.mono hp.marks
    · exact hrest other hm
  | refused he => exact absurd hok nofun
  | imported he _ _ ihi ihr =>
    obtain ⟨hen, hr₁⟩ := entered_of_exec hr he
    -- Marks are never taken back, so what the import has settled stays so.
    obtain ⟨hinner, hsettled⟩ := ihi hr₁ rfl
    obtain ⟨hp, hs⟩ := progress_of_arrived hen hinner hsettled
    obtain ⟨hp', hrest⟩ := ihr hp.remembers hok
    refine ⟨hp.trans hp', fun other hm => ?_⟩
    rcases List.mem_cons.mp hm with rfl | hm
    · exact hs.mono hp'.marks
    · exact hrest other hm
  | failed he _ _ => exact absurd hok nofun

end FunctionForge.Reference.Bundle
