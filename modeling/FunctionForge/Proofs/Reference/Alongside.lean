import FunctionForge.Proofs.Reference.Cycles
import FunctionForge.Proofs.Reference.Remembered

/-!
# Two runs side by side

A run of visits on a resolver that has been used for another document comes to all that a run on a
fresh one comes to, except for what is remembered (`Visited.alongside`).  For what an earlier run
without an error has imported refers to nothing that it has not imported as well (`Complete`), so
that nothing new is missed behind it (`Alongside.within`); and a file that the earlier run has read
need not be read again, under whatever path.

The schemas that are added on the way are the same, in the same order, but for the names of what
both documents lead to: these are left out.
-/

namespace FunctionForge.Reference.Bundle

open Document (LoadError SchemaOrRef loadValue)
open Files (FileTree Path)

variable {files : FileTree} {load : Path → Except LoadError Value} {used : Resolver}
  {names : List String} {origin : Origin} {path name : String} {refs : List String}
  {st st₁ st' again : Bundling}

/-! ### Imports but for some names -/

/-- The imports that have none of some names. -/
def besides (names : List String) (imports : Fields SchemaOrRef) : Fields SchemaOrRef :=
  imports.filter fun entry => entry.1 ∉ names

theorem mem_keys_besides (hn : name ∉ names) (imports : Fields SchemaOrRef) :
    name ∈ (besides names imports).keys ↔ name ∈ imports.keys := by
  simp only [Fields.keys, besides, List.mem_map, List.mem_filter, decide_eq_true_eq]
  constructor
  · rintro ⟨entry, ⟨he, -⟩, rfl⟩
    exact ⟨entry, he, rfl⟩
  · rintro ⟨entry, he, rfl⟩
    exact ⟨entry, ⟨he, hn⟩, rfl⟩

theorem besides_withImport (names : List String) (st : Bundling) (name : String)
    (schema : SchemaOrRef) : besides names (st.withImport name schema).imports =
      if name ∈ names ∨ name ∈ (besides names st.imports).keys then besides names st.imports
      else besides names st.imports ++ [(name, schema)] := by
  by_cases hn : name ∈ names
  · rw [if_pos (Or.inl hn), Bundling.withImport]
    split_ifs with hhas
    · rfl
    · rw [Bool.not_eq_true, Fields.has_eq_false_iff] at hhas
      change besides names (st.imports.insert name schema) = _
      rw [Fields.insert_of_not_mem schema hhas, besides, List.filter_append,
        List.filter_cons_of_neg (by simpa using hn), List.filter_nil, List.append_nil, besides]
  · have hkeys := mem_keys_besides hn st.imports
    by_cases hm : name ∈ st.imports.keys
    · rw [if_pos (Or.inr (hkeys.mpr hm)), Bundling.withImport,
        if_pos (Fields.has_iff_mem_keys.mpr hm)]
    · rw [if_neg (not_or.mpr ⟨hn, mt hkeys.mp hm⟩), Bundling.withImport,
        if_neg (mt Fields.has_iff_mem_keys.mp hm)]
      change besides names (st.imports.insert name schema) = _
      rw [Fields.insert_of_not_mem schema hm, besides, List.filter_append,
        List.filter_cons_of_pos (by simpa using hn), List.filter_nil, besides]

/-! ### What an earlier document leaves behind -/

/-- A file holds one value, however its path is spelled. -/
theorem Holds.unique {text : String} {value found : Value}
    (h : Holds (loadValue files) text value) (h' : Holds (loadValue files) text found) :
    found = value := by
  obtain ⟨file, rfl, hv⟩ := h
  exact eq_of_holds (Document.loadValue_eq_ok_iff.mp hv).2 h'

/-- The files of all that is marked have been read. -/
def AllRead (st : Bundling) : Prop :=
  ∀ mark ∈ st.resolver.imported, (st.resolver.documents.lookup mark.1).isSome = true

theorem allRead_of_arrived {arrival : Arrival}
    (he : Entered load origin path st (.ok (some arrival)) st₁) (h : AllRead st) : AllRead st₁ := by
  cases he with
  | arrived _ _ _ _ _ hd =>
    refine List.forall_mem_cons.mpr ⟨?_, fun mark hm => ?_⟩
    · exact (hd.isSome_lookup_iff _).mpr (Or.inr rfl)
    · exact (hd.isSome_lookup_iff _).mpr (Or.inl (h mark hm))

/-- A run without an error has read the files of all that it has marked. -/
theorem Visited.allRead (h : Visited load origin refs st (.ok ()) st') (hr : Remembers load st)
    (ha : AllRead st) : AllRead st' := by
  generalize hok : (Except.ok () : Except ResolveError Unit) = r at h
  induction h with
  | nil => exact ha
  | settled he _ ih =>
    obtain ⟨hen, hr₁⟩ := entered_of_exec hr he
    obtain ⟨rfl, -⟩ := settled_of_entered hen
    exact ih hr ha hok
  | refused _ => exact absurd hok nofun
  | @imported _ _ _ _ _ st₂ _ arrival _ he hi _ ihi ihr =>
    obtain ⟨hen, hr₁⟩ := entered_of_exec hr he
    have hinner := ihi hr₁ (allRead_of_arrived hen ha) rfl
    refine ihr (remembers_withImport.mpr (hi.grown hr₁).remembers) ?_ hok
    rw [AllRead, withImport_resolver]
    exact hinner
  | failed _ _ _ => exact absurd hok nofun

/-- What a resolver remembers after a run without an error: it has imported all that it has marked,
with all that this refers to, and has read the files. -/
structure Complete (load : Path → Except LoadError Value) (used : Resolver) : Prop where
  remembers : Remembers load ⟨used, [], []⟩
  imported : ∀ mark ∈ used.imported, ∃ arrival, Imported load ⟨used, [], []⟩ mark arrival
  read : AllRead ⟨used, [], []⟩

/-! ### Two runs side by side -/

/-- A state on a resolver that is used again is alongside one on a fresh resolver, and the imports
are the same but for some names. -/
structure Alongside (load : Path → Except LoadError Value) (used : Resolver) (names : List String)
    (st again : Bundling) : Prop where
  remembers : Remembers load st
  remembers_again : Remembers load again
  marks : ∀ mark, mark ∈ again.resolver.imported ↔
    mark ∈ st.resolver.imported ∨ mark ∈ used.imported
  read : ∀ text, (st.resolver.documents.lookup text).isSome = true →
    (again.resolver.documents.lookup text).isSome = true
  read_used : ∀ mark ∈ used.imported, (again.resolver.documents.lookup mark.1).isSome = true
  imports : besides names again.imports = besides names st.imports

namespace Alongside

variable {file : Path} {value : Value} {documents documents' : List (String × Value)}

theorem start (h : Complete load used) (names : List String) :
    Alongside load used names ⟨Resolver.fresh used.folder, [], []⟩ ⟨used, [], []⟩ where
  remembers := nofun
  remembers_again := h.remembers
  marks _ := (or_iff_right List.not_mem_nil).symm
  read := nofun
  read_used := h.read
  imports := rfl

/-- A file is read that has been read for an earlier document. -/
theorem readUsed (h : Alongside load used names st again) (hk : key file path ∈ used.imported)
    (hd : Found load st.resolver.documents file value documents)
    (hr : Remembers load ((st.marked (key file path)).withDocuments documents)) :
    Alongside load used names ((st.marked (key file path)).withDocuments documents) again where
  remembers := hr
  remembers_again := h.remembers_again
  marks mark := by
    rw [h.marks]
    change _ ↔ mark ∈ key file path :: st.resolver.imported ∨ _
    rw [List.mem_cons, or_assoc]
    exact ⟨Or.inr, fun hm => hm.elim (fun heq => Or.inr (heq ▸ hk)) id⟩
  read text ht := by
    rcases (hd.isSome_lookup_iff text).mp ht with ht | rfl
    · exact h.read text ht
    · exact h.read_used _ hk
  read_used := h.read_used
  imports := h.imports

/-- A file is read in both runs. -/
theorem readBoth (h : Alongside load used names st again)
    (hd : Found load st.resolver.documents file value documents)
    (hd' : Found load again.resolver.documents file value documents')
    (hr : Remembers load ((st.marked (key file path)).withDocuments documents))
    (hr' : Remembers load ((again.marked (key file path)).withDocuments documents')) :
    Alongside load used names ((st.marked (key file path)).withDocuments documents)
      ((again.marked (key file path)).withDocuments documents') where
  remembers := hr
  remembers_again := hr'
  marks mark := by
    change mark ∈ key file path :: again.resolver.imported ↔
      mark ∈ key file path :: st.resolver.imported ∨ _
    rw [List.mem_cons, List.mem_cons, h.marks, or_assoc]
  read text ht :=
    (hd'.isSome_lookup_iff text).mpr (((hd.isSome_lookup_iff text).mp ht).imp_left (h.read text))
  read_used mark hm := (hd'.isSome_lookup_iff _).mpr (Or.inl (h.read_used mark hm))
  imports := h.imports

/-- A schema is added that the run on the used resolver leaves out. -/
theorem withImport_of_mem (h : Alongside load used names st again) (hn : name ∈ names)
    (schema : SchemaOrRef) : Alongside load used names (st.withImport name schema) again where
  remembers := remembers_withImport.mpr h.remembers
  remembers_again := h.remembers_again
  marks := by
    rw [withImport_resolver]
    exact h.marks
  read := by
    rw [withImport_resolver]
    exact h.read
  read_used := h.read_used
  imports := by rw [besides_withImport, if_pos (Or.inl hn), h.imports]

/-- A schema is added in both runs. -/
theorem withImport (h : Alongside load used names st again) (name : String)
    (schema : SchemaOrRef) : Alongside load used names (st.withImport name schema)
      (again.withImport name schema) where
  remembers := remembers_withImport.mpr h.remembers
  remembers_again := remembers_withImport.mpr h.remembers_again
  marks := by
    rw [withImport_resolver, withImport_resolver]
    exact h.marks
  read := by
    rw [withImport_resolver, withImport_resolver]
    exact h.read
  read_used := by
    rw [withImport_resolver]
    exact h.read_used
  imports := by rw [besides_withImport, besides_withImport, h.imports]

end Alongside

theorem exec_enter_of_settled (h : Settled origin path st) :
    exec (enter load origin path) st = some (.ok none, st) := by
  rw [enter]
  rcases h with hf | ⟨file, name, hf, hn, hk⟩
  · rw [hf, liftExcept_ok_bind]
    rfl
  · rw [hf, liftExcept_ok_bind]
    simp only [hn, liftExcept_ok_bind]
    rw [exec_bind_of_ok (exec_markImported_of_mem hk)]
    rfl

/-- The names of all that is marked in a state and that a resolver has marked before. -/
def SharedNames (used : Resolver) (st : Bundling) (names : List String) : Prop :=
  ∀ mark ∈ st.resolver.imported, mark ∈ used.imported → ∀ name, importedName? mark = some name →
    name ∈ names

theorem SharedNames.mono (h : SharedNames used st' names)
    (hm : ∀ mark ∈ st.resolver.imported, mark ∈ st'.resolver.imported) :
    SharedNames used st names :=
  fun mark hmark => h mark (hm mark hmark)

/-- What has been imported for an earlier document refers to nothing else than that has been. -/
theorem Complete.settled (h : Complete (loadValue files) used) {file : Path} {value : Value}
    {schema : SchemaOrRef} (hk : key file path ∈ used.imported)
    (hv : Holds (loadValue files) file.plainText value)
    (hs : schemaAt? value (parts path).2 = some schema) :
    ∀ r ∈ schema.references, Settled (originIn file) r ⟨used, [], []⟩ := by
  obtain ⟨arrival, ha⟩ := h.imported _ hk
  obtain ⟨value', hv', hs'⟩ := ha.schema
  obtain rfl := Holds.unique hv' hv
  obtain rfl := Option.some.inj (hs'.symm.trans hs)
  exact fun r hr => (ha.settled r hr).congr (Path.plainText_eq_iff.mp ha.file)

/-- Behind what has been imported for an earlier document there is nothing new, so a run on the used
resolver stays where it is. -/
theorem Alongside.within (hused : Complete (loadValue files) used)
    (h : Visited (loadValue files) origin refs st (.ok ()) st')
    (hs : ∀ path ∈ refs, Settled origin path ⟨used, [], []⟩) (hn : SharedNames used st' names)
    (ha : Alongside (loadValue files) used names st again) :
    Alongside (loadValue files) used names st' again := by
  generalize hok : (Except.ok () : Except ResolveError Unit) = r at h
  induction h with
  | nil => exact ha
  | settled he _ ih =>
    obtain ⟨hen, -⟩ := entered_of_exec ha.remembers he
    obtain ⟨rfl, -⟩ := settled_of_entered hen
    exact ih (fun other ho => hs other (List.mem_cons_of_mem _ ho)) hn ha hok
  | refused _ => exact absurd hok nofun
  | @imported origin path rest st st₁ st₂ st₃ arrival r he hi hrest ihi ihr =>
    obtain ⟨hen, hr₁⟩ := entered_of_exec ha.remembers he
    have hinner := hi.grown hr₁
    have hn₂ : SharedNames used st₂ names :=
      hn.mono (hrest.marks_of_withImport hinner.remembers)
    cases hen with
    | @arrived file name value schema documents hf hname hk hv hschema hd =>
      -- The reference is settled by what was imported before, so its file is one of those that are
      -- shared.
      rcases hs path List.mem_cons_self with hnone | ⟨file', name', hf', -, hk'⟩
      · exact absurd (hnone.symm.trans hf) nofun
      obtain rfl := eq_of_file? hf' hf
      have ha₂ := ihi (hused.settled hk' hv hschema) hn₂ (ha.readUsed hk' hd hr₁) rfl
      have hin : name ∈ names := hn₂ _ (hinner.marks _ List.mem_cons_self) hk' name
        (importName_eq_ok_iff.mp hname)
      exact ihr (fun other ho => hs other (List.mem_cons_of_mem _ ho)) hn
        (ha₂.withImport_of_mem hin _) hok
  | failed _ _ _ => exact absurd hok nofun

/-- Where a run on a fresh resolver arrives, one on a used resolver arrives as well, unless it was
there before. -/
theorem Alongside.arrives {file : Path} {schema : SchemaOrRef} {value : Value}
    {documents : List (String × Value)} (ha : Alongside (loadValue files) used names st again)
    (hf : file? origin path = .ok (some file)) (hn : importName path file = .ok name)
    (hk : key file path ∉ st.resolver.imported) (hused : key file path ∉ used.imported)
    (hv : Holds (loadValue files) file.plainText value)
    (hs : schemaAt? value (parts path).2 = some schema)
    (hd : Found (loadValue files) st.resolver.documents file value documents)
    (hr : Remembers (loadValue files) ((st.marked (key file path)).withDocuments documents)) :
    ∃ again₁, exec (enter (loadValue files) origin path) again =
        some (.ok (some ⟨file, name, schema⟩), again₁) ∧
      Alongside (loadValue files) used names
        ((st.marked (key file path)).withDocuments documents) again₁ := by
  obtain ⟨found, again₁, he, hen, hr₁⟩ := exists_entered origin path ha.remembers_again
  refine ⟨again₁, ?_⟩
  cases hen with
  | inside h => exact absurd (h.symm.trans hf) nofun
  | refused h => exact absurd (h.symm.trans hf) nofun
  | known h _ hmem =>
    obtain rfl := eq_of_file? hf h
    exact absurd ((ha.marks _).mp hmem) (not_or.mpr ⟨hk, hused⟩)
  | unnamed h hno =>
    obtain rfl := eq_of_file? hf h
    exact absurd (hno.symm.trans hn) nofun
  | unloadable h _ _ hnone herror =>
    obtain rfl := eq_of_file? hf h
    -- The fresh resolver has read the file before, or reads it under the same path.
    cases hd with
    | remembered hlookup =>
      have hread := ha.read _ (Option.isSome_iff_exists.mpr ⟨_, hlookup⟩)
      rw [hnone] at hread
      exact absurd hread nofun
    | loaded _ hload => exact absurd (herror.symm.trans hload) nofun
  | astray h _ _ hv' hnone _ =>
    obtain rfl := eq_of_file? hf h
    obtain rfl := Holds.unique hv hv'
    exact absurd (hnone.symm.trans hs) nofun
  | arrived h hn' _ hv' hs' hd' =>
    obtain rfl := eq_of_file? hf h
    obtain rfl := Except.ok.inj (hn'.symm.trans hn)
    obtain rfl := Holds.unique hv hv'
    obtain rfl := Option.some.inj (hs'.symm.trans hs)
    exact ⟨he, ha.readBoth hd hd' hr hr₁⟩

/-- A run without an error on a fresh resolver has one alongside it on a used resolver. -/
theorem Visited.alongside (hused : Complete (loadValue files) used)
    (h : Visited (loadValue files) origin refs st (.ok ()) st') (hn : SharedNames used st' names)
    (ha : Alongside (loadValue files) used names st again) :
    ∃ again', Visited (loadValue files) origin refs again (.ok ()) again' ∧
      Alongside (loadValue files) used names st' again' := by
  generalize hok : (Except.ok () : Except ResolveError Unit) = r at h
  induction h generalizing again with
  | nil => exact ⟨again, hok ▸ .nil, ha⟩
  | settled he _ ih =>
    obtain ⟨hen, -⟩ := entered_of_exec ha.remembers he
    obtain ⟨rfl, hs⟩ := settled_of_entered hen
    obtain ⟨again', hrest, ha'⟩ := ih hn ha hok
    have hsettled := hs.mono fun mark hm => (ha.marks mark).mpr (Or.inl hm)
    exact ⟨again', .settled (exec_enter_of_settled hsettled) hrest, ha'⟩
  | refused _ => exact absurd hok nofun
  | @imported origin path rest st st₁ st₂ st₃ arrival r he hi hrest ihi ihr =>
    obtain ⟨hen, hr₁⟩ := entered_of_exec ha.remembers he
    have hinner := hi.grown hr₁
    have hn₂ : SharedNames used st₂ names :=
      hn.mono (hrest.marks_of_withImport hinner.remembers)
    cases hen with
    | @arrived file name value schema documents hf hname hk hv hschema hd =>
      by_cases hknown : key file path ∈ used.imported
      · -- The used resolver has been here and goes on; the fresh one comes to nothing new there.
        have ha₂ := Alongside.within hused hi (hused.settled hknown hv hschema) hn₂
          (ha.readUsed hknown hd hr₁)
        have hin : name ∈ names := hn₂ _ (hinner.marks _ List.mem_cons_self) hknown name
          (importName_eq_ok_iff.mp hname)
        obtain ⟨again', hrest', ha'⟩ := ihr hn (ha₂.withImport_of_mem hin _) hok
        have hsettled : Settled origin path again :=
          Or.inr ⟨file, name, hf, hname, (ha.marks _).mpr (Or.inr hknown)⟩
        exact ⟨again', .settled (exec_enter_of_settled hsettled) hrest', ha'⟩
      · obtain ⟨again₁, he', ha₁⟩ := ha.arrives hf hname hk hknown hv hschema hd hr₁
        obtain ⟨again₂, hi', ha₂⟩ := ihi hn₂ ha₁ rfl
        obtain ⟨again', hrest', ha'⟩ := ihr hn (ha₂.withImport name _) hok
        exact ⟨again', .imported he' hi' hrest', ha'⟩
  | failed _ _ _ => exact absurd hok nofun

end FunctionForge.Reference.Bundle
