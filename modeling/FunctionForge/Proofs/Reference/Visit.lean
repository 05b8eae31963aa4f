import FunctionForge.Proofs.Document.Traverse
import FunctionForge.Reference.Bundle

/-!
# Visiting references

Bundling replaces every reference by a text that depends on the reference and its place alone
(`rewritten`); all else that it does is what `visit` does to the state, reference by reference
(`visits_importRef`).  A visit first looks at where its reference leads (`enter`); if there is
something new to import, it visits the references of that and then adds it.
-/

namespace FunctionForge.Reference

open Document (ApiDocument LoadError SchemaOrRef Visits)
open Files (Path)
open Markup (Tree)

/-! ### States -/

namespace Bundling

/-- A state in which other values of files are remembered. -/
def withDocuments (st : Bundling) (documents : List (String × Value)) : Bundling :=
  { st with resolver := { st.resolver with documents } }

/-- A state in which a file and a pointer are marked as imported from. -/
def marked (st : Bundling) (key : String × String) : Bundling :=
  { st with resolver := { st.resolver with imported := key :: st.resolver.imported } }

/-- A state to which an imported schema has been added. -/
def withImport (st : Bundling) (name : String) (schema : SchemaOrRef) : Bundling :=
  if st.imports.has name then { st with notices := st.notices ++ [.repeatedImport name] }
  else { st with imports := st.imports.insert name schema }

end Bundling

namespace Bundle

/-! ### Executing steps -/

section Exec

variable {α β : Type}

/-- What a step comes to from a state. -/
def exec (x : Bundle α) (st : Bundling) : Option (Except ResolveError α × Bundling) :=
  x.run.run st

/-- Steps are executed one after the other, until one of them fails. -/
theorem exec_bind (x : Bundle α) (k : α → Bundle β) (st : Bundling) :
    exec (x >>= k) st = (exec x st).bind fun outcome =>
      match outcome with
      | (.ok a, st') => exec (k a) st'
      | (.error cause, st') => some (.error cause, st') := by
  change (x.run.run st).bind _ = (x.run.run st).bind _
  congr 1
  funext outcome
  obtain ⟨result, st'⟩ := outcome
  cases result with
  | ok a => rfl
  | error cause => rfl

theorem exec_bind_of_ok {x : Bundle α} {k : α → Bundle β} {st st' : Bundling} {a : α}
    (h : exec x st = some (.ok a, st')) : exec (x >>= k) st = exec (k a) st' := by
  rw [exec_bind, h, Option.bind_some]

theorem exec_bind_of_error {x : Bundle α} {k : α → Bundle β} {st st' : Bundling}
    {cause : ResolveError} (h : exec x st = some (.error cause, st')) :
    exec (x >>= k) st = some (.error cause, st') := by
  rw [exec_bind, h, Option.bind_some]

theorem exec_getThe_bind (k : Bundling → Bundle α) (st : Bundling) :
    exec (getThe Bundling >>= k) st = exec (k st) st := rfl

end Exec

/-! ### The text that takes the place of a reference -/

/-- What takes the place of a reference. -/
def rewritten (origin : Origin) (path : String) : String :=
  match file? origin path with
  | .ok (some file) =>
    match importName path file with
    | .ok name => localRef name
    | .error _ => path
  | _ => path

/-- A reference to another file becomes one to the component of the imported name. -/
theorem rewritten_of_file {origin : Origin} {path name : String} {file : Path}
    (hf : file? origin path = .ok (some file)) (hn : importName path file = .ok name) :
    rewritten origin path = localRef name := by
  simp [rewritten, hf, hn]

/-- A reference within its own document is kept. -/
theorem rewritten_of_inside {origin : Origin} {path : String}
    (hf : file? origin path = .ok none) : rewritten origin path = path := by
  simp [rewritten, hf]

/-! ### One visit -/

/-- Something new that a reference leads to. -/
structure Arrival where
  /-- The file that it is found in. -/
  file : Path
  /-- The name that it is imported under. -/
  name : String
  schema : SchemaOrRef

/-- An arrival's schema with its references bundled. -/
def Arrival.bundled (arrival : Arrival) : SchemaOrRef :=
  arrival.schema.mapReferences (rewritten (originIn arrival.file))

/-- Looks at where a reference leads; gives what is new there. -/
def enter (load : Path → Except LoadError Value) (origin : Origin) (path : String) :
    Bundle (Option Arrival) := do
  match ← importRef.liftExcept (file? origin path) with
  | none => return none
  | some file =>
    let name ← importRef.liftExcept (importName path file)
    if ← markImported file (parts path).2 then return none
    return some ⟨file, name, ← targetSchema load path file⟩

/-- What a reference does to the state, with imports nested no deeper than a bound. -/
def visit (load : Path → Except LoadError Value) : Nat → Origin → String → Bundle Unit
  | 0, _, _ => tooDeep
  | fuel + 1, origin, path => do
    match ← enter load origin path with
    | none => return ()
    | some arrival =>
      forM arrival.schema.references (visit load fuel (originIn arrival.file))
      addImport arrival.name arrival.bundled

variable {load : Path → Except LoadError Value}

theorem liftExcept_ok_bind {α β : Type} (a : α) (k : α → Bundle β) :
    importRef.liftExcept (.ok a) >>= k = k a := rfl

theorem liftExcept_error_bind {α β : Type} (cause : ResolveError) (k : α → Bundle β) :
    importRef.liftExcept (.error cause) >>= k = importRef.liftExcept (.error cause) := rfl

theorem map_liftExcept_error {α β : Type} (f : α → β) (cause : ResolveError) :
    f <$> (importRef.liftExcept (.error cause) : Bundle α) = importRef.liftExcept (.error cause) :=
  rfl

/-- Replacing a reference is visiting it and then giving a text that does not depend on the
state. -/
theorem importRef_eq (fuel : Nat) (origin : Origin) (path : String) :
    importRef load fuel origin path =
      (fun _ => rewritten origin path) <$> visit load fuel origin path := by
  induction fuel generalizing origin path with
  | zero => rfl
  | succ fuel ih =>
    rw [importRef, visit, enter]
    cases hf : file? origin path with
    | error cause =>
      rw [liftExcept_error_bind, liftExcept_error_bind, liftExcept_error_bind, map_liftExcept_error]
    | ok found =>
      rw [liftExcept_ok_bind, liftExcept_ok_bind]
      cases found with
      | none => rw [pure_bind, map_pure, rewritten_of_inside hf]
      | some file =>
        cases hn : importName path file with
        | error cause =>
          simp only [hn, liftExcept_error_bind, map_liftExcept_error]
        | ok name =>
          simp only [hn, liftExcept_ok_bind, rewritten_of_file hf hn, bind_assoc, map_bind]
          refine bind_congr fun known => ?_
          cases known with
          | true => rfl
          | false =>
            simp only [Bool.false_eq_true, if_false, bind_assoc, pure_bind, map_bind]
            refine bind_congr fun schema => ?_
            -- Within what is imported, the references are visited and replaced by the induction
            -- hypothesis.
            have hv := schema.visits fun path => Visits.of_eq_map (ih (originIn file) path)
            rw [hv, bind_map_left]
            rfl

/-- Importing a reference is to visit it, and then to put the rewritten text in its place. -/
theorem visits_importRef (fuel : Nat) (origin : Origin) (path : String) :
    Visits (visit load fuel origin) (importRef load fuel origin path) [path]
      (rewritten origin path) :=
  Visits.of_eq_map (importRef_eq fuel origin path)

/-! ### What a reference leads to -/

/-- What is marked as imported when a reference leads to a file. -/
def key (file : Path) (path : String) : String × String :=
  (file.plainText, (parts path).2)

/-- The value that a pointer leads to; the whole value for the empty one. -/
def pointed? (value : Value) (pointer : String) : Option Value :=
  if pointer.isEmpty then some value else follow? value pointer

/-- The schema that a pointer leads to. -/
def schemaAt? (value : Value) (pointer : String) : Option SchemaOrRef :=
  (pointed? value pointer).bind fun target => SchemaOrRef.ofTree? (Tree.ofValue target)

/-- A file holds a value under some spelling of its path. -/
def Holds (load : Path → Except LoadError Value) (text : String) (value : Value) : Prop :=
  ∃ file : Path, file.plainText = text ∧ load file = .ok value

/-- The values that a state remembers are those of the files. -/
def Remembers (load : Path → Except LoadError Value) (st : Bundling) : Prop :=
  ∀ text value, st.resolver.documents.lookup text = some value → Holds load text value

/-- The value of a file is among what is remembered, or it is loaded and then remembered. -/
inductive Found (load : Path → Except LoadError Value) (documents : List (String × Value))
    (file : Path) (value : Value) : List (String × Value) → Prop
  | remembered (h : documents.lookup file.plainText = some value) :
      Found load documents file value documents
  | loaded (hd : documents.lookup file.plainText = none) (hv : load file = .ok value) :
      Found load documents file value ((file.plainText, value) :: documents)

/-- What looking at a reference can come to. -/
inductive Entered (load : Path → Except LoadError Value) (origin : Origin) (path : String)
    (st : Bundling) : Except ResolveError (Option Arrival) → Bundling → Prop
  | inside (hf : file? origin path = .ok none) : Entered load origin path st (.ok none) st
  | known {file : Path} {name : String} (hf : file? origin path = .ok (some file))
      (hn : importName path file = .ok name) (hk : key file path ∈ st.resolver.imported) :
      Entered load origin path st (.ok none) st
  | arrived {file : Path} {name : String} {value : Value} {schema : SchemaOrRef}
      {documents : List (String × Value)} (hf : file? origin path = .ok (some file))
      (hn : importName path file = .ok name) (hk : key file path ∉ st.resolver.imported)
      (hv : Holds load file.plainText value) (hs : schemaAt? value (parts path).2 = some schema)
      (hd : Found load st.resolver.documents file value documents) :
      Entered load origin path st (.ok (some ⟨file, name, schema⟩))
        ((st.marked (key file path)).withDocuments documents)
  | refused {cause : ResolveError} (hf : file? origin path = .error cause) :
      Entered load origin path st (.error cause) st
  | unnamed {file : Path} {cause : ResolveError} (hf : file? origin path = .ok (some file))
      (hn : importName path file = .error cause) : Entered load origin path st (.error cause) st
  | unloadable {file : Path} {name : String} {cause : LoadError}
      (hf : file? origin path = .ok (some file)) (hn : importName path file = .ok name)
      (hk : key file path ∉ st.resolver.imported)
      (hd : st.resolver.documents.lookup file.plainText = none) (hv : load file = .error cause) :
      Entered load origin path st (.error (.external cause)) (st.marked (key file path))
  | astray {file : Path} {name : String} {value : Value} {cause : ResolveError}
      {documents : List (String × Value)} (hf : file? origin path = .ok (some file))
      (hn : importName path file = .ok name) (hk : key file path ∉ st.resolver.imported)
      (hv : Holds load file.plainText value) (hs : schemaAt? value (parts path).2 = none)
      (hd : Found load st.resolver.documents file value documents) :
      Entered load origin path st (.error cause)
        ((st.marked (key file path)).withDocuments documents)

theorem exec_addImport (name : String) (schema : SchemaOrRef) (st : Bundling) :
    exec (addImport name schema) st = some (.ok (), st.withImport name schema) := rfl

theorem exec_markImported_of_mem {file : Path} {path : String} {st : Bundling}
    (h : key file path ∈ st.resolver.imported) :
    exec (markImported file (parts path).2) st = some (.ok true, st) := by
  have hc : st.resolver.imported.contains (file.plainText, (parts path).2) = true :=
    List.contains_iff_mem.mpr h
  rw [markImported, exec_getThe_bind]
  simp only [hc, if_true]
  rfl

theorem exec_markImported_of_not_mem {file : Path} {path : String} {st : Bundling}
    (h : key file path ∉ st.resolver.imported) :
    exec (markImported file (parts path).2) st = some (.ok false, st.marked (key file path)) := by
  have hc : ¬st.resolver.imported.contains (file.plainText, (parts path).2) = true :=
    mt List.contains_iff_mem.mp h
  rw [markImported, exec_getThe_bind]
  simp only [if_neg hc]
  rfl

/-- A file is loaded unless it is remembered, and remembered once it is loaded. -/
theorem exec_document (file : Path) (st : Bundling) : exec (document load file) st =
    match st.resolver.documents.lookup file.plainText with
    | some value => some (.ok value, st)
    | none =>
      match load file with
      | .error cause => some (.error (.external cause), st)
      | .ok value =>
        some (.ok value, st.withDocuments ((file.plainText, value) :: st.resolver.documents)) := by
  rw [document, exec_getThe_bind]
  cases st.resolver.documents.lookup file.plainText with
  | some value => rfl
  | none =>
    cases load file with
    | error cause => rfl
    | ok value => rfl

/-- Loading a file gives its value and remembers it, or fails as the loading does. -/
theorem document_cases (file : Path) {st : Bundling} (hr : Remembers load st) :
    (∃ value documents,
      exec (document load file) st = some (.ok value, st.withDocuments documents) ∧
      Found load st.resolver.documents file value documents ∧
      Holds load file.plainText value ∧ Remembers load (st.withDocuments documents)) ∨
    ∃ cause, exec (document load file) st = some (.error (.external cause), st) ∧
      st.resolver.documents.lookup file.plainText = none ∧ load file = .error cause := by
  rw [exec_document]
  cases hd : st.resolver.documents.lookup file.plainText with
  | some value => exact Or.inl ⟨value, st.resolver.documents, rfl, .remembered hd, hr _ _ hd, hr⟩
  | none =>
    cases hv : load file with
    | error cause => exact Or.inr ⟨cause, rfl, rfl, rfl⟩
    | ok value =>
      -- The value is remembered for all spellings of the path.
      refine Or.inl ⟨value, (file.plainText, value) :: st.resolver.documents, rfl, .loaded hd hv,
        ⟨file, rfl, hv⟩, fun text found h => ?_⟩
      change List.lookup text ((file.plainText, value) :: st.resolver.documents) = some found at h
      rw [List.lookup_cons] at h
      by_cases ht : text = file.plainText
      · subst ht
        rw [beq_self_eq_true] at h
        obtain rfl := Option.some.inj h
        exact ⟨file, rfl, hv⟩
      · have hb : (text == file.plainText) = false := by simpa using ht
        rw [hb] at h
        exact hr _ _ h

/-- In a file that has been read, the pointer leads to a schema or the step fails. -/
theorem exec_targetSchema_of_ok {file : Path} (path : String) {st st' : Bundling} {value : Value}
    (h : exec (document load file) st = some (.ok value, st')) :
    (∃ schema, schemaAt? value (parts path).2 = some schema ∧
      exec (targetSchema load path file) st = some (.ok schema, st')) ∨
    ∃ cause, schemaAt? value (parts path).2 = none ∧
      exec (targetSchema load path file) st = some (.error cause, st') := by
  rw [targetSchema, exec_bind_of_ok h, schemaAt?, pointed?]
  by_cases hp : (parts path).2.isEmpty = true
  · rw [if_pos hp, if_pos hp, Option.bind_some, pure_bind]
    cases hs : SchemaOrRef.ofTree? (Tree.ofValue value) with
    | none => exact Or.inr ⟨.notASchema path, rfl, by simp only [hs]; rfl⟩
    | some schema => exact Or.inl ⟨schema, rfl, by simp only [hs]; rfl⟩
  · rw [if_neg hp, if_neg hp]
    cases follow? value (parts path).2 with
    | none => exact Or.inr ⟨.targetNotFound path, rfl, rfl⟩
    | some target =>
      simp only [pure_bind, Option.bind_some]
      cases hs : SchemaOrRef.ofTree? (Tree.ofValue target) with
      | none => exact Or.inr ⟨.notASchema path, rfl, rfl⟩
      | some schema => exact Or.inl ⟨schema, rfl, rfl⟩

/-- Looking at a reference always comes to something, and what is remembered stays right. -/
theorem exists_entered (origin : Origin) (path : String) {st : Bundling}
    (hr : Remembers load st) : ∃ r st', exec (enter load origin path) st = some (r, st') ∧
      Entered load origin path st r st' ∧ Remembers load st' := by
  rw [enter]
  cases hf : file? origin path with
  | error cause => exact ⟨_, _, rfl, .refused hf, hr⟩
  | ok found =>
    rw [liftExcept_ok_bind]
    cases found with
    | none => exact ⟨_, _, rfl, .inside hf, hr⟩
    | some file =>
      cases hn : importName path file with
      | error cause =>
        refine ⟨_, _, ?_, .unnamed hf hn, hr⟩
        simp only [hn]
        rfl
      | ok name =>
        simp only [hn, liftExcept_ok_bind]
        by_cases hk : key file path ∈ st.resolver.imported
        · refine ⟨.ok none, st, ?_, .known hf hn hk, hr⟩
          rw [exec_bind_of_ok (exec_markImported_of_mem hk)]
          rfl
        · have hr' : Remembers load (st.marked (key file path)) := hr
          rw [exec_bind_of_ok (exec_markImported_of_not_mem hk)]
          simp only [Bool.false_eq_true, if_false]
          -- The mark is set before the file is read, and so also if that fails.
          rcases document_cases file hr' with
            ⟨value, documents, hd, hfound, hv, hrd⟩ | ⟨cause, hd, hnone, hv⟩
          · rcases exec_targetSchema_of_ok path hd with ⟨schema, hs, ht⟩ | ⟨cause, hs, ht⟩
            · exact ⟨_, _, by rw [exec_bind_of_ok ht]; rfl, .arrived hf hn hk hv hs hfound, hrd⟩
            · exact ⟨_, _, exec_bind_of_error ht, .astray hf hn hk hv hs hfound, hrd⟩
          · refine ⟨_, _, ?_, .unloadable hf hn hk hnone hv, hr'⟩
            rw [targetSchema, exec_bind_of_error (exec_bind_of_error hd)]

/-- What looking at a reference comes to is one of the ways in which that can end. -/
theorem entered_of_exec {origin : Origin} {path : String} {st st' : Bundling}
    {r : Except ResolveError (Option Arrival)} (hr : Remembers load st)
    (h : exec (enter load origin path) st = some (r, st')) :
    Entered load origin path st r st' ∧ Remembers load st' := by
  obtain ⟨r₁, st₁, h₁, hen, hr₁⟩ := exists_entered origin path hr
  rw [h, Option.some.injEq, Prod.mk.injEq] at h₁
  obtain ⟨rfl, rfl⟩ := h₁
  exact ⟨hen, hr₁⟩

end Bundle

end FunctionForge.Reference
