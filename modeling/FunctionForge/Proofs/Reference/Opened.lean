import FunctionForge.Proofs.Reference.Run

/-!
# The files that bundling opens

A file is opened when a reference leads to it that has not been imported and nothing is remembered
under its path (`Reads`).  A run of visits depends on the file system at the files that it opens,
and nowhere else: where two file systems agree on those that a run on one of them would open, runs
on the other have the same outcomes (`Visited.of_agree`) and open no more files
(`Opens.of_agree`).  A run without an error has found a value in all of them
(`Opens.exists_value`).

Which spelling of a path a file is opened under depends on the order of the references: it is the
first that is come to.
-/

namespace FunctionForge.Reference

open Document (ApiDocument LoadError)
open Files (Path)

namespace Bundle

variable {load load' : Path → Except LoadError Value} {origin : Origin} {path : String}
  {refs : List String} {st st' : Bundling} {file : Path}

/-! ### One visit -/

/-- Looking at a reference opens a file. -/
structure Reads (origin : Origin) (path : String) (st : Bundling) (file : Path) : Prop where
  leads : file? origin path = .ok (some file)
  named : ∃ name, importName path file = .ok name
  unmarked : key file path ∉ st.resolver.imported
  unread : st.resolver.documents.lookup file.plainText = none

theorem exec_document_congr
    (h : st.resolver.documents.lookup file.plainText = none → load file = load' file) :
    exec (document load file) st = exec (document load' file) st := by
  rw [exec_document, exec_document]
  cases hd : st.resolver.documents.lookup file.plainText with
  | some value => rfl
  | none => rw [h hd]

theorem exec_bind_congr {α β : Type} {x y : Bundle α} {k : α → Bundle β}
    (h : exec x st = exec y st) : exec (x >>= k) st = exec (y >>= k) st := by
  rw [exec_bind, h, exec_bind]

theorem exec_targetSchema_congr (path : String)
    (h : exec (document load file) st = exec (document load' file) st) :
    exec (targetSchema load path file) st = exec (targetSchema load' path file) st :=
  exec_bind_congr h

/-- Looking at a reference depends on the file system at the file that it opens. -/
theorem exec_enter_congr (h : ∀ file, Reads origin path st file → load file = load' file) :
    exec (enter load origin path) st = exec (enter load' origin path) st := by
  rw [enter, enter]
  cases hf : file? origin path with
  | error cause => rw [liftExcept_error_bind, liftExcept_error_bind]
  | ok found =>
    rw [liftExcept_ok_bind, liftExcept_ok_bind]
    cases found with
    | none => rfl
    | some file =>
      cases hn : importName path file with
      | error cause => simp only [hn, liftExcept_error_bind]
      | ok name =>
        simp only [hn, liftExcept_ok_bind]
        -- Only what is new is read, and there the two ways of loading agree.
        by_cases hk : key file path ∈ st.resolver.imported
        · rw [exec_bind_of_ok (exec_markImported_of_mem hk),
            exec_bind_of_ok (exec_markImported_of_mem hk)]
          rfl
        · rw [exec_bind_of_ok (exec_markImported_of_not_mem hk),
            exec_bind_of_ok (exec_markImported_of_not_mem hk)]
          simp only [Bool.false_eq_true, if_false]
          have hdocument : exec (document load file) (st.marked (key file path)) =
              exec (document load' file) (st.marked (key file path)) :=
            exec_document_congr fun hd => h file ⟨hf, ⟨name, hn⟩, hk, hd⟩
          exact exec_bind_congr (exec_targetSchema_congr path hdocument)

/-- A file that cannot be loaded is an error where it is opened. -/
theorem exec_enter_of_unloadable {cause : LoadError} (h : Reads origin path st file)
    (hv : load file = .error cause) : exec (enter load origin path) st =
      some (.error (.external cause), st.marked (key file path)) := by
  obtain ⟨hf, ⟨name, hn⟩, hk, hd⟩ := h
  have hdocument : exec (document load file) (st.marked (key file path)) =
      some (.error (.external cause), st.marked (key file path)) := by
    have hd' : (st.marked (key file path)).resolver.documents.lookup file.plainText = none := hd
    rw [exec_document, hd', hv]
  rw [enter, hf, liftExcept_ok_bind]
  simp only [hn, liftExcept_ok_bind]
  rw [exec_bind_of_ok (exec_markImported_of_not_mem hk)]
  simp only [Bool.false_eq_true, if_false]
  rw [targetSchema, exec_bind_of_error (exec_bind_of_error hdocument)]

/-! ### Runs -/

/-- A run of visits opens a file. -/
inductive Opens (load : Path → Except LoadError Value) :
    Origin → List String → Bundling → Path → Prop
  | here {origin : Origin} {path : String} {rest : List String} {st : Bundling} {file : Path}
      (h : Reads origin path st file) : Opens load origin (path :: rest) st file
  /-- It does so for the sake of what the first reference leads to. -/
  | into {origin : Origin} {path : String} {rest : List String} {st st₁ : Bundling}
      {arrival : Arrival} {file : Path}
      (he : exec (enter load origin path) st = some (.ok (some arrival), st₁))
      (h : Opens load (originIn arrival.file) arrival.schema.references st₁ file) :
      Opens load origin (path :: rest) st file
  /-- There is nothing new where the first reference leads. -/
  | past {origin : Origin} {path : String} {rest : List String} {st st₁ : Bundling} {file : Path}
      (he : exec (enter load origin path) st = some (.ok none, st₁))
      (h : Opens load origin rest st₁ file) : Opens load origin (path :: rest) st file
  /-- What the first reference leads to has been imported with all that it refers to. -/
  | after {origin : Origin} {path : String} {rest : List String} {st st₁ st₂ : Bundling}
      {arrival : Arrival} {file : Path}
      (he : exec (enter load origin path) st = some (.ok (some arrival), st₁))
      (hi : Visited load (originIn arrival.file) arrival.schema.references st₁ (.ok ()) st₂)
      (h : Opens load origin rest (st₂.withImport arrival.name arrival.bundled) file) :
      Opens load origin (path :: rest) st file

/-- Two file systems agree on all files that a run of visits on the first opens. -/
def Agree (load load' : Path → Except LoadError Value) (origin : Origin) (refs : List String)
    (st : Bundling) : Prop :=
  ∀ file, Opens load origin refs st file → load file = load' file

theorem Agree.exec_enter {rest : List String} (h : Agree load load' origin (path :: rest) st) :
    exec (enter load origin path) st = exec (enter load' origin path) st :=
  exec_enter_congr fun file hr => h file (.here hr)

/-- An outcome of a run stays one where the file systems agree on what a run would open. -/
theorem Visited.of_agree {r : Except ResolveError Unit} (h : Visited load' origin refs st r st')
    (ha : Agree load load' origin refs st) : Visited load origin refs st r st' := by
  induction h with
  | nil => exact .nil
  | settled he _ ih =>
    rw [← ha.exec_enter] at he
    exact .settled he (ih fun file ho => ha file (.past he ho))
  | refused he =>
    rw [← ha.exec_enter] at he
    exact .refused he
  | imported he _ _ ihi ihr =>
    rw [← ha.exec_enter] at he
    have hi := ihi fun file ho => ha file (.into he ho)
    exact .imported he hi (ihr fun file ho => ha file (.after he hi ho))
  | failed he _ ih =>
    rw [← ha.exec_enter] at he
    exact .failed he (ih fun file ho => ha file (.into he ho))

/-- No more files are opened where the file systems agree on what a run would open. -/
theorem Opens.of_agree (h : Opens load' origin refs st file)
    (ha : Agree load load' origin refs st) : Opens load origin refs st file := by
  induction h with
  | here hr => exact .here hr
  | into he _ ih =>
    rw [← ha.exec_enter] at he
    exact .into he (ih fun file ho => ha file (.into he ho))
  | past he _ ih =>
    rw [← ha.exec_enter] at he
    exact .past he (ih fun file ho => ha file (.past he ho))
  | after he hi _ ih =>
    rw [← ha.exec_enter] at he
    have hi := hi.of_agree fun file ho => ha file (.into he ho)
    exact .after he hi (ih fun file ho => ha file (.after he hi ho))

/-- A run without an error has found a value in each file that it has opened. -/
theorem Opens.exists_value (h : Opens load origin refs st file)
    (hv : Visited load origin refs st (.ok ()) st') : ∃ value, load file = .ok value := by
  -- The run goes on past whatever is opened, which it only does if that could be loaded.
  induction h generalizing st' with
  | @here origin path rest st file hr =>
    cases hl : load file with
    | ok value => exact ⟨value, rfl⟩
    | error cause =>
      have he := exec_enter_of_unloadable hr hl
      cases hv with
      | settled he' _ => exact absurd (he.symm.trans he') nofun
      | imported he' _ _ => exact absurd (he.symm.trans he') nofun
  | into he _ ih =>
    cases hv with
    | settled he' _ => exact absurd (he.symm.trans he') nofun
    | imported he' hi _ =>
      obtain ⟨⟨⟩, rfl⟩ := Prod.mk.inj (Option.some.inj (he.symm.trans he'))
      exact ih hi
  | past he _ ih =>
    cases hv with
    | settled he' hrest =>
      obtain ⟨-, rfl⟩ := Prod.mk.inj (Option.some.inj (he.symm.trans he'))
      exact ih hrest
    | imported he' _ _ => exact absurd (he.symm.trans he') nofun
  | after he hi _ ih =>
    cases hv with
    | settled he' _ => exact absurd (he.symm.trans he') nofun
    | imported he' hi' hrest =>
      obtain ⟨⟨⟩, rfl⟩ := Prod.mk.inj (Option.some.inj (he.symm.trans he'))
      obtain ⟨-, rfl⟩ := Visited.unique hi hi'
      exact ih hrest

end Bundle

/-- Bundling a document opens a file. -/
def Resolver.Opens (resolver : Resolver) (load : Path → Except LoadError Value)
    (document : ApiDocument) (file : Path) : Prop :=
  Bundle.Opens load (Bundle.documentOrigin resolver.folder) document.references ⟨resolver, [], []⟩
    file

end FunctionForge.Reference
