import FunctionForge.Proofs.Files.Writing
import FunctionForge.Proofs.Run.Totals

/-!
# What a run has written

Files that are written one after the other without an error all stand in the tree afterwards, each
with its content, unless a later one is written in its place (`find?_of_writeFiles`).  So it is with
the files of a service that are all written, which are the files that a run counts: what else the
run does later on leaves them as they are, but for what is written in their place
(`read_of_runAll`).
-/

namespace FunctionForge.Run

open Files (FileTree Path)
open Files.FileTree (Grown)

variable {ε : Type} {tree grown : FileTree} {file : GeneratedFile} {files : List GeneratedFile}
  {names : List String}

/-! ### Writing files -/

theorem grown_createParent (tree : FileTree) (path : Path) :
    Grown tree [] (createParent tree path).1 := by
  rw [createParent]
  split
  · exact .refl _ _
  · exact .of_createFolders _ _

/-- A file is written once the folders on the way to it are there. -/
theorem writeFile_eq_ok (h : writeFile tree file = (grown, none)) :
    ∃ between, Grown tree [] between ∧ between.write file.path file.content = .ok grown := by
  have hparent := grown_createParent tree file.path
  unfold writeFile at h
  split at h
  · exact absurd (Prod.mk.inj h).2 nofun
  · rename_i between hbetween
    rw [hbetween] at hparent
    refine ⟨between, hparent, ?_⟩
    split at h
    · rename_i written hwritten
      rw [hwritten, (Prod.mk.inj h).1]
    · exact absurd (Prod.mk.inj h).2 nofun

/-- Writing a file changes no other one, whether it succeeds or not. -/
theorem grown_writeFile (tree : FileTree) (file : GeneratedFile) :
    Grown tree [file.path] (writeFile tree file).1 := by
  have hparent := (grown_createParent tree file.path).mono (List.nil_subset [file.path])
  unfold writeFile
  -- The folders above the file are created first, and that may fail as well.
  split
  · rename_i between cause hbetween
    rwa [hbetween] at hparent
  · rename_i between hbetween
    rw [hbetween] at hparent
    split
    · rename_i written hwritten
      exact ((grown_createParent tree file.path).trans (hbetween ▸ (Grown.of_write hwritten).1))
    · exact hparent

theorem grown_writeFiles (tree : FileTree) (files : List GeneratedFile) :
    Grown tree (files.map GeneratedFile.path) (writeFiles tree files).1 := by
  induction files generalizing tree with
  | nil => exact .refl _ _
  | cons file rest ih =>
    have hfile := grown_writeFile tree file
    rw [writeFiles]
    split
    · rename_i next hnext
      rw [hnext] at hfile
      exact hfile.trans (ih next)
    · rename_i next cause hnext
      rw [hnext] at hfile
      exact hfile.mono (List.cons_subset_cons _ (List.nil_subset _))

/-- Files that are all written are written one by one. -/
theorem writeFiles_cons_eq_ok (h : writeFiles tree (file :: files) = (grown, none)) :
    ∃ next, writeFile tree file = (next, none) ∧ writeFiles next files = (grown, none) := by
  rw [writeFiles] at h
  split at h
  · rename_i next hnext
    exact ⟨next, hnext, h⟩
  · exact absurd (Prod.mk.inj h).2 nofun

/-- The path of a file that is written can be walked afterwards. -/
theorem exists_locate_of_writeFiles (h : writeFiles tree files = (grown, none))
    (hm : file ∈ files) : ∃ location, grown.locate file.path = .ok location := by
  induction files generalizing tree with
  | nil => exact absurd hm List.not_mem_nil
  | cons first rest ih =>
    obtain ⟨next, hnext, hrest⟩ := writeFiles_cons_eq_ok h
    rcases List.mem_cons.mp hm with rfl | hm
    · obtain ⟨between, -, hwrite⟩ := writeFile_eq_ok hnext
      obtain ⟨location, hl, -⟩ := FileTree.write_eq_ok hwrite
      have hfile := (Grown.of_write hwrite).1
      have hlater : Grown next (rest.map GeneratedFile.path) grown := by
        have hgrown := grown_writeFiles next rest
        rwa [hrest] at hgrown
      obtain ⟨-, location', hl', -⟩ :=
        FileTree.locate_of_folders (hfile.trans hlater).folder hl
      exact ⟨location', hl'⟩
    · exact ih hrest hm

/-- A file that is written stands where its path leads, unless one of the files behind it is written
in its place. -/
theorem find?_of_writeFiles {before after : List GeneratedFile}
    (h : writeFiles tree (before ++ file :: after) = (grown, none))
    (hlead : grown.LeadsTo file.path names)
    (hlast : ∀ other ∈ after, ¬grown.LeadsTo other.path names) :
    grown.find? names = some (.file (.text file.content)) := by
  induction before generalizing tree with
  | nil =>
    obtain ⟨next, hnext, hrest⟩ := writeFiles_cons_eq_ok h
    obtain ⟨between, -, hwrite⟩ := writeFile_eq_ok hnext
    obtain ⟨location, hl, -⟩ := FileTree.write_eq_ok hwrite
    obtain ⟨hfile, hstands⟩ := Grown.of_write hwrite
    have hlater : Grown next (after.map GeneratedFile.path) grown := by
      have hgrown := grown_writeFiles next after
      rwa [hrest] at hgrown
    -- Right behind its writing it stands there, and later on nothing is put in its place.
    have hnames : location.names? = some names :=
      hlead.of_locate (hfile.trans hlater).folder hl
    have hthen : next.find? names = some (.file (.text file.content)) :=
      hstands names (.of_folders ⟨location, hl, hnames⟩ hfile.folder)
    refine (hlater.file names _ hthen).resolve_right ?_
    rintro ⟨path, hm, hpath⟩
    obtain ⟨other, hother, rfl⟩ := List.mem_map.mp hm
    exact hlast other hother hpath
  | cons first rest ih =>
    obtain ⟨next, -, hrest⟩ := writeFiles_cons_eq_ok h
    exact ih hrest

/-! ### Files of a run -/

/-- The files that an attempt has to write. -/
def Attempt.reported (generator : Generator ε) : Attempt → List GeneratedFile
  | .error _ => []
  | .ok stage => stage.kept generator

variable {generator : Generator ε} {state : RunState} {attempt : Attempt}
  {target : Except ConfigError ServiceTarget}
  {targets : List (Except ConfigError ServiceTarget)}

theorem files_conclude (state : RunState) (service : Nat) (report : ServiceReport) :
    (state.conclude service report).files = (writeFiles state.files report.files).1 := by
  rw [RunState.conclude]
  split
  · rename_i hw
    rw [hw]
    rfl
  · rename_i hw
    rw [hw]

/-- A service is attempted with the tree as it is. -/
theorem files_of_attempt {stage : Stage} (h : state.attempt target = .ok stage) :
    stage.turn.files = state.files := by
  cases target with
  | error cause => exact absurd h nofun
  | ok target =>
    obtain rfl := Except.ok.inj h
    rfl

/-- A step changes nothing in the tree but what its service writes. -/
theorem files_step (state : RunState) (target : Except ConfigError ServiceTarget) :
    (state.step generator target).files =
      (writeFiles state.files ((state.attempt target).reported generator)).1 := by
  cases target with
  | error cause => rfl
  | ok target =>
    simp only [RunState.attempt, Except.map, Attempt.reported, Stage.kept, Stage.result,
      Turn.outcome, RunState.step]
    cases (runService state.files generator target state.registry).result with
    | error cause => rfl
    | ok report =>
      simp only [files_conclude]
      rfl

theorem grown_foldl_step (state : RunState) (targets : List (Except ConfigError ServiceTarget)) :
    Grown state.files
      (((attempts generator state targets).flatMap (Attempt.reported generator)).map
        GeneratedFile.path)
      (targets.foldl (RunState.step generator) state).files := by
  induction targets generalizing state with
  | nil => exact .refl _ _
  | cons target rest ih =>
    have hstep := grown_writeFiles state.files ((state.attempt target).reported generator)
    rw [← files_step] at hstep
    rw [attempts, List.flatMap_cons, List.map_append, List.foldl_cons]
    exact hstep.trans (ih _)

/-- A service that ends with all its files written came to their report, and writing them succeeded
from the tree that it found. -/
theorem Attempt.ending_eq_written {report : ServiceReport}
    (h : attempt.ending generator = .written report) :
    ∃ stage, attempt = .ok stage ∧ stage.result generator = .ok report ∧
      (writeFiles stage.turn.files report.files).2 = none := by
  cases attempt with
  | error cause => cases h
  | ok stage =>
    rw [Attempt.ending] at h
    split at h
    · cases h
    · rename_i found hfound
      rw [Ending.ofReport] at h
      split at h
      · cases h
      · rename_i hwritten
        obtain rfl := Ending.written.inj h
        exact ⟨stage, rfl, hfound, hwritten⟩

theorem Attempt.reported_of_written {report : ServiceReport}
    (h : attempt.ending generator = .written report) :
    attempt.reported generator = report.files := by
  obtain ⟨stage, rfl, hresult, -⟩ := Attempt.ending_eq_written h
  exact congrArg filesOf hresult

theorem read_of_foldl_step {earlier later : List Attempt} {report : ServiceReport}
    {before after : List GeneratedFile}
    (hrun : attempts generator state targets = earlier ++ attempt :: later)
    (hending : attempt.ending generator = .written report)
    (hfiles : report.files = before ++ file :: after)
    (hlead : (targets.foldl (RunState.step generator) state).files.LeadsTo file.path names)
    (hlast : ∀ other ∈ after ++ later.flatMap (Attempt.reported generator),
      ¬(targets.foldl (RunState.step generator) state).files.LeadsTo other.path names) :
    (targets.foldl (RunState.step generator) state).files.read file.path = .ok file.content := by
  induction targets generalizing state earlier with
  | nil => exact absurd hrun (by simp [attempts])
  | cons target rest ih =>
    rw [attempts] at hrun
    rw [List.foldl_cons] at hlead hlast ⊢
    cases earlier with
    | cons first more => exact ih (List.cons.inj hrun).2 hlead hlast
    | nil =>
      obtain ⟨rfl, rfl⟩ := List.cons.inj hrun
      have hwritten : (writeFiles state.files report.files).2 = none := by
        obtain ⟨stage, hstage, -, hwritten⟩ := Attempt.ending_eq_written hending
        rwa [files_of_attempt hstage] at hwritten
      have hnext : (state.step generator target).files =
          (writeFiles state.files report.files).1 := by
        rw [files_step, Attempt.reported_of_written hending]
      have hwrites : writeFiles state.files (before ++ file :: after) =
          ((state.step generator target).files, none) := by
        rw [← hfiles, hnext, ← hwritten]
      have hlater : Grown (state.step generator target).files
          (((attempts generator (state.step generator target) rest).flatMap
            (Attempt.reported generator)).map GeneratedFile.path)
          (rest.foldl (RunState.step generator) (state.step generator target)).files :=
        grown_foldl_step _ rest
      -- Right after its service the file stands there, under the names that its path leads to in
      -- the end.
      obtain ⟨location, hl⟩ := exists_locate_of_writeFiles hwrites
        (List.mem_append_right before List.mem_cons_self)
      have hthen : (state.step generator target).files.LeadsTo file.path names :=
        ⟨location, hl, hlead.of_locate hlater.folder hl⟩
      have hstands : (state.step generator target).files.find? names =
          some (.file (.text file.content)) := by
        refine find?_of_writeFiles hwrites hthen fun other hm hother => ?_
        exact hlast other (List.mem_append_left _ hm) (hother.of_folders hlater.folder)
      -- Later attempts leave it there, or write where it stands.
      refine FileTree.read_of_leadsTo hlead ((hlater.file names _ hstands).resolve_right ?_)
      rintro ⟨path, hm, hpath⟩
      obtain ⟨other, hother, rfl⟩ := List.mem_map.mp hm
      exact hlast other (List.mem_append_right _ hother) hpath

/-- What a run counts as written is there when it is over: each file of a service whose files are
all written is read with its content under its path, if that leads below the folder that the run
works in, and unless another file is written in its place, by the same service behind it or by a
later one. -/
theorem read_of_runAll (files : FileTree) (generator : Generator ε) (config : Config)
    (base : Path) {outcome : RunOutcome} (h : runAll files generator config base = .ok outcome) :
    ∃ mode, config.mode = .ok mode ∧
      ∀ earlier attempt later report before file after names,
        attempts generator (.start files mode) (config.targets base) =
          earlier ++ attempt :: later →
        attempt.ending generator = .written report →
        report.files = before ++ file :: after →
        outcome.files.LeadsTo file.path names →
        (∀ other ∈ after ++ later.flatMap (Attempt.reported generator),
          ¬outcome.files.LeadsTo other.path names) →
        outcome.files.read file.path = .ok file.content := by
  rw [runAll] at h
  obtain ⟨mode, hmode, h⟩ := bind_eq_ok.mp h
  obtain rfl := Except.ok.inj h
  exact ⟨mode, hmode, fun _ _ _ _ _ _ _ _ hrun hending hfiles hlead hlast =>
    read_of_foldl_step hrun hending hfiles hlead hlast⟩

end FunctionForge.Run
