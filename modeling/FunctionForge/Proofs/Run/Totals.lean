import FunctionForge.Proofs.Run.Policy
import Mathlib.Algebra.GroupWithZero.Nat

/-!
# Totals of a run

A run attempts its services one after the other, each with the files and the registry that the ones
before it leave, however these came out (`attempts`).  An attempt has one ending out of four
(`Ending`), and the totals of a run are read off the endings (`summary_of_runAll`): every service is
counted once, those that do not end with all their files written and all their definitions used are
counted as failed, and the files are counted of those that end with all their files written, whether
definitions were passed over or not.
-/

namespace FunctionForge.Run

open Files (FileTree Path)
open Stage

variable {ε : Type}

/-! ### Endings -/

/-- How an attempt to run a service ends. -/
inductive Ending (ε : Type) where
  /-- The service cannot be used as it is configured. -/
  | rejected (cause : ConfigError)
  /-- The service fails as a whole. -/
  | failed (cause : RunError ε)
  /-- The service comes to a report, and one of its files cannot be written. -/
  | unwritten (report : ServiceReport) (cause : WriteError)
  /-- The service comes to a report, and all of its files are written. -/
  | written (report : ServiceReport)
  deriving Repr, DecidableEq

namespace Ending

/-- Whether something went wrong with a service. -/
def hasErrors : Ending ε → Bool
  | .written report => !report.isClean
  | _ => true

/-- How many files are counted of a service. -/
def fileCount : Ending ε → Nat
  | .written report => report.files.length
  | _ => 0

/-- What is said of a service that fails, from the outside in. -/
def complaint? (generation : ε → String) : Ending ε → Option (List String)
  | .failed cause => some (cause.message generation :: cause.causes)
  | .unwritten _ cause => some (cause.message :: cause.causes)
  | _ => none

/-- How a service ends that comes to a report. -/
def ofReport (files : FileTree) (report : ServiceReport) : Ending ε :=
  match (writeFiles files report.files).2 with
  | some cause => .unwritten report cause
  | none => .written report

end Ending

/-! ### Attempts -/

/-- A service when its turn comes, or why it cannot be used. -/
abbrev Attempt := Except ConfigError Stage

namespace Attempt

/-- What is attempted. -/
def target (attempt : Attempt) : Except ConfigError ServiceTarget :=
  attempt.map fun stage => stage.turn.target

/-- How an attempt ends. -/
def ending (generator : Generator ε) : Attempt → Ending ε
  | .error cause => .rejected cause
  | .ok stage =>
    match stage.result generator with
    | .error cause => .failed cause
    | .ok report => .ofReport stage.turn.files report

variable {generator : Generator ε} {stage : Stage}

theorem ending_of_error {cause : RunError ε} (h : stage.result generator = .error cause) :
    ending generator (.ok stage) = .failed cause := by
  simp only [ending, h]

theorem ending_of_written {report : ServiceReport} (h : stage.result generator = .ok report)
    (hw : (writeFiles stage.turn.files report.files).2 = none) :
    ending generator (.ok stage) = .written report := by
  simp only [ending, h, Ending.ofReport, hw]

/-- Whether something goes wrong. -/
def hasErrors (generator : Generator ε) (attempt : Attempt) : Bool :=
  (attempt.ending generator).hasErrors

/-- How many files are counted. -/
def fileCount (generator : Generator ε) (attempt : Attempt) : Nat :=
  (attempt.ending generator).fileCount

/-- What is said of an attempt: that it is begun, what is reported while the service runs, and why
it fails. -/
def messages (generator : Generator ε) : Attempt → List Message
  | .error cause => [.notice (.rejectedService cause.message)]
  | .ok stage =>
    let target := stage.turn.target
    let notices := (stage.turn.outcome generator stage.registry).notices
    let complaint := (ending generator (.ok stage)).complaint? generator.message
    .begun target.index target.apiPath ::
      (notices ++ (complaint.map (Notice.failedService target.index)).toList).map .notice

end Attempt

/-- The attempt to run a service next. -/
def RunState.attempt (state : RunState) (target : Except ConfigError ServiceTarget) : Attempt :=
  target.map fun target => ⟨⟨state.files, target⟩, state.registry⟩

/-- The attempts of a run, each with what the ones before it leave. -/
def attempts (generator : Generator ε) :
    RunState → List (Except ConfigError ServiceTarget) → List Attempt
  | _, [] => []
  | state, target :: rest =>
    state.attempt target :: attempts generator (state.step generator target) rest

variable {generator : Generator ε} {state : RunState}
  {targets : List (Except ConfigError ServiceTarget)}

theorem target_attempt (target : Except ConfigError ServiceTarget) :
    (state.attempt target).target = target := by
  cases target with
  | error cause => rfl
  | ok target => rfl

theorem map_target_attempts : (attempts generator state targets).map Attempt.target = targets := by
  induction targets generalizing state with
  | nil => rfl
  | cons target rest ih => rw [attempts, List.map_cons, target_attempt, ih]

/-! ### Steps -/

/-- Writing the files of a report counts them or says why not, and counts a failure if anything went
wrong. -/
theorem totals_conclude (state : RunState) (service : Nat) (report : ServiceReport) :
    let ending : Ending ε := .ofReport state.files report
    let next := state.conclude service report
    next.written = state.written + ending.fileCount ∧
    next.failed = state.failed + ending.hasErrors.toNat ∧
    next.messages = state.messages ++
      ((ending.complaint? generator.message).map (Notice.failedService service)).toList.map
        .notice := by
  simp only [Ending.ofReport, RunState.conclude]
  rcases writeFiles state.files report.files with ⟨files, _ | refused⟩
  · refine ⟨rfl, ?_, (List.append_nil _).symm⟩
    simp only [Ending.hasErrors]
    cases report.isClean with
    | false => rfl
    | true => rfl
  · exact ⟨rfl, rfl, rfl⟩

/-- A step counts the files and the failure of one attempt, and says what is said of it. -/
theorem totals_step (state : RunState) (target : Except ConfigError ServiceTarget) :
    let attempt := state.attempt target
    let next := state.step generator target
    next.written = state.written + attempt.fileCount generator ∧
    next.failed = state.failed + (attempt.hasErrors generator).toNat ∧
    next.messages = state.messages ++ attempt.messages generator := by
  cases target with
  | error cause => exact ⟨rfl, rfl, rfl⟩
  | ok target =>
    simp only [RunState.attempt, Except.map, Attempt.fileCount, Attempt.hasErrors, Attempt.messages,
      Attempt.ending, Stage.result, Turn.outcome, RunState.step]
    -- Nothing is written of a service that fails, and it is counted once.
    cases (runService state.files generator target state.registry).result with
    | error cause =>
      refine ⟨rfl, rfl, ?_⟩
      simp [RunState.fail, RunState.say, Ending.complaint?]
    | ok report =>
      obtain ⟨hwritten, hfailed, hmessages⟩ := @totals_conclude ε generator (.say _ _) target.index
        report
      refine ⟨hwritten, hfailed, hmessages.trans ?_⟩
      simp [RunState.say]

/-! ### Runs -/

/-- The totals of a run so far, and what it has said, are those of its attempts. -/
theorem totals_foldl_step (state : RunState) (targets : List (Except ConfigError ServiceTarget)) :
    let run := attempts generator state targets
    let last := targets.foldl (RunState.step generator) state
    last.written = state.written + (run.map (Attempt.fileCount generator)).sum ∧
    last.failed = state.failed + run.countP (Attempt.hasErrors generator) ∧
    last.messages = state.messages ++ run.flatMap (Attempt.messages generator) := by
  induction targets generalizing state with
  | nil => exact ⟨rfl, rfl, (List.append_nil _).symm⟩
  | cons target rest ih =>
    -- The first attempt is counted by the step, and the others from the state that it leaves.
    obtain ⟨hwritten, hfailed, hmessages⟩ := @totals_step ε generator state target
    obtain ⟨ihwritten, ihfailed, ihmessages⟩ := ih (state.step generator target)
    simp only [attempts, List.foldl_cons, List.map_cons, List.sum_cons, List.countP_cons,
      List.flatMap_cons]
    refine ⟨?_, ?_, ?_⟩
    · rw [ihwritten, hwritten, Nat.add_assoc]
    · rw [ihfailed, hfailed]
      cases (state.attempt target).hasErrors generator with
      | false => simp
      | true => simp; omega
    · rw [ihmessages, hmessages, List.append_assoc]

/-- A run attempts every service, one after the other, and says of each what there is to say.  All
of them are counted; as failed are counted those with errors, and of the files those of the services
whose files are all written. -/
theorem summary_of_runAll (files : FileTree) (generator : Generator ε) (config : Config)
    (base : Path) (mode : DuplicateMode) (hmode : config.mode = .ok mode) :
    let targets := config.targets base
    let run := attempts generator (.start files mode) targets
    run.map Attempt.target = targets ∧
    ∃ outcome, runAll files generator config base = .ok outcome ∧
      outcome.messages = run.flatMap (Attempt.messages generator) ∧
      outcome.summary.total = config.services.length ∧
      outcome.summary.failed = run.countP (Attempt.hasErrors generator) ∧
      outcome.summary.failed ≤ outcome.summary.total ∧
      outcome.summary.written = (run.map (Attempt.fileCount generator)).sum := by
  intro targets run
  obtain ⟨hwritten, hfailed, hmessages⟩ := @totals_foldl_step ε generator
    (.start files mode) targets
  have hrun : run.map Attempt.target = targets := map_target_attempts
  have htotal : targets.length = config.services.length :=
    (List.length_map _).trans List.length_zipIdx
  -- There is an attempt for each service, so no more than all of them can fail.
  have hlength : run.length = targets.length := by rw [← hrun, List.length_map]
  let last := targets.foldl (RunState.step generator) (.start files mode)
  refine ⟨hrun, ⟨⟨targets.length, last.written, last.failed⟩, last.files, last.messages⟩, ?_,
    hmessages, htotal, ?_, ?_, ?_⟩
  · rw [runAll, hmode]
    rfl
  · exact hfailed.trans (Nat.zero_add _)
  · rw [← hlength]
    exact (hfailed.trans (Nat.zero_add _)).trans_le List.countP_le_length
  · exact hwritten.trans (Nat.zero_add _)

/-- Pets with functions, pets alone, and a service without a document. -/
def petConfig : Config :=
  let models (rootNamespace folder : String) : Config.ModelBlock :=
    ⟨some rootNamespace, some folder, none, none, [], [], none⟩
  let functions : Config.FunctionBlock :=
    ⟨some "F", some "F", some "f", none, none, none, none, none, none⟩
  ⟨.none,
    [ ⟨some "api.json", .none, some (models "A" "a"), some functions⟩,
      ⟨some "api.json", .none, some (models "B" "b"), none⟩,
      ⟨none, .none, none, none⟩ ]⟩

theorem targets_petConfig : petConfig.targets .here =
    [.ok petService.target, .ok petModelService.target, .error (.missingKey 2 "apiPath")] := by
  decide +kernel

/-- The attempts that are made at them. -/
theorem exists_attempts_petConfig : ∃ registry : Registry Artifact, registry.mode = .overwrite ∧
    attempts CSharp.generator (.start petFiles .overwrite) (petConfig.targets .here) =
      [.ok ⟨petService, .fresh .overwrite⟩, .ok ⟨petModelService, registry⟩,
        .error (.missingKey 2 "apiPath")] := by
  let state : RunState := .start petFiles .overwrite
  let next := state.step CSharp.generator (.ok petService.target)
  have hfiles : next.files = petFiles := by
    have hresult : (runService state.files CSharp.generator petService.target
        state.registry).result = .error (.missingSection .paths) := result_petService _
    simp only [next, RunState.step, hresult]
    rfl
  refine ⟨next.registry, ?_, ?_⟩
  · rw [registry_step, Turn.mode_outcome]
    rfl
  · rw [targets_petConfig]
    simp only [attempts]
    change [_, (next.attempt (.ok petModelService.target)), _] = _
    simp only [RunState.attempt, Except.map, hfiles]
    rfl

/-- The files of the service that has nothing but pets are all written if nothing is left out. -/
theorem ending_petModelService {registry : Registry Artifact} (hmode : registry.mode = .overwrite) :
    Attempt.ending CSharp.generator (.ok ⟨petModelService, registry⟩) =
      .written ⟨CSharp.modelFiles [pet] (petModels "B" "./b"), 0⟩ := by
  have hresult : (petModelService.outcome CSharp.generator registry).result =
      .ok ⟨CSharp.modelFiles [pet] (petModels "B" "./b"), 0⟩ := by
    rw [result_outcome_of_overwrite hmode, models_petModelService]
    exact (render_petModelService [pet]).trans (by rw [List.append_nil])
  have hwritten : (writeFiles petModelService.files
      (CSharp.modelFiles [pet] (petModels "B" "./b"))).2 = none := by decide +kernel
  exact Attempt.ending_of_written hresult hwritten

/-- The first service fails for want of paths, the second one is written nonetheless, and the third
one cannot be used. -/
theorem summary_of_runAll_pets : ∃ outcome,
    runAll petFiles CSharp.generator petConfig .here = .ok outcome ∧
      outcome.summary = ⟨3, 1, 2⟩ := by
  obtain ⟨-, outcome, hrun, -, htotal, hfailed, -, hwritten⟩ :=
    summary_of_runAll petFiles CSharp.generator petConfig .here .overwrite rfl
  obtain ⟨registry, hmode, hattempts⟩ := exists_attempts_petConfig
  have hfirst : Attempt.ending CSharp.generator (.ok ⟨petService, .fresh .overwrite⟩) =
      .failed (.missingSection .paths) := Attempt.ending_of_error (result_petService _)
  have hsecond := ending_petModelService hmode
  have hthird : Attempt.ending CSharp.generator (.error (.missingKey 2 "apiPath")) =
      .rejected (.missingKey 2 "apiPath") := rfl
  have hcount : (CSharp.modelFiles [pet] (petModels "B" "./b")).length = 1 := by decide +kernel
  refine ⟨outcome, hrun, ?_⟩
  change Summary.mk outcome.summary.total outcome.summary.written outcome.summary.failed = _
  rw [htotal, hwritten, hfailed, hattempts]
  simp only [List.map_cons, List.map_nil, List.countP_cons, List.countP_nil, Attempt.fileCount,
    Attempt.hasErrors, hfirst, hsecond, hthird, Ending.fileCount, Ending.hasErrors, hcount,
    ServiceReport.isClean]
  rfl

end FunctionForge.Run
