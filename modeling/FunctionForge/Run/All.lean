import FunctionForge.Config.Resolve
import FunctionForge.Run.Service

/-!
# Running a configuration

Runs the services of a configuration in order and writes their files. A service that fails, in
whatever way, is reported and counted, and the next one is run.
-/

namespace FunctionForge.Run

open Files (FileError FileTree Path)

/-! ### Writing -/

/-- Why files cannot be written. -/
inductive WriteError where
  | folder (path : Path) (cause : FileError)
  | file (path : Path) (cause : FileError)
  deriving Repr, DecidableEq

namespace WriteError

/-- The message of an error. -/
def message : WriteError → String
  | .folder path _ => "failed to create directory " ++ path.text
  | .file path _ => "failed to write " ++ path.text

/-- What lies behind an error. -/
def causes : WriteError → List String
  | .folder _ cause | .file _ cause => [cause.message]

end WriteError

/-- Creates the folder that a file belongs into. -/
def createParent (tree : FileTree) (path : Path) : FileTree × Option WriteError :=
  match path.parent? with
  | none => (tree, none)
  | some parent =>
    let (tree, refused) := tree.createFolders parent
    (tree, refused.map (.folder parent))

/-- Writes a file, and creates its folder. -/
def writeFile (tree : FileTree) (file : GeneratedFile) : FileTree × Option WriteError :=
  match createParent tree file.path with
  | (tree, some refused) => (tree, some refused)
  | (tree, none) =>
    match tree.write file.path file.content with
    | .ok tree => (tree, none)
    | .error cause => (tree, some (.file file.path cause))

/-- Writes files until one cannot be written. -/
def writeFiles : FileTree → List GeneratedFile → FileTree × Option WriteError
  | tree, [] => (tree, none)
  | tree, file :: rest =>
    match writeFile tree file with
    | (tree, none) => writeFiles tree rest
    | (tree, some refused) => (tree, some refused)

/-! ### Services -/

/-- What a run says while it goes on. -/
inductive Message where
  /-- A service is begun. -/
  | begun (service : Nat) (document : Path)
  | notice (notice : Notice)
  deriving Repr, DecidableEq

/-- How many services there were, how many files were written, and how many services failed. -/
structure Summary where
  total : Nat
  written : Nat
  failed : Nat
  deriving Repr, DecidableEq

/-- A run as far as it has gone. -/
structure RunState where
  files : FileTree
  registry : Registry Artifact
  written : Nat
  failed : Nat
  messages : List Message

namespace RunState

/-- A run in which nothing has been done. -/
def start (files : FileTree) (mode : DuplicateMode) : RunState :=
  ⟨files, .fresh mode, 0, 0, []⟩

/-- Says something. -/
def say (state : RunState) (messages : List Message) : RunState :=
  { state with messages := state.messages ++ messages }

/-- Counts a service that failed. -/
def fail (state : RunState) (notice : Notice) : RunState :=
  { state with failed := state.failed + 1, messages := state.messages ++ [.notice notice] }

/-- Writes the files of a service. Definitions that were passed over make the service fail too. -/
def conclude (state : RunState) (service : Nat) (report : ServiceReport) : RunState :=
  match writeFiles state.files report.files with
  | (files, some refused) =>
    { state with files }.fail (.failedService service (refused.message :: refused.causes))
  | (files, none) =>
    { state with
      files
      written := state.written + report.files.length
      failed := if report.isClean then state.failed else state.failed + 1 }

/-- Runs a service and writes its files. -/
def step {ε : Type} (generator : Generator ε) (state : RunState) :
    Except ConfigError ServiceTarget → RunState
  | .error cause => state.fail (.rejectedService cause.message)
  | .ok target =>
    let outcome := runService state.files generator target state.registry
    let state := { state with registry := outcome.registry }.say <|
      .begun target.index target.apiPath :: outcome.notices.map .notice
    match outcome.result with
    | .error cause =>
      state.fail (.failedService target.index (cause.message generator.message :: cause.causes))
    | .ok report => state.conclude target.index report

end RunState

/-- How a run came out. -/
structure RunOutcome where
  summary : Summary
  files : FileTree
  messages : List Message

/-- Runs every service of a configuration. -/
def runAll {ε : Type} (files : FileTree) (generator : Generator ε) (config : Config)
    (base : Path) : Except ConfigError RunOutcome := do
  let mode ← config.mode
  let targets := config.targets base
  let state := targets.foldl (RunState.step generator) (.start files mode)
  return {
    summary := ⟨targets.length, state.written, state.failed⟩
    files := state.files
    messages := state.messages }

end FunctionForge.Run
