import FunctionForge.CSharp.Generator
import FunctionForge.CommandLine.Help
import FunctionForge.Inspection.Basic
import FunctionForge.Markup.Yaml.Writing
import FunctionForge.Run.All

/-!
# Executing requests

What the program writes, says and leaves behind, as a function of its arguments and of the files
below the folder that it runs in. Results go to the standard output; what is said about the work,
and why it failed, goes to the standard error.
-/

namespace FunctionForge.CommandLine

open Files (FileTree Path)
open Number (decimal)
open Run (Message runAll)

/-- Something that goes to the standard error. -/
inductive Said where
  | line (text : String)
  /-- Goes to the log. -/
  | notice (notice : Notice)
  deriving Repr, DecidableEq

/-- What the program leaves behind. -/
structure Outcome where
  exitCode : Nat
  output : String
  said : List Said
  files : FileTree

namespace Outcome

/-- All went well. -/
def success (files : FileTree) (said : List Said) (output : String) : Outcome :=
  ⟨0, output, said, files⟩

/-- The arguments make no sense. -/
def misuse (files : FileTree) : Outcome :=
  ⟨2, "", [], files⟩

/-- Indents the lines of a text but the first. -/
def hanging (indent : String) (text : String) : String :=
  Text.replaceAll "\n" ("\n" ++ indent) text

/-- The causes of an error, one below the other; they are numbered if there are several. -/
def causeTexts : List String → List String
  | [] => []
  | [cause] => ["    " ++ hanging "    " cause]
  | causes =>
    causes.zipIdx.map fun (cause, number) =>
      let number := decimal number
      String.ofList (List.replicate (5 - number.length) ' ') ++ number ++ ": " ++
        hanging "       " cause

/-- The text of an error with what lies behind it. -/
def errorText (message : String) (causes : List String) : String :=
  "Error: " ++ message ++
    if causes.isEmpty then "" else "\n\nCaused by:\n" ++ Text.join "\n" (causeTexts causes)

/-- Something went wrong. -/
def failure (files : FileTree) (said : List Said) (message : String) (causes : List String) :
    Outcome :=
  ⟨1, "", said ++ [.line (errorText message causes)], files⟩

/-- What goes to the standard error if there is no log. -/
def errorOutput (outcome : Outcome) : String :=
  String.join <| outcome.said.filterMap fun said =>
    match said with
    | .line text => some (text ++ "\n")
    | .notice _ => none

end Outcome

/-- What a message of a run says. -/
def saidOfMessage : Message → Said
  | .begun service document =>
    .line ("Generating service #" ++ decimal service ++ " from " ++ document.text)
  | .notice notice => .notice notice

/-- Generates what a configuration says. Paths in it are relative to its folder. -/
def generateFrom (files : FileTree) (path : Path) : Outcome :=
  let outcome := do
    let config ← Config.load files path
    runAll files CSharp.generator config path.folder
  match outcome with
  | .error cause => .failure files [] cause.message cause.causes
  | .ok outcome =>
    let summary := outcome.summary
    let said := outcome.messages.map saidOfMessage ++
      [ .line ("Wrote " ++ decimal summary.written ++ " files for " ++ decimal summary.total ++
          " services.") ]
    if summary.failed > 0 then
      .failure outcome.files said
        (decimal summary.failed ++ " of " ++ decimal summary.total ++
          " services had errors; see the log above") []
    else .success outcome.files said ""

/-- Tells whether all definitions of a document can be used. -/
def validateFile (files : FileTree) (path : Path) : Outcome :=
  let outcome := Inspection.ofFile files path
  let noted := outcome.notices.map Said.notice
  match outcome.result with
  | .error cause => .failure files noted cause.message cause.causes
  | .ok inspection =>
    let document := inspection.document
    let said := noted ++
      [ .line ("Valid OpenAPI " ++ document.openapi ++ " spec: " ++ document.info.title),
        .line ("  Version: " ++ document.info.version),
        .line ("  Models: " ++ decimal inspection.models.items.length),
        .line ("  Endpoints: " ++ decimal inspection.endpoints.items.length) ] ++
      inspection.failures.map fun failure => .line ("  error: " ++ failure.message)
    if inspection.failures.isEmpty then
      .success files (said ++ [.line "Validation successful."]) ""
    else
      .failure files said
        (decimal inspection.failures.length ++ " definitions cannot be generated") []

/-- Writes what a document holds. -/
def inspectFile (files : FileTree) (path : Path) (form : SummaryFormat) : Outcome :=
  let outcome := Inspection.ofFile files path
  let noted := outcome.notices.map Said.notice
  match outcome.result with
  | .error cause => .failure files noted cause.message cause.causes
  | .ok inspection =>
    .success files noted <|
      match form with
      | .yaml => Markup.Yaml.write inspection.summary
      | .json => inspection.summary.pretty ++ "\n"

/-- Writes a configuration to begin with. -/
def startConfig (files : FileTree) (force : Bool) : Outcome :=
  let path : Path := ⟨Config.fileName⟩
  if files.has path && !force then
    .failure files [] (path.text ++ " already exists. Use --force to overwrite.") []
  else
    match files.write path Config.starterText with
    | .error cause => .failure files [] ("failed to write " ++ path.text) [cause.message]
    | .ok files => .success files [.line ("Created " ++ path.text)] ""

/-- Executes a command. -/
def Command.execute (files : FileTree) : Command → Outcome
  | .generate config => generateFrom files config
  | .validate input => validateFile files input
  | .inspect input form => inspectFile files input form
  | .init force => startConfig files force
  | .completions shell => .failure files [] ("no completions for " ++ shell) []

/-- Does what the arguments ask for. -/
def execute (files : FileTree) (arguments : List String) : Outcome :=
  match Request.ofArguments arguments with
  | .run command => command.execute files
  | .help topic => .success files [] topic.helpText
  | .version => .success files [] versionText
  | .refused => .misuse files

end FunctionForge.CommandLine
