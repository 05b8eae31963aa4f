import FunctionForge.CommandLine.Arguments

/-!
# Help

What the program tells about itself.
-/

namespace FunctionForge.CommandLine

/-- The name of the program. -/
def programName : String := "oafn"

/-- The version of the program. -/
def programVersion : String := "0.4.0"

/-- The name and version of the program. -/
def versionText : String :=
  programName ++ " " ++ programVersion ++ "\n"

namespace Topic

/-- What a topic is about, in one sentence. -/
def about : Topic → String
  | .program => "OpenAPI 3.x to C# Azure Functions generator"
  | .generate => "Generate models and functions for every configured service"
  | .validate => "Validate an OpenAPI spec and report what would be generated"
  | .inspect => "Inspect the resolved models and endpoints of an OpenAPI spec"
  | .init => "Initialize a new oafn configuration"
  | .completions => "Generate shell completions"
  | .help => "Print this message or the help of the given subcommand(s)"

/-- How the program is called. -/
def usage : Topic → String
  | .program => "<COMMAND>"
  | .generate => "generate [OPTIONS]"
  | .validate => "validate --input <INPUT>"
  | .inspect => "inspect [OPTIONS] --input <INPUT>"
  | .init => "init [OPTIONS]"
  | .completions => "completions <SHELL>"
  | .help => "help [COMMAND]..."

/-- Two columns of text, the first padded to the width of its longest entry. -/
def columns (rows : List (String × String)) : List String :=
  let width := (rows.map fun row => row.1.length).foldl max 0
  rows.map fun (left, right) =>
    "  " ++ left ++ String.ofList (List.replicate (width - left.length) ' ') ++ "  " ++ right

/-- A list of words between brackets. -/
def choices (words : List String) : String :=
  "[possible values: " ++ Text.join ", " words ++ "]"

/-- The option for help. -/
def helpRow : String × String := ("-h, --help", "Print help")

/-- The option for the path to a document. -/
def inputRow : String × String := ("-i, --input <INPUT>", "Path to the OpenAPI spec file")

/-- The sections of a help text. -/
def sections : Topic → List (String × List (String × String))
  | .program =>
    [ ("Commands:", Topic.byName.map fun (name, topic) => (name, topic.about)),
      ("Options:", [helpRow, ("-V, --version", "Print version")]) ]
  | .generate =>
    [ ("Options:",
        [ ("-c, --config <CONFIG>",
            "Path to the config file [default: " ++ Config.fileName ++ "]"),
          helpRow ]) ]
  | .validate => [("Options:", [inputRow, helpRow])]
  | .inspect =>
    [ ("Options:",
        [ inputRow,
          ("    --format <FORMAT>", "Output format [default: yaml] " ++ choices ["yaml", "json"]),
          helpRow ]) ]
  | .init => [("Options:", [("    --force", "Overwrite an existing config"), helpRow])]
  | .completions =>
    [ ("Arguments:", [("<SHELL>", "Shell to generate completions for " ++ choices shells)]),
      ("Options:", [helpRow]) ]
  | .help => [("Arguments:", [("[COMMAND]...", "Print help for the subcommand(s)")])]

/-- The lines of a section. -/
def sectionLines (part : String × List (String × String)) : List String :=
  "" :: part.1 :: columns part.2

/-- The help about a topic. -/
def helpText (topic : Topic) : String :=
  Text.join "\n"
    ([topic.about, "", "Usage: " ++ programName ++ " " ++ topic.usage] ++
      topic.sections.flatMap sectionLines) ++ "\n"

end Topic

end FunctionForge.CommandLine
