import FunctionForge.Config.Decode
import FunctionForge.Config.Resolve

/-!
# Loading configurations

A configuration is a YAML file. It can be used if the settings of the whole run are right; whether
its services are is found out one by one. `starterText` is a configuration to begin with.
-/

namespace FunctionForge.Config

open Files (FileTree Path)

/-- The configuration that a text writes. -/
def read? (text : String) : Option Config := do
  let source ← Markup.Yaml.read? text
  source.read? Decode.config

/-- The configuration in a file. -/
def load (files : FileTree) (path : Path) : Except ConfigError Config :=
  match files.read path with
  | .error cause => .error (.unreadable path cause)
  | .ok text =>
    match read? text with
    | none => .error (.malformed path)
    | some config => do
      config.validate
      return config

/-- The name of the file in which a configuration is looked for. -/
def fileName : String := "oafn.yml"

/-- The lines of a configuration to begin with. -/
def starterLines : List String :=
  [ "# oafn configuration",
    "config:",
    "  version: 3            # template generation: 1 | 2 | 3",
    "  duplicates: overwrite # overwrite | once",
    "  # prefix: \"\"",
    "  # suffix: \"\"",
    "",
    "services:",
    "  - apiPath: openapi.yml",
    "    model:",
    "      namespace: MyApi.Model",
    "      targetFolder: output/Model",
    "      # excludes: []",
    "      # includes: []",
    "    function:",
    "      name: MyApi",
    "      namespace: MyApi",
    "      targetFolder: output",
    "      # functionsName: MyApiFunctions",
    "      # interfaceName: IMyApiService",
    "      # interfaceNamespace: MyApi.Interfaces",
    "      # interfaceTargetFolder: output/Interfaces",
    "      # boilerplate: \"" ++ bareBoilerplate ++ "\"" ]

/-- A configuration to begin with. -/
def starterText : String :=
  Text.join "\n" starterLines ++ "\n"

end FunctionForge.Config
