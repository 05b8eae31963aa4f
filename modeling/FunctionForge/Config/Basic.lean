import FunctionForge.Files.Tree
import FunctionForge.Registry

/-!
# Configurations

What a run generates: for each service the document, and where its models and functions are
written. Settings may be given for the whole run, for a service, and for the models or functions of
a service; what is given further inside counts.
-/

namespace FunctionForge

open Files (FileError Path)

namespace Config

/-- Settings of the whole run or of one service. -/
structure Settings where
  version : Option Nat
  /-- The mode of the run; for a service it means nothing. -/
  duplicates : Option String
  /-- What is written before the names of classes. -/
  lead : Option String
  /-- What is written after the names of classes. -/
  trail : Option String
  imports : Option (List String)
  boilerplate : Option String
  deriving Repr, DecidableEq

/-- Nothing is set. -/
def Settings.none : Settings :=
  ⟨.none, .none, .none, .none, .none, .none⟩

/-- The models of a service. -/
structure ModelBlock where
  rootNamespace : Option String
  folder : Option String
  lead : Option String
  trail : Option String
  excludes : List String
  includes : List String
  imports : Option (List String)
  deriving Repr, DecidableEq

/-- The functions of a service. -/
structure FunctionBlock where
  name : Option String
  rootNamespace : Option String
  folder : Option String
  functionsName : Option String
  interfaceName : Option String
  interfaceNamespace : Option String
  interfaceFolder : Option String
  boilerplate : Option String
  imports : Option (List String)
  deriving Repr, DecidableEq

/-- A document, and what is generated from it. -/
structure Service where
  apiPath : Option String
  settings : Settings
  model : Option ModelBlock
  function : Option FunctionBlock
  deriving Repr, DecidableEq

end Config

/-- What a run generates. -/
structure Config where
  settings : Config.Settings
  services : List Config.Service
  deriving Repr, DecidableEq

/-- Why a configuration, or one of its services, cannot be used. -/
inductive ConfigError where
  | unreadable (path : Path) (cause : FileError)
  | malformed (path : Path)
  | unknownMode (mode : String)
  | unsupportedVersion (version : Nat)
  | missingKey (service : Nat) (key : String)
  deriving Repr, DecidableEq

/-- The message of an error. What is wrong with a malformed configuration is not said. -/
def ConfigError.message : ConfigError → String
  | .unreadable path cause => "failed to read config " ++ path.text ++ ": " ++ cause.message
  | .malformed path => "failed to parse config " ++ path.text
  | .unknownMode mode =>
    "unknown duplication mode \x60" ++ mode ++ "\x60 (expected \x60overwrite\x60 or \x60once\x60)"
  | .unsupportedVersion version =>
    "unsupported template version " ++ Number.decimal version ++ " (expected 1, 2 or 3)"
  | .missingKey service key =>
    "service #" ++ Number.decimal service ++ ": missing required key \x60" ++ key ++ "\x60"

/-- What lies behind an error. -/
def ConfigError.causes : ConfigError → List String
  | .unreadable _ cause => [cause.message]
  | _ => []

end FunctionForge
