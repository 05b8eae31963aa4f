import FunctionForge.Files.Path
import FunctionForge.Model.Entity

/-!
# Targets

Where and how the code of one service is written: its models, and its functions with the interface
that they call.
-/

namespace FunctionForge

open Files (Path)
open Naming (ClassNaming)

/-- Where and how models are written. -/
structure ModelTarget where
  rootNamespace : String
  folder : Path
  naming : ClassNaming
  excludes : List String
  includes : List String
  imports : List String
  version : Nat
  deriving Repr, DecidableEq

/-- Which schemas get models, and how the classes are named. -/
def ModelTarget.options (target : ModelTarget) : Model.Options :=
  ⟨target.naming, target.excludes, target.includes⟩

/-- Where and how functions and their interface are written. -/
structure FunctionTarget where
  name : String
  rootNamespace : String
  folder : Path
  functionsName : String
  interfaceName : String
  interfaceNamespace : String
  interfaceFolder : Path
  /-- What stands around the body of every function. -/
  boilerplate : String
  imports : List String
  /-- How classes are named if the service has no models of its own. -/
  naming : ClassNaming
  version : Nat
  deriving Repr, DecidableEq

/-- What a service generates, from which document. -/
structure ServiceTarget where
  /-- The position of the service in the configuration. -/
  index : Nat
  apiPath : Path
  model : Option ModelTarget
  function : Option FunctionTarget
  deriving Repr, DecidableEq

/-- A file that is generated. -/
structure GeneratedFile where
  path : Path
  content : String
  deriving Repr, DecidableEq

end FunctionForge
