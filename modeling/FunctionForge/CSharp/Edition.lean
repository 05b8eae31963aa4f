import FunctionForge.Number.Decimal

/-!
# Editions

Every piece of generated code has a basic edition, and some have an edition of their own for one
version. `Slot` is a piece of generated code, and `edition` says which edition a version takes.
-/

namespace FunctionForge.CSharp

/-- A piece of generated code. -/
inductive Slot where
  | model
  | interface
  | dateConverter
  | service
  | functions
  | functionMethod
  | resultWrapper
  | clientErrorBase
  | clientError
  deriving Repr, DecidableEq

/-- The name of a slot. -/
def Slot.text : Slot → String
  | .model => "model"
  | .interface => "interface"
  | .dateConverter => "date_converter"
  | .service => "service"
  | .functions => "functions"
  | .functionMethod => "function_method"
  | .resultWrapper => "result_wrapper"
  | .clientErrorBase => "client_error_base"
  | .clientError => "client_error"

/-- The edition of a piece of code. -/
inductive Edition where
  | base
  | version (number : Nat)
  deriving Repr, DecidableEq

/-- The name of an edition. -/
def Edition.text : Edition → String
  | .base => "base"
  | .version number => "v" ++ Number.decimal number

/-- The versions with an edition of their own of a slot. -/
def Slot.ownEditions : Slot → List Nat
  | .model => [1]
  | .functions => [1]
  | .functionMethod => [1, 3]
  | _ => []

/-- The edition of a slot that a version takes. -/
def edition (version : Nat) (slot : Slot) : Edition :=
  if slot.ownEditions.contains version then .version version else .base

/-- The name of the edition of a slot that a version takes. -/
def editionName (version : Nat) (slot : Slot) : String :=
  (edition version slot).text ++ "/" ++ slot.text

end FunctionForge.CSharp
