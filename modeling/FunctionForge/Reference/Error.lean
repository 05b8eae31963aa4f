import FunctionForge.Document.Load

/-!
# References that lead nowhere
-/

namespace FunctionForge.Reference

open Document (LoadError)

/-- Why a reference cannot be followed. -/
inductive ResolveError where
  | invalidFormat (path : String)
  /-- The reference leads to another section of the components than the one it stands for. -/
  | wrongSection (expected found path : String)
  /-- What the reference leads to is no schema. -/
  | notASchema (path : String)
  | targetNotFound (path : String)
  | circular (path : String)
  | remote (path : String)
  /-- The document that the reference leads to cannot be loaded. -/
  | external (cause : LoadError)
  deriving Repr, DecidableEq

/-- The message of an error. -/
def ResolveError.message : ResolveError → String
  | .invalidFormat path => "invalid reference format: " ++ path
  | .wrongSection expected found path =>
    "invalid reference format: expected section '" ++ expected ++ "', got '" ++ found ++ "' in " ++
      path
  | .notASchema path =>
    "invalid reference format: " ++ path ++
      ": data did not match any variant of untagged enum SchemaOrRef"
  | .targetNotFound path => "reference target not found: " ++ path
  | .circular path => "circular reference detected: " ++ path
  | .remote path => "remote references are not supported: " ++ path
  | .external cause => "failed to load referenced document: " ++ cause.message

/-- What lies behind an error, from the outside in. -/
def ResolveError.causes : ResolveError → List String
  | .external cause => cause.message :: cause.causes
  | _ => []

end FunctionForge.Reference
