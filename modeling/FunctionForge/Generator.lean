import FunctionForge.Endpoint.Basic
import FunctionForge.Notice
import FunctionForge.Target

/-!
# Generators

A generator writes the models and the functions of a service as files of some language. What a run
does with the files does not depend on the language.
-/

namespace FunctionForge

/-- Writes models and functions as files, or fails with an error of type `ε`. -/
structure Generator (ε : Type) where
  /-- The files of models. -/
  models : List Model.Entity → ModelTarget → Except ε (List GeneratedFile)
  /-- The files of functions and of what they need. -/
  functions : List Endpoint → FunctionTarget → Except ε (List GeneratedFile)
  /-- What is reported of the functions. -/
  functionNotices : List Endpoint → FunctionTarget → List Notice
  /-- The message of an error. -/
  message : ε → String

end FunctionForge
