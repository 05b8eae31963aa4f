import FunctionForge.Value

/-!
# Literals

Values as literals of generated code. A string stands between quotes, with a backslash before every
quote and every backslash in it.
-/

namespace FunctionForge.Model

/-- A character between the quotes of a literal. -/
def escapeLiteral (c : Char) : List Char :=
  if c = '\\' ∨ c = '"' then ['\\', c] else [c]

/-- A string as a literal. -/
def stringLiteral (s : String) : String :=
  String.ofList ('"' :: (s.toList.flatMap escapeLiteral ++ ['"']))

/-- A value as a literal. -/
def literal : Value → String
  | .string s => stringLiteral s
  | value => value.compact

end FunctionForge.Model
