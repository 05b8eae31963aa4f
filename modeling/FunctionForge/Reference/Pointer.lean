import FunctionForge.Number.Decimal
import FunctionForge.Value

/-!
# Pointers

A pointer leads into a value: every part of it stands behind a slash and names a member of an object
or the number of an array's item. A slash in a name is written `~1`, a tilde `~0`.
-/

namespace FunctionForge.Reference

/-- A part of a pointer as the name that it writes. -/
def unescape (part : String) : String :=
  Text.replaceAll "~0" "~" (Text.replaceAll "~1" "/" part)

/-- The number of an item that a part of a pointer writes, without superfluous zeros. -/
def itemNumber? (name : String) : Option Nat :=
  let digits := name.toList
  if digits.head? = some '0' ∧ digits.length ≠ 1 then none
  else (Number.read? 10 digits).filter (· < Number.wordLimit 64)

/-- The part of a value with a name. -/
def step? (name : String) : Value → Option Value
  | .object members => Fields.get? members name
  | .array items => do items[← itemNumber? name]?
  | _ => none

/-- What a pointer leads to. -/
def follow? (value : Value) (pointer : String) : Option Value :=
  match Text.cut '/' pointer with
  | "" :: parts => parts.foldlM (fun value part => step? (unescape part) value) value
  | _ => none

/-- The last part of a pointer that is not empty, as the name that it writes. -/
def lastName? (pointer : String) : Option String :=
  ((Text.cut '/' pointer).reverse.find? (· != "")).map unescape

end FunctionForge.Reference
