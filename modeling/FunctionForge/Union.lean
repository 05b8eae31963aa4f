import FunctionForge.Naming.Identifier
import FunctionForge.Fields

/-!
# Unions

A union is a `oneOf` with a discriminator. The discriminator maps values to references; a member of
the union is selected by the last value that is mapped to its name, or else by its name itself.
-/

namespace FunctionForge.Union

/-- The values of a discriminator's mapping by the names of the members that they select. -/
def valuesByMember (mapping : Fields String) : Fields String :=
  Fields.ofList (mapping.map fun (value, path) => (Naming.refName path, value))

/-- The value that selects a member of a union. -/
def selectingValue (mapping : Fields String) (member : String) : String :=
  ((valuesByMember mapping).get? member).getD member

end FunctionForge.Union
