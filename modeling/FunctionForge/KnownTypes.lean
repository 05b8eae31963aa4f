import FunctionForge.TypeRef

/-!
# Known types

What a reference to a schema stands for in generated code. A schema that is a bare primitive gets no
class: it is an alias, and a reference to it stands for its body. A schema that is nothing but a
reference redirects to another one. Every other reference stands for the class with the name that
`naming` gives.

The table is made once for a document and shared, so that models and operations mean the same by a
reference.
-/

namespace FunctionForge

open Document (Schema SchemaOrRef)
open Naming (ClassNaming)

/-- What a reference stands for. -/
inductive ResolvedRef where
  | alias (body : Schema)
  | entity (name : String)

/-- What references stand for. -/
structure KnownTypes where
  naming : ClassNaming
  /-- The bodies of aliases, by the names their classes would have. -/
  aliases : Fields Schema
  /-- The schemas that are nothing but a reference, with the schemas they redirect to. -/
  redirects : Fields String

namespace KnownTypes

/-- The table that knows no schema. -/
def empty : KnownTypes := ⟨.plain, [], []⟩

/-- Adds a schema. Aliases are added only if they are admitted. -/
def add (admits : String → Bool) (known : KnownTypes) (entry : String × SchemaOrRef) :
    KnownTypes :=
  match entry.2 with
  | .ref path =>
    { known with redirects := known.redirects.insert entry.1 (Naming.refName path) }
  | .inline schema =>
    if admits entry.1 && schema.isPrimitive then
      { known with aliases := known.aliases.insert (known.naming.className entry.1) schema }
    else known

/-- The table of the schemas of a document. -/
def scan (schemas : Fields SchemaOrRef) (naming : ClassNaming) (admits : String → Bool) :
    KnownTypes :=
  List.foldl (add admits) ⟨naming, [], []⟩ schemas

/-- Follows redirects from a schema until there is none, or one comes up a second time. -/
def followFrom (redirects : Fields String) : Nat → List String → String → String
  | 0, _, name => name
  | fuel + 1, seen, name =>
    match redirects.get? name with
    | none => name
    | some next =>
      if seen.contains name then name else followFrom redirects fuel (name :: seen) next

/-- The schema that redirects lead to. -/
def followRedirects (known : KnownTypes) (name : String) : String :=
  followFrom known.redirects (known.redirects.length + 1) [] name

/-- What a reference stands for. -/
def resolve (known : KnownTypes) (path : String) : ResolvedRef :=
  let name := known.naming.className (known.followRedirects (Naming.refName path))
  match known.aliases.get? name with
  | some body => .alias body
  | none => .entity name

/-- Whether a name is that of an alias. -/
def isAlias (known : KnownTypes) (name : String) : Bool :=
  known.aliases.has name

end KnownTypes

end FunctionForge
