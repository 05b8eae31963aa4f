import FunctionForge.Document.Schema

/-!
# Definitions that cannot be used

A definition is a named schema, one of its properties, or an operation. `Cause` is why no code can
be generated for it, `DefinitionKind` the kind of thing that is wrong with it. A `DefinitionError`
adds the place, such as `Order.items` or `POST /orders`.
-/

namespace FunctionForge

open Document (SchemaType)

/-- The kinds of things that can be wrong with a definition. -/
inductive DefinitionKind where
  | missingRequiredField
  | ambiguousInheritance
  | unsupportedNesting
  | unsupportedSchema
  | unsupportedMediaType
  | unsupportedBodyShape
  | inconsistentResponseType
  | nameCollision
  deriving Repr, DecidableEq

/-- Why a definition cannot be used. -/
inductive Cause where
  | missingOperationId
  | severalParents
  | severalBodies
  | nestedIntersection
  | nestedUnion
  | listWithoutItems
  | listOfOthers
  | nestedProperties
  | mapWithoutValues
  | mapOfOthers
  | noScalarType (type : SchemaType)
  | noType
  | unionWithoutDiscriminator
  | unionWithAlias (path : String)
  | unionWithInline
  | parentIsAlias (path : String)
  | severalAlternatives
  | structuredDefault
  | clashingConstants (first second name : String)
  | unresolvedParameter (path : String)
  | parameterWithoutSchema (name : String)
  | parameterNotPrimitive (name : String)
  | severalMediaTypes (found : List String)
  | foreignMediaType (found : String)
  | shapelessBody
  | bodyWithoutDiscriminator
  | bodyWithAlias (path : String)
  | bodyWithInline
  | unresolvedBody (path : String)
  | inconsistentResponses
  | nameCollision (name first : String)
  deriving Repr, DecidableEq

namespace Cause

/-- What kind of thing is wrong. -/
def kind : Cause → DefinitionKind
  | .missingOperationId => .missingRequiredField
  | .severalParents | .severalBodies => .ambiguousInheritance
  | .nestedIntersection | .nestedUnion | .listWithoutItems | .listOfOthers | .nestedProperties
  | .mapWithoutValues | .mapOfOthers => .unsupportedNesting
  | .noScalarType _ | .noType | .unionWithoutDiscriminator | .unionWithAlias _ | .unionWithInline
  | .parentIsAlias _ | .severalAlternatives | .structuredDefault | .clashingConstants _ _ _
  | .unresolvedParameter _ | .parameterWithoutSchema _
  | .parameterNotPrimitive _ => .unsupportedSchema
  | .severalMediaTypes _ | .foreignMediaType _ => .unsupportedMediaType
  | .shapelessBody | .bodyWithoutDiscriminator | .bodyWithAlias _ | .bodyWithInline
  | .unresolvedBody _ => .unsupportedBodyShape
  | .inconsistentResponses => .inconsistentResponseType
  | .nameCollision _ _ => .nameCollision

/-- What is wrong, without the kind. -/
def detail : Cause → String
  | .missingOperationId => "operationId"
  | .severalParents => "allOf lists more than one $ref"
  | .severalBodies => "allOf lists more than one inline schema"
  | .nestedIntersection => "inline allOf; declare the combined schema under components"
  | .nestedUnion => "inline oneOf; declare the union under components"
  | .listWithoutItems => "array without items"
  | .listOfOthers => "array items must be a $ref or a primitive"
  | .nestedProperties => "inline object properties; declare the object under components"
  | .mapWithoutValues => "object properties need an additionalProperties schema"
  | .mapOfOthers => "additionalProperties must be a $ref or a primitive"
  | .noScalarType type => "\x60" ++ type.text ++ "\x60 has no scalar representation"
  | .noType => "schema declares neither \x60type\x60 nor \x60$ref\x60"
  | .unionWithoutDiscriminator => "oneOf requires a discriminator"
  | .unionWithAlias path => "oneOf member " ++ path ++ " is a primitive alias"
  | .unionWithInline => "oneOf members must be references"
  | .parentIsAlias path => "cannot inherit from primitive alias " ++ path
  | .severalAlternatives => "anyOf must contain exactly one $ref"
  | .structuredDefault => "default of a scalar must be a scalar"
  | .clashingConstants first second name =>
    "enum values " ++ first ++ " and " ++ second ++ " both map to the constant " ++ name
  | .unresolvedParameter path => "unresolved parameter reference " ++ path
  | .parameterWithoutSchema name => "path parameter \x60" ++ name ++ "\x60 has no schema"
  | .parameterNotPrimitive name => "path parameter \x60" ++ name ++ "\x60 must be a primitive"
  | .severalMediaTypes found =>
    "expected a single media type, found " ++ Text.join ", " found
  | .foreignMediaType found => "only application/json is supported, found " ++ found
  | .shapelessBody => "expected a $ref, a primitive, or an array of either"
  | .bodyWithoutDiscriminator => "oneOf body without a discriminator cannot be dispatched"
  | .bodyWithAlias path => "oneOf body member " ++ path ++ " is a primitive alias"
  | .bodyWithInline => "oneOf body members must be references"
  | .unresolvedBody path => "unresolved request body reference " ++ path
  | .inconsistentResponses => "2xx responses disagree on their content type"
  | .nameCollision name first =>
    "class name \x60" ++ name ++ "\x60 is already generated for schema \x60" ++ first ++ "\x60"

/-- What is wrong. -/
def message (cause : Cause) : String :=
  match cause.kind with
  | .missingRequiredField => "missing required field \x60" ++ cause.detail ++ "\x60"
  | .ambiguousInheritance => "ambiguous inheritance: " ++ cause.detail
  | .unsupportedNesting => "unsupported nesting: " ++ cause.detail
  | .unsupportedSchema => "unsupported schema: " ++ cause.detail
  | .unsupportedMediaType => "unsupported media type: " ++ cause.detail
  | .unsupportedBodyShape => "unsupported body shape: " ++ cause.detail
  | .inconsistentResponseType => cause.detail
  | .nameCollision => cause.detail

end Cause

/-- A definition that cannot be used, and why. -/
structure DefinitionError where
  location : String
  cause : Cause
  deriving Repr, DecidableEq

/-- The message of an error. -/
def DefinitionError.message (error : DefinitionError) : String :=
  error.location ++ ": " ++ error.cause.message

/-- What could be generated, and the definitions that were skipped. -/
structure Resolution (α : Type) where
  items : List α
  failures : List DefinitionError
  deriving Repr, DecidableEq

namespace Resolution

variable {α : Type}

/-- Nothing generated and nothing skipped. -/
def none : Resolution α := ⟨[], []⟩

/-- Whether nothing was skipped. -/
def isClean (resolution : Resolution α) : Bool :=
  resolution.failures.isEmpty

end Resolution

end FunctionForge
