import FunctionForge.Definition

/-!
# Notices

What a run reports besides its results: things that are left out or changed without being an error,
and the definitions that are skipped.
-/

namespace FunctionForge

/-- How serious a notice is. -/
inductive Severity where
  | warning
  | error
  deriving Repr, DecidableEq

/-- Something that a run reports. -/
inductive Notice where
  | listWithoutModel (name : String)
  | ignoredProperties (name : String)
  | bodilessIntersection (name : String)
  | shadowedImport (name : String)
  | repeatedImport (name : String)
  | unresolvedResponse (location code : String)
  | untypedResponse (location code : String) (cause : Cause)
  | untypedResult (location : String)
  | skippedArtifact (name : String)
  | differingArtifact (name : String)
  | unexpandedCall (operationId : String)
  | skippedDefinition (service : Nat) (failure : DefinitionError)
  /-- A service that failed as a whole, with the messages from the outside in. -/
  | failedService (service : Nat) (messages : List String)
  /-- A service that cannot be used as it is configured. -/
  | rejectedService (message : String)
  deriving Repr, DecidableEq

namespace Notice

/-- How serious a notice is. -/
def severity : Notice → Severity
  | .skippedDefinition _ _ | .failedService _ _ | .rejectedService _ => .error
  | _ => .warning

/-- The text of a notice. -/
def message : Notice → String
  | .listWithoutModel name =>
    name ++ ": top-level array schemas have no model; reference the item type instead"
  | .ignoredProperties name =>
    name ++ ": properties next to allOf are ignored; move them into the allOf member"
  | .bodilessIntersection name =>
    name ++ ": allOf has no inline member, generating a class without properties"
  | .shadowedImport name =>
    "external schema " ++ name ++ " shadowed by a local schema of the same name"
  | .repeatedImport name =>
    "external schema " ++ name ++ " imported from more than one file, keeping the first"
  | .unresolvedResponse location code =>
    location ++ ": response " ++ code ++ " is an unresolved reference, treating it as untyped"
  | .untypedResponse location code cause =>
    DefinitionError.message ⟨location ++ " response " ++ code, cause⟩ ++
      "; treating the response as untyped"
  | .untypedResult location =>
    DefinitionError.message ⟨location, .inconsistentResponses⟩ ++
      "; falling back to an untyped result"
  | .skippedArtifact name =>
    name ++ " was already generated in this run, skipping (duplicates: once)"
  | .differingArtifact name =>
    name ++ " differs from the version generated earlier in this run; the earlier one is kept"
  | .unexpandedCall operationId =>
    operationId ++ ": \x7bCALL\x7d has no single service call to expand to; left as is"
  | .skippedDefinition service failure =>
    "service #" ++ Number.decimal service ++ ": " ++ failure.message
  | .failedService service messages =>
    "service #" ++ Number.decimal service ++ ": " ++ Text.join ": " messages
  | .rejectedService message => message

end Notice

end FunctionForge
