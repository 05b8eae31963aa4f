import FunctionForge.Proofs.Agreement.Types
import FunctionForge.Proofs.Model.Properties

/-!
# What a property is made of

A position may wrap a reference, and what is left of it without the wrapper (`unwrapped`) is a
reference or a schema.  If it stands for a class, the property has that class as its type; otherwise
exactly one schema governs it (`Governs.unique`), and the property is made of that schema alone
(`Property.resolve_governed`).  Of the wrapper nothing is left but its description and whether it is
nullable.
-/

namespace FunctionForge

open Document (Schema SchemaOrRef)

theorem Governs.unique {known : KnownTypes} {schema other : Schema} {position : SchemaOrRef}
    (h : Governs known schema position) (ho : Governs known other position) : schema = other := by
  cases h with
  | inline =>
    cases ho with
    | inline => rfl
  | ref hr =>
    cases ho with
    | ref hr' => exact ResolvedRef.alias.inj (hr.symm.trans hr')

namespace Model

variable {known : KnownTypes} {position : SchemaOrRef} {property : Property}

/-- What is left of a position without the schema that wraps a reference there. -/
def unwrapped (position : SchemaOrRef) : SchemaOrRef :=
  match wrappedRef? position with
  | some path => .ref path
  | none => position

theorem unwrapped_of_eq_some {path : String} (h : wrappedRef? position = some path) :
    unwrapped position = .ref path := by
  rw [unwrapped, h]

theorem unwrapped_of_eq_none (h : wrappedRef? position = none) : unwrapped position = position := by
  rw [unwrapped, h]

theorem wrapperNullable_of_eq_none (h : wrappedRef? position = none) :
    wrapperNullable position = false := by
  cases position with
  | ref path => exact absurd h nofun
  | inline schema => rw [wrapperNullable, h, Option.isSome_none, Bool.false_and]

namespace Property

/-- A property is made of the one schema that governs its position, or it has the class that a
reference there stands for as its type. -/
theorem resolve_governed {name : String} {required : Bool}
    (h : resolve known name required position = .ok property) :
    (∃ path className description, unwrapped position = .ref path ∧
      known.resolve path = .entity className ∧
      property = ofEntity ⟨name, required, wrapperNullable position, description⟩ className) ∨
    ∃ schema description, Governs known schema (unwrapped position) ∧
      ofSchema known ⟨name, required, wrapperNullable position, description⟩ schema =
        .ok property := by
  obtain ⟨schema, rfl, hw, hs⟩ | ⟨path, description, hw, hr⟩ := resolve_cases h
  · refine Or.inr ⟨schema, none, ?_, ?_⟩
    · rw [unwrapped_of_eq_none hw]
      exact .inline
    · rwa [wrapperNullable_of_eq_none hw]
  · rw [unwrapped_of_eq_some hw]
    rw [ofRef] at hr
    rcases hk : known.resolve path with body | className
    · rw [hk] at hr
      exact Or.inr ⟨body, description, .ref hk, hr⟩
    · rw [hk] at hr
      exact Or.inl ⟨path, className, description, rfl, hk, (Except.ok.inj hr).symm⟩

end Property

end Model

end FunctionForge
