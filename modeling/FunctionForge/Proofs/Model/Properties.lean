import FunctionForge.Model.Property
import FunctionForge.Proofs.Result

/-!
# How properties come about

What can be said of a property if one is made: of a list and of a map by the types of their elements
(`Property.ofList_eq_ok`, `Property.ofMap_eq_ok`), of a scalar by its type, its default and its
enumerated values (`Property.ofScalar_eq_ok`).  A property is made of the reference that its
position wraps, or else of the schema there (`Property.resolve_cases`), so that it is one of these
or has a class as its type (`Property.resolve_eq_ok`).
-/

namespace FunctionForge.Model

open Document (AdditionalProperties Schema SchemaOrRef)

variable {known : KnownTypes}

/-- An element of a collection is a scalar, or of the class of a reference. -/
theorem elementType?_eq_some {nullable : Bool} {schema : SchemaOrRef} {type : TypeRef}
    (h : elementType? known nullable schema = some type) :
    (∃ scalar, type = .scalar scalar nullable) ∨
      ∃ path name, schema = .ref path ∧ known.resolve path = .entity name ∧
        type = .entity name := by
  -- A bare primitive is a scalar, in place and behind a reference.
  have hscalar {schema : Schema} (h : (if schema.isPrimitive = true then
      (ScalarType.ofSchema schema).toOption.map (TypeRef.scalar · nullable) else none) =
        some type) : ∃ scalar, type = .scalar scalar nullable := by
    split_ifs at h
    obtain ⟨scalar, -, rfl⟩ := Option.map_eq_some_iff.mp h
    exact ⟨scalar, rfl⟩
  unfold elementType? at h
  cases schema with
  | inline schema => exact Or.inl (hscalar h)
  | ref path =>
    simp only at h
    split at h
    · rename_i name hr
      obtain rfl := Option.some.inj h
      exact Or.inr ⟨path, name, rfl, hr, rfl⟩
    · exact Or.inl (hscalar h)

/-- The reference that a position is, or that the schema there wraps. -/
def wrappedRef? : SchemaOrRef → Option String
  | .ref path => some path
  | .inline schema =>
    match schema.anyOf, schema.allOf with
    | [], [.ref path] => some path
    | [.ref path], _ => some path
    | _, _ => none

/-- Whether the schema that wraps a reference is nullable, if one does. -/
def wrapperNullable : SchemaOrRef → Bool
  | .ref _ => false
  | .inline schema => (wrappedRef? (.inline schema)).isSome && schema.isNullable

namespace Property

variable {site : PropertySite} {schema : Schema} {property : Property}

theorem ofList_eq_ok (h : ofList known site schema = .ok property) :
    ∃ items item, schema.items = some items ∧
      elementType? known (site.nullable || schema.isNullable) items = some item ∧
      property = {
        name := site.name
        typeRef := .list item
        isList := true
        isRequired := site.required
        nullable := site.nullable || schema.isNullable
        isDate := false
        isBasicType := item.isScalar
        defaultValue := some .emptyList
        enumTable := none
        description := site.description.or schema.description } := by
  unfold ofList at h
  cases hi : schema.items with
  | none =>
    rw [hi] at h
    exact absurd h nofun
  | some items =>
    rw [hi] at h
    simp only at h
    cases ht : elementType? known (site.nullable || schema.isNullable) items with
    | none =>
      rw [ht] at h
      exact absurd h nofun
    | some item =>
      rw [ht] at h
      exact ⟨items, item, rfl, ht, (Except.ok.inj h).symm⟩

theorem ofMap_eq_ok (h : ofMap known site schema = .ok property) :
    ∃ values value, schema.additionalProperties = some (.values values) ∧
      elementType? known (site.nullable || schema.isNullable) values = some value ∧
      property = {
        name := site.name
        typeRef := .map value
        isList := false
        isRequired := site.required
        nullable := site.nullable || schema.isNullable
        isDate := false
        isBasicType := value.isScalar
        defaultValue := some .emptyMap
        enumTable := none
        description := site.description.or schema.description } := by
  unfold ofMap at h
  split_ifs at h
  · exact absurd h nofun
  · cases ha : schema.additionalProperties with
    | none =>
      rw [ha] at h
      exact absurd h nofun
    | some additional =>
      rw [ha] at h
      cases additional with
      | allowed b => exact absurd h nofun
      | values values =>
        simp only at h
        cases ht : elementType? known (site.nullable || schema.isNullable) values with
        | none =>
          rw [ht] at h
          exact absurd h nofun
        | some value =>
          rw [ht] at h
          exact ⟨values, value, rfl, ht, (Except.ok.inj h).symm⟩

theorem ofScalar_eq_ok (h : ofScalar site schema = .ok property) :
    ∃ type defaultValue table, ScalarType.ofSchema schema = .ok type ∧
      scalarDefault site.required (site.nullable || schema.isNullable) schema.defaultValue =
        .ok defaultValue ∧
      enumTable? site.name type schema.enumeration = .ok table ∧
      property = {
        name := site.name
        typeRef := .scalar type
          ((site.nullable || schema.isNullable) && defaultValue == some .null)
        isList := false
        isRequired := site.required
        nullable := site.nullable || schema.isNullable
        isDate := schema.isDate
        isBasicType := true
        defaultValue
        enumTable := table
        description := site.description.or schema.description } := by
  unfold ofScalar at h
  split_ifs at h
  · exact absurd h nofun
  · obtain ⟨type, ht, h⟩ := bind_eq_ok.mp h
    obtain ⟨defaultValue, hd, h⟩ := bind_eq_ok.mp h
    obtain ⟨table, he, h⟩ := bind_eq_ok.mp h
    exact ⟨type, defaultValue, table, ht, hd, he, (Except.ok.inj h).symm⟩

/-- How a property may be made at a site: of a schema that wraps no reference, or of a class. -/
inductive MadeAt (known : KnownTypes) (site : PropertySite) (property : Property) : Prop where
  | list (schema : Schema) (h : ofList known site schema = .ok property)
  | map (schema : Schema) (h : ofMap known site schema = .ok property)
  | scalar (schema : Schema) (h : ofScalar site schema = .ok property)
  | entity (className : String) (h : property = ofEntity site className)

theorem madeAt_of_ofSchema (h : ofSchema known site schema = .ok property) :
    MadeAt known site property := by
  unfold ofSchema at h
  split at h
  · exact .list schema h
  · exact .map schema h
  · exact .scalar schema h

theorem madeAt_of_ofRef {path : String} (h : ofRef known site path = .ok property) :
    MadeAt known site property := by
  unfold ofRef at h
  split at h
  · exact madeAt_of_ofSchema h
  · exact .entity _ (Except.ok.inj h).symm

/-- A property is made of the reference that its position wraps, and is nullable if the wrapper is,
or else of the schema there. -/
theorem resolve_cases {name : String} {required : Bool} {position : SchemaOrRef}
    (h : resolve known name required position = .ok property) :
    (∃ schema, position = .inline schema ∧ wrappedRef? position = none ∧
      ofSchema known ⟨name, required, false, none⟩ schema = .ok property) ∨
    ∃ path description, wrappedRef? position = some path ∧
      ofRef known ⟨name, required, wrapperNullable position, description⟩ path = .ok property := by
  cases position with
  | ref path => exact Or.inr ⟨path, _, rfl, h⟩
  | inline schema =>
    have hnullable {path : String} (hw : wrappedRef? (.inline schema) = some path) :
        wrapperNullable (.inline schema) = schema.isNullable := by
      rw [wrapperNullable, hw, Option.isSome_some, Bool.true_and]
    simp only [resolve] at h
    -- A wrapper around one reference counts as that, and any other combination is refused.
    split at h
    · rename_i hany hall hone
      exact Or.inl ⟨schema, rfl, by simp only [wrappedRef?, hany, hall], h⟩
    · cases h
    · rename_i path hany hall
      have hw : wrappedRef? (.inline schema) = some path := by
        simp only [wrappedRef?, hany, hall]
      exact Or.inr ⟨path, schema.description, hw, by rwa [hnullable hw]⟩
    · cases h
    · rename_i path hany
      have hw : wrappedRef? (.inline schema) = some path := by
        simp only [wrappedRef?, hany]
      exact Or.inr ⟨path, schema.description, hw, by rwa [hnullable hw]⟩
    · cases h

theorem resolve_eq_ok {name : String} {required : Bool} {schema : SchemaOrRef}
    (h : resolve known name required schema = .ok property) :
    ∃ nullable description, MadeAt known ⟨name, required, nullable, description⟩ property := by
  obtain ⟨schema, -, -, hs⟩ | ⟨path, description, -, hr⟩ := resolve_cases h
  · exact ⟨false, none, madeAt_of_ofSchema hs⟩
  · exact ⟨_, description, madeAt_of_ofRef hr⟩

end Property

end FunctionForge.Model
