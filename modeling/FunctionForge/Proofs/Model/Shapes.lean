import FunctionForge.Proofs.Model.Enumerations
import FunctionForge.Proofs.Model.Literals

/-!
# The shapes of properties

A property is a scalar, a value of a class, a list or a map, and `Property.HasShape` says what its
parts are then: its type, its flags, its default and its enumerated values.  Every way to make a
property sets the parts of one shape, so that every property that is made has exactly one
(`Property.MadeAt.existsUnique_shape`).
-/

namespace FunctionForge.Model

open Document (Schema SchemaOrRef)

variable {known : KnownTypes}

/-! ### Parts of scalars -/

/-- A declared default is null, or a literal of something else. -/
theorem declaredDefault_eq_ok {value : Value} {defaultValue : DefaultValue}
    (h : declaredDefault value = .ok defaultValue) :
    defaultValue = .null ∨ ∃ text, defaultValue = .literal text ∧ text ≠ "null" := by
  have hliteral (hv : value ≠ .null) (h : DefaultValue.literal (literal value) = defaultValue) :
      defaultValue = .null ∨ ∃ text, defaultValue = .literal text ∧ text ≠ "null" :=
    Or.inr ⟨_, h.symm, mt literal_eq_null_iff.mp hv⟩
  cases value with
  | null => exact Or.inl (Except.ok.inj h).symm
  | bool b => exact hliteral nofun (Except.ok.inj h)
  | number n => exact hliteral nofun (Except.ok.inj h)
  | string s => exact hliteral nofun (Except.ok.inj h)
  | array items => exact absurd h nofun
  | object members => exact absurd h nofun

/-- A scalar has a default unless it is required and not nullable, and it is null or a literal. -/
theorem scalarDefault_eq_ok {required nullable : Bool} {declared : Option Value}
    {defaultValue : Option DefaultValue}
    (h : scalarDefault required nullable declared = .ok defaultValue) :
    (defaultValue = none → required = true ∧ nullable = false) ∧
      ∀ value, defaultValue = some value →
        value = .null ∨ ∃ text, value = .literal text ∧ text ≠ "null" := by
  cases declared with
  | some value =>
    obtain ⟨found, hf, rfl⟩ := map_eq_ok.mp h
    refine ⟨nofun, fun value heq => ?_⟩
    obtain rfl := Option.some.inj heq
    exact declaredDefault_eq_ok hf
  | none =>
    obtain rfl := Except.ok.inj h
    -- Without a declared default, a scalar is null if it may be missing.
    split_ifs with hnull
    · exact ⟨nofun, fun value heq => Or.inl (Option.some.inj heq).symm⟩
    · rw [Bool.or_eq_true, not_or, Bool.not_eq_true, Bool.not_eq_true, Bool.not_eq_false'] at hnull
      exact ⟨fun _ => ⟨hnull.2, hnull.1⟩, nofun⟩

theorem mem_of_enumTable?_eq_ok {name : String} {type : ScalarType} {values : List Value}
    {table : Option EnumTable} (h : enumTable? name type values = .ok table)
    (hsome : table.isSome = true) : type ∈ [.string, .int, .long, .double] := by
  obtain ⟨-, rfl⟩ | ⟨hconstants, -, rfl⟩ := enumTable?_eq_ok_iff.mp h
  · exact absurd hsome Bool.false_ne_true
  · -- There is a table only for a type whose values can be enumerated.
    rw [hasConstants, Bool.and_eq_true] at hconstants
    cases type with
    | string | int | long | double => decide
    | guid | dateTime | ulong | uint | bool => exact absurd hconstants.2 Bool.false_ne_true

theorem eq_dateTime_of_isDate {schema : Schema} {type : ScalarType}
    (h : ScalarType.ofSchema schema = .ok type) (hdate : schema.isDate = true) :
    type = .dateTime := by
  rw [Schema.isDate, Bool.and_eq_true, beq_iff_eq, beq_iff_eq] at hdate
  rw [ScalarType.ofSchema, hdate.1, hdate.2] at h
  exact (Except.ok.inj h).symm

/-! ### Elements -/

/-- A type of the elements of a collection: a scalar or a class, but no collection. -/
def IsElement : TypeRef → Prop
  | .scalar _ _ => True
  | .entity _ => True
  | .list _ => False
  | .map _ => False

theorem isElement_of_elementType? {nullable : Bool} {schema : SchemaOrRef} {type : TypeRef}
    (h : elementType? known nullable schema = some type) : IsElement type := by
  obtain ⟨scalar, rfl⟩ | ⟨path, name, -, -, rfl⟩ := elementType?_eq_some h
  · exact trivial
  · exact trivial

/-! ### Shapes -/

/-- A scalar of a type, with the mark of a nullable one or without. -/
structure IsScalar (property : Property) (type : ScalarType) (marked : Bool) : Prop where
  typeRef : property.typeRef = .scalar type marked
  isBasicType : property.isBasicType = true
  isList : property.isList = false
  marked : marked = true → property.nullable = true ∧ property.defaultValue = some .null
  isDate : property.isDate = true → type = .dateTime
  enumTable : property.enumTable.isSome = true → type ∈ [.string, .int, .long, .double]
  /-- Without a default it has to be given. -/
  noDefault : property.defaultValue = none → property.isRequired = true ∧ property.nullable = false
  /-- A default is null or a literal. -/
  defaultValue : ∀ defaultValue, property.defaultValue = some defaultValue →
    defaultValue = .null ∨ ∃ text, defaultValue = .literal text ∧ text ≠ "null"

/-- A value of a class. -/
structure IsEntity (property : Property) (className : String) : Prop where
  typeRef : property.typeRef = .entity className
  isBasicType : property.isBasicType = false
  isList : property.isList = false
  isDate : property.isDate = false
  enumTable : property.enumTable = none
  nullable : property.isRequired = false → property.nullable = true
  defaultValue : property.defaultValue =
    some (if property.isRequired = true then .newInstance else .null)

/-- A collection of elements, which is copied by value if they are scalars. -/
structure IsCollection (property : Property) (element : TypeRef) : Prop where
  isElement : IsElement element
  isBasicType : property.isBasicType = true ↔ element.isScalar = true
  isDate : property.isDate = false
  enumTable : property.enumTable = none

/-- A list of elements. -/
structure IsListOf (property : Property) (element : TypeRef) : Prop
    extends IsCollection property element where
  typeRef : property.typeRef = .list element
  isList : property.isList = true
  defaultValue : property.defaultValue = some .emptyList

/-- A map to elements. -/
structure IsMapTo (property : Property) (element : TypeRef) : Prop
    extends IsCollection property element where
  typeRef : property.typeRef = .map element
  isList : property.isList = false
  defaultValue : property.defaultValue = some .emptyMap

/-- What a property can be. -/
inductive Shape where
  | scalar
  | entity
  | list
  | map

namespace Property

variable {site : PropertySite} {schema : Schema} {property : Property}

/-- A property has a shape, and all parts of that shape. -/
def HasShape (property : Property) : Shape → Prop
  | .scalar => ∃ type marked, IsScalar property type marked
  | .entity => ∃ className, IsEntity property className
  | .list => ∃ element, IsListOf property element
  | .map => ∃ element, IsMapTo property element

/-- What is made as a scalar has the parts of one. -/
theorem isScalar_of_ofScalar (h : ofScalar site schema = .ok property) :
    ∃ type marked, IsScalar property type marked := by
  obtain ⟨type, defaultValue, table, ht, hd, he, rfl⟩ := ofScalar_eq_ok h
  obtain ⟨hnone, hsome⟩ := scalarDefault_eq_ok hd
  refine ⟨type, _, {
    typeRef := rfl
    isBasicType := rfl
    isList := rfl
    marked := fun hmarked => ?_
    isDate := eq_dateTime_of_isDate ht
    enumTable := mem_of_enumTable?_eq_ok he
    noDefault := hnone
    defaultValue := hsome }⟩
  rwa [Bool.and_eq_true, beq_iff_eq] at hmarked

theorem isEntity_ofEntity (site : PropertySite) (className : String) :
    IsEntity (ofEntity site className) className where
  typeRef := rfl
  isBasicType := rfl
  isList := rfl
  isDate := rfl
  enumTable := rfl
  nullable := fun h => by
    change site.required = false at h
    change (!site.required || site.nullable) = true
    rw [h]
    rfl
  defaultValue := rfl

/-- What is made as a list has the parts of one. -/
theorem isListOf_of_ofList (h : ofList known site schema = .ok property) :
    ∃ element, IsListOf property element := by
  obtain ⟨items, item, -, ht, rfl⟩ := ofList_eq_ok h
  exact ⟨item, {
    isElement := isElement_of_elementType? ht
    isBasicType := Iff.rfl
    isDate := rfl
    enumTable := rfl
    typeRef := rfl
    isList := rfl
    defaultValue := rfl }⟩

/-- What is made as a map has the parts of one. -/
theorem isMapTo_of_ofMap (h : ofMap known site schema = .ok property) :
    ∃ element, IsMapTo property element := by
  obtain ⟨values, value, -, ht, rfl⟩ := ofMap_eq_ok h
  exact ⟨value, {
    isElement := isElement_of_elementType? ht
    isBasicType := Iff.rfl
    isDate := rfl
    enumTable := rfl
    typeRef := rfl
    isList := rfl
    defaultValue := rfl }⟩

/-- The shape that goes with a type. -/
def shapeOf : TypeRef → Shape
  | .scalar _ _ => .scalar
  | .entity _ => .entity
  | .list _ => .list
  | .map _ => .map

/-- The shape of a property is told by its type. -/
theorem HasShape.eq_shapeOf {shape : Shape} (h : property.HasShape shape) :
    shape = shapeOf property.typeRef := by
  cases shape with
  | scalar =>
    obtain ⟨type, marked, h⟩ := h
    rw [h.typeRef, shapeOf]
  | entity =>
    obtain ⟨className, h⟩ := h
    rw [h.typeRef, shapeOf]
  | list =>
    obtain ⟨element, h⟩ := h
    rw [h.typeRef, shapeOf]
  | map =>
    obtain ⟨element, h⟩ := h
    rw [h.typeRef, shapeOf]

/-- A property keeps its name, and is required if it is declared so. -/
theorem MadeAt.name_isRequired (h : MadeAt known site property) :
    property.name = site.name ∧ property.isRequired = site.required := by
  cases h with
  | list schema h =>
    obtain ⟨_, _, -, -, rfl⟩ := ofList_eq_ok h
    exact ⟨rfl, rfl⟩
  | map schema h =>
    obtain ⟨_, _, -, -, rfl⟩ := ofMap_eq_ok h
    exact ⟨rfl, rfl⟩
  | scalar schema h =>
    obtain ⟨_, _, _, -, -, -, rfl⟩ := ofScalar_eq_ok h
    exact ⟨rfl, rfl⟩
  | entity className h =>
    rw [h]
    exact ⟨rfl, rfl⟩

theorem MadeAt.existsUnique_shape (h : MadeAt known site property) :
    ∃! shape, property.HasShape shape := by
  have hshape : ∃ shape, property.HasShape shape := by
    cases h with
    | list schema h => exact ⟨.list, isListOf_of_ofList h⟩
    | map schema h => exact ⟨.map, isMapTo_of_ofMap h⟩
    | scalar schema h => exact ⟨.scalar, isScalar_of_ofScalar h⟩
    | entity className h =>
      rw [h]
      exact ⟨.entity, className, isEntity_ofEntity site className⟩
  obtain ⟨shape, hs⟩ := hshape
  exact ⟨shape, hs, fun other ho => ho.eq_shapeOf.trans hs.eq_shapeOf.symm⟩

end Property

end FunctionForge.Model
