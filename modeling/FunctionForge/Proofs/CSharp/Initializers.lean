import FunctionForge.CSharp.TypeName
import FunctionForge.Proofs.Model.Shapes
import FunctionForge.Proofs.Text.Ends

/-!
# What properties are initialised with

A collection is initialised with an empty one of its elements, and a property with a class as its
type with a new instance or with null.  A scalar is initialised with its default, unless that is
null and null is no value of its type (`InitializerFits`).  This holds of every property that is
made, since it holds of every shape that a property has (`fits_of_resolve`).
-/

namespace FunctionForge.CSharp

open Document (Schema SchemaOrRef)
open Model (IsEntity IsListOf IsMapTo IsScalar Property)

variable {property : Property}

/-- A type of which null is a value: texts, scalars with a mark, and classes. -/
def AllowsNull : TypeRef → Prop
  | .scalar type marked => type = .string ∨ marked = true
  | .entity _ => True
  | .list _ => False
  | .map _ => False

/-- What a property of a type is initialised with. -/
def FitsType (property : Property) : TypeRef → Prop
  | .scalar _ _ =>
    ∀ text, initializer? property = some text →
      property.defaultValue = some (.literal text) ∨
        property.defaultValue = some .null ∧ text = "null"
  | .entity className =>
    initializer? property =
      some (if property.isRequired = true then "new " ++ className ++ "()" else "null")
  | .list element =>
    typeName property.typeRef = "ICollection<" ++ typeName element ++ ">" ∧
      initializer? property = some ("new List<" ++ typeName element ++ ">()")
  | .map element =>
    typeName property.typeRef = "Dictionary<string, " ++ typeName element ++ ">" ∧
      initializer? property = some ("new Dictionary<string, " ++ typeName element ++ ">()")

/-- What a property is initialised with fits its type. -/
structure InitializerFits (property : Property) : Prop where
  fits : FitsType property property.typeRef
  null : initializer? property = some "null" ↔
    property.defaultValue = some .null ∧ AllowsNull property.typeRef
  none : initializer? property = none ↔
    property.defaultValue = none ∨
      property.defaultValue = some .null ∧ ¬AllowsNull property.typeRef

theorem typeName_list (item : TypeRef) :
    typeName (.list item) = "ICollection<" ++ typeName item ++ ">" := rfl

theorem typeName_map (value : TypeRef) :
    typeName (.map value) = "Dictionary<string, " ++ typeName value ++ ">" := rfl

/-- A scalar that starts with null is initialised with it if its type allows null. -/
theorem initializer?_of_null {type : ScalarType} {marked : Bool}
    (ht : property.typeRef = .scalar type marked) (hd : property.defaultValue = some .null) :
    (AllowsNull property.typeRef ∧ initializer? property = some "null") ∨
      (¬AllowsNull property.typeRef ∧ initializer? property = none) := by
  have hallows : AllowsNull property.typeRef ↔ type = .string ∨ marked = true := by
    rw [ht, AllowsNull]
  rw [hallows, initializer?, hd, ht]
  change _ ∧ (if (type.acceptsNullMark && !marked) = true then none else some "null") = _ ∨
    _ ∧ (if (type.acceptsNullMark && !marked) = true then none else some "null") = _
  -- Texts are null without a mark, any other scalar only with one.
  by_cases hstring : type = .string
  · subst hstring
    exact Or.inl ⟨Or.inl rfl, rfl⟩
  · have haccepts : type.acceptsNullMark = true := bne_iff_ne.mpr hstring
    rw [haccepts]
    cases marked with
    | true => exact Or.inl ⟨Or.inr rfl, rfl⟩
    | false => exact Or.inr ⟨not_or.mpr ⟨hstring, Bool.false_ne_true⟩, rfl⟩

theorem fits_of_isScalar {type : ScalarType} {marked : Bool} (h : IsScalar property type marked) :
    InitializerFits property := by
  cases hd : property.defaultValue with
  | none =>
    have hinit : initializer? property = none := by rw [initializer?, hd]; rfl
    refine ⟨?_, by simp [hinit, hd], by simp [hinit, hd]⟩
    rw [h.typeRef]
    exact fun text ht => absurd (hinit.symm.trans ht) nofun
  | some defaultValue =>
    -- A default is null, which not every type is started with, or a literal.
    obtain rfl | ⟨literal, rfl, hne⟩ := h.defaultValue defaultValue hd
    · obtain ⟨hallows, hinit⟩ | ⟨hnot, hinit⟩ := initializer?_of_null h.typeRef hd
      · refine ⟨?_, by simp [hinit, hd, hallows], by simp [hinit, hd, hallows]⟩
        rw [h.typeRef]
        exact fun text ht => Or.inr ⟨hd, (Option.some.inj (hinit.symm.trans ht)).symm⟩
      · refine ⟨?_, by simp [hinit, hd, hnot], by simp [hinit, hd, hnot]⟩
        rw [h.typeRef]
        exact fun text ht => absurd (hinit.symm.trans ht) nofun
    · have hinit : initializer? property = some literal := by rw [initializer?, hd]; rfl
      refine ⟨?_, by simp [hinit, hd, hne], by simp [hinit, hd]⟩
      rw [h.typeRef]
      intro text ht
      obtain rfl := Option.some.inj (hinit.symm.trans ht)
      exact Or.inl hd

theorem fits_of_isEntity {className : String} (h : IsEntity property className) :
    InitializerFits property := by
  have hinit : initializer? property =
      some (if property.isRequired = true then "new " ++ className ++ "()" else "null") := by
    rw [initializer?, h.defaultValue, h.typeRef]
    split_ifs
    · rfl
    · rfl
  have hallows : AllowsNull property.typeRef := by
    rw [h.typeRef]
    exact trivial
  have hne : "new " ++ className ++ "()" ≠ "null" := by
    rw [String.append_assoc]
    exact Text.append_ne 2 (by decide) (by decide) _
  refine ⟨?_, ?_, by simp [hinit, h.defaultValue, hallows]⟩
  · rw [h.typeRef]
    exact hinit
  · rw [hinit, h.defaultValue]
    by_cases hr : property.isRequired = true
    · simp [hr, hne]
    · simp [hr, hallows]

theorem fits_of_isListOf {element : TypeRef} (h : IsListOf property element) :
    InitializerFits property := by
  have hinit : initializer? property = some ("new List<" ++ typeName element ++ ">()") := by
    rw [initializer?, h.defaultValue, h.typeRef]
    rfl
  have hne : "new List<" ++ typeName element ++ ">()" ≠ "null" := by
    rw [String.append_assoc]
    exact Text.append_ne 2 (by decide) (by decide) _
  refine ⟨?_, ?_, ?_⟩
  · have hname : typeName property.typeRef = "ICollection<" ++ typeName element ++ ">" := by
      rw [h.typeRef, typeName_list]
    rw [h.typeRef]
    exact ⟨hname, hinit⟩
  · simp [hinit, h.defaultValue, hne]
  · simp [hinit, h.defaultValue]

theorem fits_of_isMapTo {element : TypeRef} (h : IsMapTo property element) :
    InitializerFits property := by
  have hname : typeName property.typeRef = "Dictionary<string, " ++ typeName element ++ ">" := by
    rw [h.typeRef, typeName_map]
  have hinit : initializer? property =
      some ("new Dictionary<string, " ++ typeName element ++ ">()") := by
    -- The name of the type stands in the middle of both texts.
    have hopening : "new Dictionary<string, " = "new " ++ "Dictionary<string, " := by decide
    have hclosing : ">()" = ">" ++ "()" := by decide
    rw [initializer?, h.defaultValue]
    change some (newValue property.typeRef) = _
    rw [newValue, hname, hopening, hclosing]
    simp only [String.append_assoc]
  have hne : "new Dictionary<string, " ++ typeName element ++ ">()" ≠ "null" := by
    rw [String.append_assoc]
    exact Text.append_ne 2 (by decide) (by decide) _
  refine ⟨?_, ?_, ?_⟩
  · rw [h.typeRef]
    exact ⟨hname, hinit⟩
  · simp [hinit, h.defaultValue, hne]
  · simp [hinit, h.defaultValue]

/-- Whatever shape a property has, what it is initialised with fits. -/
theorem fits_of_hasShape {shape : Model.Shape} (h : property.HasShape shape) :
    InitializerFits property := by
  cases shape with
  | scalar =>
    obtain ⟨type, marked, h⟩ := h
    exact fits_of_isScalar h
  | entity =>
    obtain ⟨className, h⟩ := h
    exact fits_of_isEntity h
  | list =>
    obtain ⟨element, h⟩ := h
    exact fits_of_isListOf h
  | map =>
    obtain ⟨element, h⟩ := h
    exact fits_of_isMapTo h

/-- Every property that is made is required if it is declared so, has exactly one shape, and is
initialised with something that fits its type. -/
theorem fits_of_resolve {known : KnownTypes} {name : String} {required : Bool}
    {schema : SchemaOrRef} (h : Property.resolve known name required schema = .ok property) :
    property.name = name ∧ property.isRequired = required ∧
      (∃! shape, property.HasShape shape) ∧ InitializerFits property := by
  obtain ⟨nullable, description, hmade⟩ := Property.resolve_eq_ok h
  obtain ⟨hname, hrequired⟩ := hmade.name_isRequired
  obtain ⟨shape, hs, hunique⟩ := hmade.existsUnique_shape
  exact ⟨hname, hrequired, ⟨shape, hs, hunique⟩, fits_of_hasShape hs⟩

/-- A list of ages that may be null. -/
def ages : Schema :=
  { Schema.blank with
    types := some (.several [.array, .null])
    items := some (.inline { Schema.blank with types := some (.single .integer) }) }

/-- A list of ages is a list of marked numbers, and starts empty. -/
theorem fits_of_resolve_ages : ∃ property,
    Property.resolve .empty "ages" false (.inline ages) = .ok property ∧
      property.HasShape .list ∧ typeName property.typeRef = "ICollection<int?>" ∧
      initializer? property = some "new List<int?>()" := by
  obtain ⟨property, hresolve, htype⟩ : ∃ property,
      Property.resolve .empty "ages" false (.inline ages) = .ok property ∧
        property.typeRef = .list (.scalar .int true) := ⟨_, rfl, rfl⟩
  obtain ⟨-, -, ⟨shape, hshape, -⟩, hfits⟩ := fits_of_resolve hresolve
  have hlist : shape = .list := by rw [hshape.eq_shapeOf, htype, Property.shapeOf]
  obtain ⟨hname, hinit⟩ : FitsType property (.list (.scalar .int true)) := htype ▸ hfits.fits
  have hint : typeName (.scalar .int true) = "int?" := by decide
  rw [hint] at hname hinit
  exact ⟨property, hresolve, hlist ▸ hshape, hname, hinit⟩

end FunctionForge.CSharp
