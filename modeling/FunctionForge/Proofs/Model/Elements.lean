import FunctionForge.Proofs.Model.Governing

/-!
# Elements of collections

The elements of a list or a map have a schema of their own, given in place or as the body of an
alias, and that schema tells their scalar type (`elementType?_scalar_iff`).  It does not tell
whether they carry the mark of nullable ones: an element is marked exactly if the collection may be
null, by its own schema or by the one around it.  So the mark is what the schema of the elements
says only where both agree (`marked_element_iff`).
-/

namespace FunctionForge

open Document (AdditionalProperties Schema SchemaOrRef)

/-- The type of the elements of a list or a map. -/
def TypeRef.element? : TypeRef → Option TypeRef
  | .list item => some item
  | .map value => some value
  | .scalar _ _ => none
  | .entity _ => none

namespace Model

variable {known : KnownTypes} {type : ScalarType} {marked : Bool}

/-- Elements are scalars if the schema behind their position is a bare primitive; they are marked as
they are told to be. -/
theorem elementType?_scalar_iff {nullable : Bool} {element : SchemaOrRef} :
    elementType? known nullable element = some (.scalar type marked) ↔
      marked = nullable ∧ ∃ body, Governs known body element ∧ body.isPrimitive = true ∧
        ScalarType.ofSchema body = .ok type := by
  have hbody (body : Schema) : (if body.isPrimitive = true then
      (ScalarType.ofSchema body).toOption.map (TypeRef.scalar · nullable) else none) =
        some (.scalar type marked) ↔
      marked = nullable ∧ body.isPrimitive = true ∧ ScalarType.ofSchema body = .ok type := by
    cases body.isPrimitive with
    | false => simp
    | true =>
      cases ScalarType.ofSchema body with
      | error cause => simp [Except.toOption]
      | ok found => simp [Except.toOption, and_comm, eq_comm]
  -- The schema behind the position decides, wherever it stands.
  have hgoverns {body : Schema} (hg : Governs known body element) :
      elementType? known nullable element = some (.scalar type marked) ↔
        marked = nullable ∧ body.isPrimitive = true ∧ ScalarType.ofSchema body = .ok type := by
    rw [← hbody]
    cases hg with
    | inline => rfl
    | ref hr => rw [elementType?, hr]
  constructor
  · intro h
    obtain ⟨body, hg⟩ : ∃ body, Governs known body element := by
      cases element with
      | inline body => exact ⟨body, .inline⟩
      | ref path =>
        rcases hr : known.resolve path with body | className
        · exact ⟨body, .ref hr⟩
        · rw [elementType?, hr] at h
          cases h
    obtain ⟨hmarked, hprimitive, htype⟩ := (hgoverns hg).mp h
    exact ⟨hmarked, body, hg, hprimitive, htype⟩
  · rintro ⟨hmarked, body, hg, hprimitive, htype⟩
    exact (hgoverns hg).mpr ⟨hmarked, hprimitive, htype⟩

/-! ### From a collection to its elements -/

/-- The position of the elements in the schema of a list or a map. -/
def elementPosition? (schema : Schema) : Option SchemaOrRef :=
  match schema.primaryType with
  | some .array => schema.items
  | some .object =>
    match schema.additionalProperties with
    | some (.values values) => some values
    | _ => none
  | _ => none

/-- The elements of a collection have the type of their position, under the mark that the collection
itself would have. -/
theorem elementType?_of_ofSchema {site : PropertySite} {schema : Schema} {property : Property}
    {element : TypeRef} (h : Property.ofSchema known site schema = .ok property)
    (he : property.typeRef.element? = some element) :
    ∃ position, elementPosition? schema = some position ∧
      property.nullable = (site.nullable || schema.isNullable) ∧
      elementType? known property.nullable position = some element := by
  rw [Property.ofSchema] at h
  split at h
  · rename_i harray
    obtain ⟨items, item, hi, ht, rfl⟩ := Property.ofList_eq_ok h
    obtain rfl : item = element := Option.some.inj he
    exact ⟨items, by simp only [elementPosition?, harray, hi], rfl, ht⟩
  · rename_i hobject
    obtain ⟨values, value, hv, ht, rfl⟩ := Property.ofMap_eq_ok h
    obtain rfl : value = element := Option.some.inj he
    exact ⟨values, by simp only [elementPosition?, hobject, hv], rfl, ht⟩
  · -- A scalar has no elements.
    obtain ⟨type, defaultValue, table, -, -, -, rfl⟩ := Property.ofScalar_eq_ok h
    exact absurd he nofun

/-- The scalar elements of a collection have the type of the schema that governs their position, but
the mark of the collection: they are marked exactly if the schema of the collection is nullable, or
the one around it.  That schema says the same of the elements only where it is nullable exactly if
the collection is. -/
theorem marked_element_iff {name : String} {required : Bool} {position : SchemaOrRef}
    {property : Property} (h : Property.resolve known name required position = .ok property)
    (he : property.typeRef.element? = some (.scalar type marked)) :
    ∃ schema element body, Governs known schema (unwrapped position) ∧
      elementPosition? schema = some element ∧ Governs known body element ∧
      ScalarType.ofSchema body = .ok type ∧
      (marked = true ↔ wrapperNullable position = true ∨ schema.isNullable = true) ∧
      ((marked = true ↔ body.isNullable = true) ↔
        (property.nullable = true ↔ body.isNullable = true)) := by
  obtain ⟨path, className, description, -, -, rfl⟩ | ⟨schema, description, hg, hs⟩ :=
    Property.resolve_governed h
  · exact absurd he nofun
  · obtain ⟨element, hp, hnullable, ht⟩ := elementType?_of_ofSchema hs he
    obtain ⟨hmarked, body, hbody, -, htype⟩ := elementType?_scalar_iff.mp ht
    refine ⟨schema, element, body, hg, hp, hbody, htype, ?_, ?_⟩
    · rw [hmarked, hnullable, Bool.or_eq_true]
    · rw [hmarked]

/-- A list of numbers, which may be null itself or have numbers in it that are. -/
def readings (list numbers : Bool) : Schema :=
  { Schema.blank with
    types := some (.single .array)
    nullable := some list
    items := some (.inline { Schema.blank with
      types := some (.single .integer)
      nullable := some numbers }) }

/-- Where both the list and its numbers may be null, the numbers are marked as their schema says. -/
theorem marked_element_iff_readings : ∃ property,
    Property.resolve .empty "readings" true (.inline (readings true true)) = .ok property ∧
      property.typeRef.element? = some (.scalar .int true) ∧ property.nullable = true := by
  obtain ⟨property, hresolve, helement⟩ : ∃ property,
      Property.resolve .empty "readings" true (.inline (readings true true)) = .ok property ∧
        property.typeRef.element? = some (.scalar .int true) := ⟨_, rfl, rfl⟩
  refine ⟨property, hresolve, helement, ?_⟩
  obtain ⟨schema, element, body, hg, hp, hbody, -, -, hiff⟩ := marked_element_iff hresolve helement
  obtain rfl : readings true true = schema := Governs.unique .inline hg
  obtain rfl := Option.some.inj hp
  have hnullable : body.isNullable = true := by
    cases hbody with
    | inline => decide
  exact (hiff.mp (iff_of_true rfl hnullable)).mpr hnullable

/-- The numbers of a list that may be null are marked, and those that may be null are not. -/
theorem element_readings :
    (∃ property,
      Property.resolve .empty "readings" true (.inline (readings true false)) = .ok property ∧
        property.typeRef.element? = some (.scalar .int true)) ∧
    ∃ property,
      Property.resolve .empty "readings" true (.inline (readings false true)) = .ok property ∧
        property.typeRef.element? = some (.scalar .int false) :=
  ⟨⟨_, rfl, rfl⟩, ⟨_, rfl, rfl⟩⟩

end Model

end FunctionForge
