import FunctionForge.Endpoint.Content
import FunctionForge.Proofs.Result
import Mathlib.Tactic.SplitIfs

/-!
# Types of properties and of contents

The type of a schema is found in two ways: for a property of a model, and for the content of a body
or a parameter.  In a position that is a reference, or a schema that combines no others, both ways
find the same type up to the marks of nullable scalars (`property_type_agrees_with_content`).  A map
is only the type of a property.  A property may fail where a content does not, but only for what it
declares besides its type: a default that has parts, or two values with one constant
(`Obstructed`).

References are followed in one way, so all that has to be compared is what is made of the schema
behind them.  `TypesAgree` lists the ways in which the two results can go together, and
`typesAgree_ofSchema` goes through the types of a schema once.
-/

namespace FunctionForge

open Document (AdditionalProperties Schema SchemaOrRef)
open Endpoint (elementOfSchema resolveElement)
open Model (EnumConstant Property PropertySite addConstant constant elementType?)

variable {schema : Schema}

/-- A type without the marks of nullable scalars. -/
def TypeRef.unmarked : TypeRef → TypeRef
  | .scalar type _ => .plain type
  | .entity name => .entity name
  | .list item => .list item.unmarked
  | .map value => .map value.unmarked

/-! ### Scalars and elements -/

/-- The bare primitives are the schemas with a scalar type and without properties. -/
theorem isPrimitive_iff : schema.isPrimitive = true ↔
    schema.properties = [] ∧ ∃ type, ScalarType.ofSchema schema = .ok type := by
  rw [Schema.isPrimitive, Bool.and_eq_true, List.isEmpty_iff, and_comm, Schema.isScalarTyped,
    ScalarType.ofSchema]
  refine and_congr_right fun _ => ?_
  rcases schema.primaryType with _ | type
  · simp [ScalarType.ofType]
  · cases type with
    | string | number | integer | boolean | array | object | null => simp [ScalarType.ofType]

theorem elementOfSchema_of_scalar (known : KnownTypes) {type : ScalarType}
    (hp : schema.properties = []) (ht : ScalarType.ofSchema schema = .ok type) :
    elementOfSchema known schema = .ok (.plain type) := by
  rw [elementOfSchema, if_pos (isPrimitive_iff.mpr ⟨hp, type, ht⟩), ht]
  rfl

/-- Whether an element has a type, and which one, does not depend on its mark. -/
theorem unmarked_elementType? (known : KnownTypes) (nullable : Bool) (element : SchemaOrRef) :
    (elementType? known nullable element).map TypeRef.unmarked =
      elementType? known false element := by
  have hscalar (body : Schema) : (if body.isPrimitive = true then
      (ScalarType.ofSchema body).toOption.map (TypeRef.scalar · nullable) else none).map
        TypeRef.unmarked =
      if body.isPrimitive = true then
        (ScalarType.ofSchema body).toOption.map (TypeRef.scalar · false) else none := by
    split_ifs
    · rw [Option.map_map]
      rfl
    · rfl
  cases element with
  | inline body => exact hscalar body
  | ref path =>
    simp only [elementType?]
    rcases known.resolve path with body | name
    · exact hscalar body
    · rfl

/-! ### What keeps a scalar from being a property -/

/-- A value has parts. -/
inductive Value.Structured : Value → Prop
  | array (items : List Value) : Structured (.array items)
  | object (members : List (String × Value)) : Structured (.object members)

/-- What a schema declares besides its type keeps it from being that of a property: a default that
has parts, or two values with one constant. -/
inductive Obstructed (name : String) (schema : Schema) : Cause → Prop
  | default {value : Value} (h : schema.defaultValue = some value) (hs : value.Structured) :
      Obstructed name schema .structuredDefault
  | enumeration {before after : List Value} {first second : Value}
      (h : schema.enumeration = before ++ second :: after) (hf : first ∈ before)
      (hc : (constant name first).name = (constant name second).name) :
      Obstructed name schema (.clashingConstants (constant name first).literal
        (constant name second).literal (constant name second).name)

/-- A scalar has no default that has parts. -/
theorem structured_of_scalarDefault {required nullable : Bool} {declared : Option Value}
    {cause : Cause} (h : Model.scalarDefault required nullable declared = .error cause) :
    cause = .structuredDefault ∧ ∃ value, declared = some value ∧ value.Structured := by
  cases declared with
  | none => exact absurd h nofun
  | some value =>
    cases value with
    | null | bool _ | number _ | string _ => exact absurd h nofun
    | array items => exact ⟨(Except.error.inj h).symm, _, rfl, .array items⟩
    | object members => exact ⟨(Except.error.inj h).symm, _, rfl, .object members⟩

/-- Adding constants fails at the first one that has the name of an earlier one. -/
theorem clash_of_foldlM {constants earlier : List EnumConstant} {cause : Cause}
    (h : constants.foldlM addConstant earlier = .error cause) :
    ∃ before first second after, constants = before ++ second :: after ∧
      first ∈ earlier ++ before ∧ first.name = second.name ∧
      cause = .clashingConstants first.literal second.literal second.name := by
  induction constants generalizing earlier with
  | nil =>
    rw [List.foldlM_nil] at h
    cases h
  | cons next rest ih =>
    rw [List.foldlM_cons, addConstant] at h
    -- The first constant whose name is taken is the one that fails.
    cases hf : earlier.find? fun other => other.name == next.name with
    | some clash =>
      rw [hf] at h
      have hname : clash.name = next.name := by simpa using List.find?_some hf
      refine ⟨[], clash, next, rest, rfl, ?_, hname, (Except.error.inj h).symm⟩
      rw [List.append_nil]
      exact List.mem_of_find?_eq_some hf
    | none =>
      rw [hf] at h
      obtain ⟨before, first, second, after, rfl, hm, hname, hcause⟩ := ih h
      refine ⟨next :: before, first, second, after, rfl, ?_, hname, hcause⟩
      rwa [List.append_assoc] at hm

/-- Values have no constants if one of them would have the name of an earlier one's constant. -/
theorem clash_of_enumTable {name : String} {values : List Value} {cause : Cause}
    (h : Model.enumTable name values = .error cause) :
    ∃ before first second after, values = before ++ second :: after ∧ first ∈ before ∧
      (constant name first).name = (constant name second).name ∧
      cause = .clashingConstants (constant name first).literal (constant name second).literal
        (constant name second).name := by
  rw [Model.enumTable] at h
  cases hc : (values.map (constant name)).foldlM addConstant [] with
  | ok constants =>
    rw [hc] at h
    exact absurd h nofun
  | error other =>
    rw [hc] at h
    obtain rfl := Except.error.inj h
    obtain ⟨start, first, second, rest, heq, hm, hname, rfl⟩ := clash_of_foldlM hc
    obtain ⟨before, tail, rfl, rfl, htail⟩ := List.map_eq_append_iff.mp heq
    obtain ⟨value, after, rfl, rfl, rfl⟩ := List.map_eq_cons_iff.mp htail
    obtain ⟨earlier, he, rfl⟩ := List.mem_map.mp hm
    exact ⟨before, earlier, value, after, rfl, he, hname, rfl⟩

theorem clash_of_enumTable? {name : String} {type : ScalarType} {values : List Value}
    {cause : Cause} (h : Model.enumTable? name type values = .error cause) :
    ∃ before first second after, values = before ++ second :: after ∧ first ∈ before ∧
      (constant name first).name = (constant name second).name ∧
      cause = .clashingConstants (constant name first).literal (constant name second).literal
        (constant name second).name := by
  rw [Model.enumTable?] at h
  split_ifs at h
  exact clash_of_enumTable (map_eq_error.mp h)

/-! ### One schema -/

/-- How the property and the content of one schema go together. -/
inductive TypesAgree (name : String) (schema : Schema) (property : Except Cause Property)
    (content : Except Cause TypeRef) : Prop
  /-- Both have the same type, and it is no map. -/
  | same {found : Property} (hp : property = .ok found) (hm : found.typeRef.isMap = false)
      (hc : content = .ok found.typeRef.unmarked)
  /-- The property is a map, which a content cannot be. -/
  | map {found : Property} (hp : property = .ok found) (hm : found.typeRef.isMap = true)
      (hc : content = .error .shapelessBody)
  /-- Only the content has a type. -/
  | obstructed {type : ScalarType} {cause : Cause} (hp : property = .error cause)
      (ho : Obstructed name schema cause) (hc : content = .ok (.plain type))
  | neither {cause cause' : Cause} (hp : property = .error cause) (hc : content = .error cause')

namespace TypesAgree

variable {name : String} {property : Except Cause Property} {content : Except Cause TypeRef}

/-- What a property comes to tells what the content comes to. -/
theorem of_property (h : TypesAgree name schema property content) {found : Property}
    (hp : property = .ok found) :
    (found.typeRef.isMap = false ∧ content = .ok found.typeRef.unmarked) ∨
      (found.typeRef.isMap = true ∧ content = .error .shapelessBody) := by
  cases h with
  | same hp' hm hc =>
    obtain rfl := Except.ok.inj (hp'.symm.trans hp)
    exact Or.inl ⟨hm, hc⟩
  | map hp' hm hc =>
    obtain rfl := Except.ok.inj (hp'.symm.trans hp)
    exact Or.inr ⟨hm, hc⟩
  | obstructed hp' _ _ => exact absurd (hp'.symm.trans hp) nofun
  | neither hp' _ => exact absurd (hp'.symm.trans hp) nofun

/-- What a content comes to tells what the property comes to, or what keeps it from coming to
anything. -/
theorem of_content (h : TypesAgree name schema property content) {type : TypeRef}
    (hc : content = .ok type) :
    (∃ found, property = .ok found ∧ found.typeRef.unmarked = type) ∨
      ∃ cause, property = .error cause ∧ Obstructed name schema cause := by
  cases h with
  | same hp _ hc' => exact Or.inl ⟨_, hp, Except.ok.inj (hc'.symm.trans hc)⟩
  | map _ _ hc' => exact absurd (hc'.symm.trans hc) nofun
  | obstructed hp ho _ => exact Or.inr ⟨_, hp, ho⟩
  | neither _ hc' => exact absurd (hc'.symm.trans hc) nofun

end TypesAgree

theorem typesAgree_ofList (known : KnownTypes) (site : PropertySite)
    (ha : schema.primaryType = some .array) :
    TypesAgree site.name schema (Property.ofList known site schema)
      (elementOfSchema known schema) := by
  have hprimitive : ¬schema.isPrimitive = true := by
    simp [Schema.isPrimitive, Schema.isScalarTyped, ha]
  rw [elementOfSchema, if_neg hprimitive, if_pos ha]
  unfold Property.ofList
  cases schema.items with
  | none => exact .neither rfl rfl
  | some items =>
    have hitem := unmarked_elementType? known (site.nullable || schema.isNullable) items
    simp only [Option.bind_some, ← hitem]
    cases elementType? known (site.nullable || schema.isNullable) items with
    | none => exact .neither rfl rfl
    | some item => exact .same rfl rfl rfl

theorem typesAgree_ofMap (known : KnownTypes) (site : PropertySite)
    (ho : schema.primaryType = some .object) :
    TypesAgree site.name schema (Property.ofMap known site schema)
      (elementOfSchema known schema) := by
  have hprimitive : ¬schema.isPrimitive = true := by
    simp [Schema.isPrimitive, Schema.isScalarTyped, ho]
  rw [elementOfSchema, if_neg hprimitive, if_neg (by rw [ho]; exact nofun)]
  cases hp : Property.ofMap known site schema with
  | error cause => exact .neither rfl rfl
  | ok found =>
    refine .map rfl ?_ rfl
    unfold Property.ofMap at hp
    split_ifs at hp
    · exact absurd hp nofun
    · simp only at hp
      split at hp
      · split at hp
        · obtain rfl := Except.ok.inj hp
          rfl
        · exact absurd hp nofun
      · exact absurd hp nofun

/-- A scalar schema without properties gives a property unless what it declares is in the way. -/
theorem ofScalar_cases (site : PropertySite) {type : ScalarType} (hp : schema.properties = [])
    (ht : ScalarType.ofSchema schema = .ok type) :
    (∃ found marked, Property.ofScalar site schema = .ok found ∧
      found.typeRef = .scalar type marked) ∨
    ∃ cause, Property.ofScalar site schema = .error cause ∧ Obstructed site.name schema cause := by
  unfold Property.ofScalar
  rw [hp, ht]
  simp only [List.isEmpty_nil, Bool.not_true, Bool.false_eq_true, if_false]
  cases hd : Model.scalarDefault site.required (site.nullable || schema.isNullable)
      schema.defaultValue with
  | error cause =>
    obtain ⟨rfl, value, hv, hs⟩ := structured_of_scalarDefault hd
    exact Or.inr ⟨_, rfl, .default hv hs⟩
  | ok defaultValue =>
    cases he : Model.enumTable? site.name type schema.enumeration with
    | error cause =>
      obtain ⟨before, first, second, after, hv, hf, hname, rfl⟩ := clash_of_enumTable? he
      simp only [bind, Except.bind, he]
      exact Or.inr ⟨_, rfl, .enumeration hv hf hname⟩
    | ok table =>
      simp only [bind, Except.bind, he]
      exact Or.inl ⟨_, _, rfl, rfl⟩

/-- A scalar agrees, and what is none is neither a property nor a content. -/
theorem typesAgree_ofScalar (known : KnownTypes) (site : PropertySite)
    (ha : schema.primaryType ≠ some .array) :
    TypesAgree site.name schema (Property.ofScalar site schema) (elementOfSchema known schema) := by
  by_cases hp : schema.isPrimitive = true
  · obtain ⟨hproperties, type, ht⟩ := isPrimitive_iff.mp hp
    have hc := elementOfSchema_of_scalar known hproperties ht
    rcases ofScalar_cases site hproperties ht with ⟨found, marked, hok, htype⟩ | ⟨cause, herr, ho⟩
    · exact .same hok (by rw [htype]; rfl) (by rw [hc, htype]; rfl)
    · exact .obstructed herr ho hc
  · -- A schema with properties or without a scalar type has neither.
    rw [elementOfSchema, if_neg hp, if_neg ha]
    cases hr : Property.ofScalar site schema with
    | error cause => exact .neither rfl rfl
    | ok found =>
      unfold Property.ofScalar at hr
      split_ifs at hr with he
      · exact absurd hr nofun
      · obtain ⟨type, ht, -⟩ := bind_eq_ok.mp hr
        exact absurd (isPrimitive_iff.mpr ⟨by simpa using he, type, ht⟩) hp

/-- The property and the content of a schema go together in one of the four ways. -/
theorem typesAgree_ofSchema (known : KnownTypes) (site : PropertySite) (schema : Schema) :
    TypesAgree site.name schema (Property.ofSchema known site schema)
      (elementOfSchema known schema) := by
  unfold Property.ofSchema
  split
  · rename_i ha
    exact typesAgree_ofList known site ha
  · rename_i ho
    exact typesAgree_ofMap known site ho
  · rename_i ha _
    exact typesAgree_ofScalar known site ha

/-! ### Positions -/

/-- A position is a reference, or a schema that combines no others. -/
inductive Uncombined : SchemaOrRef → Prop
  | ref (path : String) : Uncombined (.ref path)
  | inline {schema : Schema} (hany : schema.anyOf = []) (hall : schema.allOf = [])
      (hone : schema.oneOf = []) : Uncombined (.inline schema)

/-- A schema tells the type in a position: the one that is given there, or the body of the alias
that a reference stands for. -/
inductive Governs (known : KnownTypes) (schema : Schema) : SchemaOrRef → Prop
  | ref {path : String} (h : known.resolve path = .alias schema) : Governs known schema (.ref path)
  | inline : Governs known schema (.inline schema)

/-- A schema that declares neither a default nor values. -/
def Document.Schema.undeclared (schema : Schema) : Schema :=
  { schema with defaultValue := none, enumeration := [] }

/-- Without what it declares, a schema with a content's type is that of a property. -/
theorem exists_ofSchema_undeclared {known : KnownTypes} (site : PropertySite) {type : TypeRef}
    (h : elementOfSchema known schema = .ok type) :
    ∃ found, Property.ofSchema known site schema.undeclared = .ok found ∧
      found.typeRef.unmarked = type := by
  have hsame : elementOfSchema known schema.undeclared = elementOfSchema known schema := rfl
  rw [← hsame] at h
  rcases (typesAgree_ofSchema known site schema.undeclared).of_content h with
    hfound | ⟨cause, -, ho⟩
  · exact hfound
  · -- Nothing that is not declared can be in the way.
    cases ho with
    | default hv _ => exact absurd hv nofun
    | enumeration hv _ _ => exact absurd hv.symm (List.append_ne_nil_of_right_ne_nil _ nofun)

/-- In such a position there is a reference to a class, or a schema that tells the type. -/
theorem exists_class_or_schema (known : KnownTypes) (name : String) (required : Bool)
    {position : SchemaOrRef} (h : Uncombined position) :
    (∃ className, Property.resolve known name required position =
        .ok (.ofEntity ⟨name, required, false, none⟩ className) ∧
      resolveElement known position = .ok (.entity className)) ∨
    ∃ schema, Governs known schema position ∧
      Property.resolve known name required position =
        Property.ofSchema known ⟨name, required, false, none⟩ schema ∧
      resolveElement known position = elementOfSchema known schema := by
  -- A reference stands for a class or for a schema, and a schema in place for itself.
  cases h with
  | @inline schema hany hall hone =>
    refine Or.inr ⟨schema, .inline, ?_, rfl⟩
    simp only [Property.resolve, hany, hall, hone]
  | ref path =>
    rw [Property.resolve, Property.ofRef, resolveElement]
    rcases hr : known.resolve path with body | className
    · exact Or.inr ⟨body, .ref hr, rfl, rfl⟩
    · exact Or.inl ⟨className, rfl, rfl⟩

/-- In a position that is a reference or a schema that combines no others, a property that is no map
has the type of a content up to the marks of nullable scalars, a map is no content, and what is a
content is a property of the same type, unless it fails for what the schema declares besides its
type alone. -/
theorem property_type_agrees_with_content (known : KnownTypes) (name : String) (required : Bool)
    {position : SchemaOrRef} (h : Uncombined position) :
    (∀ property, Property.resolve known name required position = .ok property →
      property.typeRef.isMap = false →
        resolveElement known position = .ok property.typeRef.unmarked) ∧
    (∀ property, Property.resolve known name required position = .ok property →
      property.typeRef.isMap = true →
        ∃ cause, resolveElement known position = .error cause ∧
          cause.kind = .unsupportedBodyShape) ∧
    ∀ type, resolveElement known position = .ok type →
      (∃ property, Property.resolve known name required position = .ok property ∧
        property.typeRef.unmarked = type) ∨
      ∃ schema cause, Governs known schema position ∧
        Property.resolve known name required position = .error cause ∧
        Obstructed name schema cause ∧
        ∃ property, Property.ofSchema known ⟨name, required, false, none⟩ schema.undeclared =
            .ok property ∧ property.typeRef.unmarked = type := by
  rcases exists_class_or_schema known name required h with
    ⟨className, hp, hc⟩ | ⟨schema, hg, hp, hc⟩
  · rw [hp, hc]
    refine ⟨fun property hok _ => ?_, fun property hok hm => ?_, fun type ht => ?_⟩
    · obtain rfl := Except.ok.inj hok
      rfl
    · obtain rfl := Except.ok.inj hok
      exact absurd hm nofun
    · exact Or.inl ⟨_, rfl, Except.ok.inj ht⟩
  · -- Behind the reference both look at one schema, where the ways to agree are listed.
    have hagree := typesAgree_ofSchema known ⟨name, required, false, none⟩ schema
    rw [hp, hc]
    refine ⟨fun property hok hm => ?_, fun property hok hm => ?_, fun type ht => ?_⟩
    · rcases hagree.of_property hok with ⟨-, hsame⟩ | ⟨hmap, -⟩
      · exact hsame
      · exact absurd (hm.symm.trans hmap) nofun
    · rcases hagree.of_property hok with ⟨hno, -⟩ | ⟨-, hshape⟩
      · exact absurd (hno.symm.trans hm) nofun
      · exact ⟨_, hshape, rfl⟩
    · refine (hagree.of_content ht).imp_right fun ⟨cause, herr, ho⟩ => ?_
      exact ⟨schema, cause, hg, herr, ho, exists_ofSchema_undeclared _ ht⟩

/-! ### A ward -/

/-- The aliases of a ward: codes, and states of which two have one constant. -/
def wardTypes : KnownTypes :=
  .scan
    [("Code", .inline { Schema.blank with types := some (.single .integer) }),
      ("State", .inline { Schema.blank with
        types := some (.single .string), enumeration := [.string "on-hold", .string "on_hold"] })]
    .plain fun _ => true

/-- A schema of a type, with elements of one kind, that may be null. -/
def collection (type : Document.SchemaType) (element : SchemaOrRef) : SchemaOrRef :=
  .inline { Schema.blank with
    types := some (.single type)
    nullable := some true
    items := some element
    additionalProperties := some (.values element) }

/-- In a ward, codes are a list for both without their mark, a map of codes is no content, and a
state is no property. -/
theorem property_type_agrees_with_content_ward :
    let code := SchemaOrRef.ref "#/components/schemas/Code"
    let state := SchemaOrRef.ref "#/components/schemas/State"
    resolveElement wardTypes (collection .array code) = .ok (.list (.scalar .int false)) ∧
    (∃ cause, resolveElement wardTypes (collection .object code) = .error cause ∧
      cause.kind = .unsupportedBodyShape) ∧
    ∃ schema cause, Governs wardTypes schema state ∧
      Property.resolve wardTypes "state" true state = .error cause ∧
      Obstructed "state" schema cause := by
  intro code state
  have hplain (type : Document.SchemaType) : Uncombined (collection type code) :=
    .inline rfl rfl rfl
  obtain ⟨hsame, -, -⟩ :=
    property_type_agrees_with_content wardTypes "codes" true (hplain .array)
  obtain ⟨-, hmap, -⟩ :=
    property_type_agrees_with_content wardTypes "codes" true (hplain .object)
  obtain ⟨-, -, hcontent⟩ :=
    property_type_agrees_with_content wardTypes "state" true (.ref "#/components/schemas/State")
  refine ⟨?_, ?_, ?_⟩
  · obtain ⟨codes, hcodes, htype⟩ : ∃ codes,
        Property.resolve wardTypes "codes" true (collection .array code) = .ok codes ∧
          codes.typeRef = .list (.scalar .int true) := ⟨_, rfl, by decide +kernel⟩
    rw [hsame codes hcodes (by rw [htype]; rfl), htype]
    rfl
  · exact hmap _ rfl rfl
  · have hfails : (Property.resolve wardTypes "state" true state).toOption = none := by
      decide +kernel
    rcases hcontent (.scalar .string false) (by decide +kernel) with
      ⟨property, hok, -⟩ | ⟨schema, cause, hg, herr, ho, -⟩
    · rw [hok] at hfails
      exact absurd hfails nofun
    · exact ⟨schema, cause, hg, herr, ho⟩

end FunctionForge
