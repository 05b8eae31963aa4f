import FunctionForge.Proofs.Model.Enumerations
import FunctionForge.Proofs.Model.EqualValues
import FunctionForge.Proofs.Model.Governing
import FunctionForge.Proofs.Model.Quoting

/-!
# Tables of enumerated values

A table has a constant for each value, in their order (`tabulates_tableOf`).  Different values may
come to one name, since names are capitalized and sanitized; then there is no table, and neither is
there one if two values have one literal (`nodup_literals`) or are equal (`error_of_equals`).  Only
the two zeros of doubles are equal and may have constants of their own (`exists_enumTable_zeros`).

A property has a table exactly if the schema that governs its position lists values and is of a type
that has constants (`ListsValues`), and the table is that of these values (`exists_enumTable_iff`).
Values without a table are all that keeps such a schema from becoming a property if it is one
without them (`exists_ofSchema_iff`).
-/

namespace FunctionForge.Model

open Document (Schema SchemaOrRef)
open Value (AreZeros)

variable {known : KnownTypes} {site : PropertySite} {schema : Schema} {type : ScalarType}
  {name : String} {values : List Value}

/-! ### Tables -/

/-- A name of ASCII letters, digits and `_`, without two `_` in a row. -/
def IsTidyName (name : String) : Prop :=
  (∀ c ∈ name.toList, c.isAlphanum = true ∨ c = '_') ∧
    name.toList.IsChain fun c d => ¬(c = '_' ∧ d = '_')

/-- What is sanitized is a name. -/
theorem isTidyName_sanitize (text : String) : IsTidyName (Naming.sanitize text) := by
  rw [IsTidyName, Naming.sanitize, String.toList_ofList]
  have htidy := Naming.tidy_sanitizeFrom false text.toList
  exact ⟨htidy.isAlphanum_or_eq, htidy.isChain⟩

/-- A table keeps each value of a property under a constant of its own. -/
structure Tabulates (name : String) (values : List Value) (table : EnumTable) : Prop where
  literals : table.constants.map EnumConstant.literal = values.map literal
  names : table.constants.map EnumConstant.name = values.map fun value =>
    Naming.sanitize (Naming.identifier name ++ constantSegment value ++ "Value")
  nodup : (table.constants.map EnumConstant.name).Nodup
  distinct : (table.constants.map EnumConstant.literal).Nodup
  tidy : ∀ constant ∈ table.constants, IsTidyName constant.name

/-- But for strings, values are called in names as they are written. -/
theorem constantSegment_eq {value : Value} (h : ¬∃ s, value = .string s) :
    constantSegment value = Naming.capitalize (literal value) := by
  cases value with
  | null => decide +kernel
  | string s => exact absurd ⟨s, rfl⟩ h
  | bool b => rfl
  | number n => rfl
  | array items => rfl
  | object members => rfl

/-- Values that are written alike are called alike. -/
theorem constantSegment_congr {value other : Value} (h : literal value = literal other) :
    constantSegment value = constantSegment other := by
  by_cases hother : ∃ s, other = .string s
  · obtain ⟨s, rfl⟩ := hother
    rw [literal_eq_literal_string_iff.mp h]
  · have hvalue : ¬∃ s, value = .string s := by
      rwa [← isQuoted_literal_iff, h, isQuoted_literal_iff]
    rw [constantSegment_eq hvalue, constantSegment_eq hother, h]

/-- Constants with different names have different literals. -/
theorem nodup_literals (hd : ((values.map (constant name)).map EnumConstant.name).Nodup) :
    (values.map literal).Nodup := by
  rw [List.map_map, List.Nodup, List.pairwise_map] at hd
  rw [List.Nodup, List.pairwise_map]
  refine hd.imp fun hnames hliterals => hnames ?_
  rw [Function.comp_apply, Function.comp_apply, constant, constant,
    constantSegment_congr hliterals]

/-- A table of distinct names holds a constant for each value, in the order of the values. -/
theorem tabulates_tableOf (hd : ((values.map (constant name)).map EnumConstant.name).Nodup) :
    Tabulates name values (tableOf name values) where
  literals := List.map_map
  names := List.map_map
  nodup := hd
  distinct := by
    have hliterals : (values.map (constant name)).map EnumConstant.literal = values.map literal :=
      List.map_map
    rw [tableOf, hliterals]
    exact nodup_literals hd
  tidy := List.forall_mem_map.mpr fun _ _ => isTidyName_sanitize _

/-- There is a table exactly if the constants of the values have different names. -/
theorem exists_enumTable_iff_nodup : (∃ table, enumTable name values = .ok table) ↔
    ((values.map (constant name)).map EnumConstant.name).Nodup :=
  ⟨fun ⟨_, h⟩ => (enumTable_eq_ok_iff.mp h).1, fun h => ⟨_, enumTable_eq_ok_iff.mpr ⟨h, rfl⟩⟩⟩

/-- Two values with one constant have no table, whatever stands around them. -/
theorem error_of_name_eq {first second : Value} (hlisted : [first, second].Sublist values)
    (h : (constant name first).name = (constant name second).name) :
    ∃ cause, enumTable name values = .error cause := by
  cases ht : enumTable name values with
  | error cause => exact ⟨cause, rfl⟩
  | ok table =>
    have hnames := exists_enumTable_iff_nodup.mp ⟨table, ht⟩
    -- The names stand in the list of all names as the values do in theirs.
    have htwo := hnames.sublist ((hlisted.map (constant name)).map EnumConstant.name)
    exact absurd h (List.pairwise_pair.mp htwo)

/-- Equal values have no table, but for the zeros where their sign is kept. -/
theorem error_of_equals {first second : Value} (hlisted : [first, second].Sublist values)
    (h : first.equals second = true)
    (hzeros : AreZeros first second → ¬EndsAlphanumeric (Naming.identifier name)) :
    ∃ cause, enumTable name values = .error cause := by
  refine error_of_name_eq hlisted ?_
  by_cases hz : AreZeros first second
  · exact (constant_name_zeros_iff hz).mpr (hzeros hz)
  · exact constant_name_eq_of_equals h hz

/-- The zeros have a table where their sign is kept. -/
theorem exists_enumTable_zeros_iff {first second : Value} (h : AreZeros first second) :
    (∃ table, enumTable name [first, second] = .ok table) ↔
      EndsAlphanumeric (Naming.identifier name) := by
  have hnames : ([first, second].map (constant name)).map EnumConstant.name =
      [(constant name first).name, (constant name second).name] := rfl
  rw [exists_enumTable_iff_nodup, hnames, List.Nodup, List.pairwise_pair, ne_eq,
    constant_name_zeros_iff h, not_not]

/-! ### Properties with a table -/

/-- The schema behind a position lists these values, and it is of a type that has constants. -/
def ListsValues (known : KnownTypes) (position : SchemaOrRef) (values : List Value) : Prop :=
  ∃ schema type, Governs known schema (unwrapped position) ∧ schema.enumeration = values ∧
    values ≠ [] ∧ ScalarType.ofSchema schema = .ok type ∧ type ∈ [.string, .int, .long, .double]

theorem hasConstants_iff :
    hasConstants type values = true ↔ values ≠ [] ∧ type ∈ [.string, .int, .long, .double] := by
  rw [hasConstants, Bool.and_eq_true, Bool.not_eq_true', List.isEmpty_eq_false_iff]
  refine and_congr_right fun _ => ?_
  cases type <;> decide

/-- Which values a position lists is told by the schema that governs it. -/
theorem listsValues_iff {position : SchemaOrRef}
    (hg : Governs known schema (unwrapped position)) :
    ListsValues known position values ↔ schema.enumeration = values ∧
      ∃ type, ScalarType.ofSchema schema = .ok type ∧ hasConstants type values = true := by
  simp only [hasConstants_iff]
  constructor
  · rintro ⟨other, type, ho, hv, hne, ht, hm⟩
    obtain rfl := hg.unique ho
    exact ⟨hv, type, ht, hne, hm⟩
  · rintro ⟨hv, type, ht, hne, hm⟩
    exact ⟨schema, type, hg, hv, hne, ht, hm⟩

/-- A reference to a class has no schema to list values. -/
theorem not_listsValues_of_entity {position : SchemaOrRef} {path className : String}
    (hw : unwrapped position = .ref path) (hr : known.resolve path = .entity className) :
    ¬ListsValues known position values := by
  rintro ⟨schema, type, hg, -⟩
  rw [hw] at hg
  cases hg with
  | ref hr' => exact absurd (hr.symm.trans hr') nofun

theorem primaryType_of_ofSchema (h : ScalarType.ofSchema schema = .ok type) :
    schema.primaryType ≠ some .array ∧ schema.primaryType ≠ some .object := by
  constructor
  · intro harray
    rw [ScalarType.ofSchema, harray] at h
    cases h
  · intro hobject
    rw [ScalarType.ofSchema, hobject] at h
    cases h

/-- Lists and maps have no table, and a schema of a scalar type makes the table of its values. -/
theorem enumTable_of_ofSchema {property : Property}
    (h : Property.ofSchema known site schema = .ok property) :
    (property.enumTable = none ∧ ∀ type, ScalarType.ofSchema schema = .ok type →
      hasConstants type schema.enumeration = false) ∨
    ∃ type table, ScalarType.ofSchema schema = .ok type ∧
      hasConstants type schema.enumeration = true ∧
      enumTable site.name schema.enumeration = .ok table ∧ property.enumTable = some table := by
  rw [Property.ofSchema] at h
  split at h
  · -- Neither a list nor a map is of a scalar type, so nothing is claimed of their types.
    rename_i harray
    obtain ⟨items, item, -, -, rfl⟩ := Property.ofList_eq_ok h
    exact Or.inl ⟨rfl, fun type ht => absurd harray (primaryType_of_ofSchema ht).1⟩
  · rename_i hobject
    obtain ⟨found, value, -, -, rfl⟩ := Property.ofMap_eq_ok h
    exact Or.inl ⟨rfl, fun type ht => absurd hobject (primaryType_of_ofSchema ht).2⟩
  · obtain ⟨type, defaultValue, table, ht, -, he, rfl⟩ := Property.ofScalar_eq_ok h
    obtain ⟨hfalse, rfl⟩ | ⟨htrue, hd, rfl⟩ := enumTable?_eq_ok_iff.mp he
    · refine Or.inl ⟨rfl, fun other ho => ?_⟩
      obtain rfl := Except.ok.inj (ht.symm.trans ho)
      exact hfalse
    · exact Or.inr ⟨type, _, ht, htrue, enumTable_eq_ok_iff.mpr ⟨hd, rfl⟩, rfl⟩

/-- A scalar property is made exactly if no properties are nested in its schema, and its type, its
default and its table can be made. -/
theorem exists_ofScalar_iff : (∃ property, Property.ofScalar site schema = .ok property) ↔
    schema.properties.isEmpty = true ∧ ∃ type, ScalarType.ofSchema schema = .ok type ∧
      (∃ value, scalarDefault site.required (site.nullable || schema.isNullable)
        schema.defaultValue = .ok value) ∧
      ∃ table, enumTable? site.name type schema.enumeration = .ok table := by
  unfold Property.ofScalar
  cases schema.properties.isEmpty with
  | false => exact iff_of_false (fun ⟨_, h⟩ => by cases h) (fun h => by cases h.1)
  | true =>
    rw [and_iff_right rfl]
    constructor
    · rintro ⟨property, h⟩
      obtain ⟨type, ht, h⟩ := bind_eq_ok.mp h
      obtain ⟨value, hv, h⟩ := bind_eq_ok.mp h
      obtain ⟨table, he, -⟩ := bind_eq_ok.mp h
      exact ⟨type, ht, ⟨value, hv⟩, ⟨table, he⟩⟩
    · -- The steps do not depend on each other, so each may succeed on its own.
      rintro ⟨type, ht, ⟨value, hv⟩, ⟨table, he⟩⟩
      exact ⟨_, bind_eq_ok.mpr
        ⟨type, ht, bind_eq_ok.mpr ⟨value, hv, bind_eq_ok.mpr ⟨table, he, rfl⟩⟩⟩⟩

/-- A schema of a scalar type is neither a list nor a map, so a scalar is made of it. -/
theorem ofSchema_eq_ofScalar (h : ScalarType.ofSchema schema = .ok type) :
    Property.ofSchema known site schema = Property.ofScalar site schema := by
  obtain ⟨harray, hobject⟩ := primaryType_of_ofSchema h
  rw [Property.ofSchema]
  split
  · exact absurd ‹_› harray
  · exact absurd ‹_› hobject
  · rfl

/-- If a schema is of a type that has constants for its values, then it makes a property exactly if
it does without the values, and these have a table. -/
theorem exists_ofSchema_iff (ht : ScalarType.ofSchema schema = .ok type)
    (hc : hasConstants type schema.enumeration = true) :
    (∃ property, Property.ofSchema known site schema = .ok property) ↔
      (∃ property,
        Property.ofSchema known site { schema with enumeration := [] } = .ok property) ∧
      ∃ table, enumTable site.name schema.enumeration = .ok table := by
  have hblank : ScalarType.ofSchema { schema with enumeration := [] } = .ok type := ht
  have htable : (∃ table, enumTable? site.name type schema.enumeration = .ok table) ↔
      ∃ table, enumTable site.name schema.enumeration = .ok table := by
    simp [enumTable?_eq_ok_iff, enumTable_eq_ok_iff, hc]
  -- The two schemas differ in nothing but the last condition, on the table.
  rw [ofSchema_eq_ofScalar ht, ofSchema_eq_ofScalar hblank, exists_ofScalar_iff,
    exists_ofScalar_iff]
  simp only [ht, hblank, Except.ok.injEq, exists_eq_left', htable]
  constructor
  · rintro ⟨hp, hvalue, hmade⟩
    exact ⟨⟨hp, hvalue, none, rfl⟩, hmade⟩
  · rintro ⟨⟨hp, hvalue, -⟩, hmade⟩
    exact ⟨hp, hvalue, hmade⟩

/-- A property has a table exactly if the schema that governs its position lists values of a type
that has constants, and then it is the table of these values. -/
structure TableAgrees (known : KnownTypes) (name : String) (position : SchemaOrRef)
    (property : Property) : Prop where
  isSome_iff : property.enumTable.isSome = true ↔ ∃ values, ListsValues known position values
  table : ∀ values, ListsValues known position values →
    ∃ table, enumTable name values = .ok table ∧ property.enumTable = some table

/-- A property without a table agrees with a position that lists nothing. -/
theorem tableAgrees_of_eq_none {position : SchemaOrRef} {property : Property}
    (hnone : property.enumTable = none) (h : ∀ values, ¬ListsValues known position values) :
    TableAgrees known name position property where
  isSome_iff := by
    rw [hnone]
    exact iff_of_false Bool.false_ne_true fun ⟨values, hv⟩ => h values hv
  table values hv := absurd hv (h values)

/-- What a position comes to has the table that the values ask for which the position lists. -/
theorem tableAgrees_of_resolve {required : Bool} {position : SchemaOrRef} {property : Property}
    (h : Property.resolve known name required position = .ok property) :
    TableAgrees known name position property := by
  obtain ⟨path, className, description, hw, hr, rfl⟩ | ⟨schema, description, hg, hs⟩ :=
    Property.resolve_governed h
  · exact tableAgrees_of_eq_none rfl fun values => not_listsValues_of_entity hw hr
  · obtain ⟨hnone, hfalse⟩ | ⟨type, table, ht, htrue, he, hsome⟩ := enumTable_of_ofSchema hs
    · -- Without a table, the schema lists no values of a type that has constants.
      refine tableAgrees_of_eq_none hnone fun values hv => ?_
      obtain ⟨rfl, type, ht, htrue⟩ := (listsValues_iff hg).mp hv
      exact absurd ((hfalse type ht).symm.trans htrue) Bool.false_ne_true
    · have hlisted : ListsValues known position schema.enumeration :=
        (listsValues_iff hg).mpr ⟨rfl, type, ht, htrue⟩
      refine ⟨iff_of_true (by rw [hsome]; rfl) ⟨_, hlisted⟩, fun values hv => ?_⟩
      obtain ⟨rfl, -⟩ := (listsValues_iff hg).mp hv
      exact ⟨table, he, hsome⟩

/-- There is a table exactly if the names of the constants are distinct; it has a constant for each
value, in their order, with the literal of the value and a tidy name of its own.  Otherwise the
first value with the name of an earlier one is reported together with that one.  That happens for
equal values, unless they are the zeros of doubles and the identifier of the property ends in a
letter or digit, behind which the sign of a zero is kept.  A property has a table exactly if the
schema that governs its position lists values and is of a type that has constants, and such a schema
makes a property exactly if it does without the values and these have a table. -/
theorem exists_enumTable_iff (name : String) (values : List Value) :
    ((∃ table, enumTable name values = .ok table) ↔ (values.map fun value =>
      Naming.sanitize (Naming.identifier name ++ constantSegment value ++ "Value")).Nodup) ∧
    literal .null = "null" ∧
    (∀ table, enumTable name values = .ok table → Tabulates name values table) ∧
    (∀ cause, enumTable name values = .error cause → ∃ before first second after,
      values = before ++ second :: after ∧ first ∈ before ∧
      (constant name first).name = (constant name second).name ∧
      cause = .clashingConstants (literal first) (literal second) (constant name second).name) ∧
    (∀ first second, [first, second].Sublist values → first.equals second = true →
      (AreZeros first second → ¬EndsAlphanumeric (Naming.identifier name)) →
      ∃ cause, enumTable name values = .error cause) ∧
    (∀ first second, AreZeros first second → first.equals second = true ∧
      ((∃ table, enumTable name [first, second] = .ok table) ↔
        EndsAlphanumeric (Naming.identifier name))) ∧
    (∀ known required position property,
      Property.resolve known name required position = .ok property →
      TableAgrees known name position property) ∧
    ∀ known site schema type, ScalarType.ofSchema schema = .ok type →
      schema.enumeration ≠ [] → type ∈ [.string, .int, .long, .double] →
      ((∃ property, Property.ofSchema known site schema = .ok property) ↔
        (∃ property,
          Property.ofSchema known site { schema with enumeration := [] } = .ok property) ∧
        ∃ table, enumTable site.name schema.enumeration = .ok table) := by
  have hnames : (values.map fun value =>
      Naming.sanitize (Naming.identifier name ++ constantSegment value ++ "Value")) =
        (values.map (constant name)).map EnumConstant.name := by
    rw [List.map_map]
    rfl
  refine ⟨?_, rfl, fun table ht => ?_, fun cause hc => clash_of_enumTable hc,
    fun first second hlisted h hzeros => error_of_equals hlisted h hzeros,
    fun first second hzeros => ⟨hzeros.equals, exists_enumTable_zeros_iff hzeros⟩,
    fun known required position property h => tableAgrees_of_resolve h,
    fun known site schema type ht hne hm =>
      exists_ofSchema_iff ht (hasConstants_iff.mpr ⟨hne, hm⟩)⟩
  · rw [hnames]
    exact exists_enumTable_iff_nodup
  · obtain ⟨hd, rfl⟩ := enumTable_eq_ok_iff.mp ht
    exact tabulates_tableOf hd

/-- The two zeros are equal, and each has a constant of its own. -/
theorem exists_enumTable_zeros : ∃ first second table, Value.equals first second = true ∧
    enumTable "x" [first, second] = .ok table ∧
    table.constants.map EnumConstant.literal = ["0.0", "-0.0"] ∧
    table.constants.map EnumConstant.name = ["X0_0Value", "X_0_0Value"] :=
  ⟨.number (.double (.zero false)), .number (.double (.zero true)), _, by decide, rfl,
    by decide +kernel, by decide +kernel⟩

/-- The state of an order, which may not be known. -/
def orderState : Schema :=
  { Schema.blank with
    types := some (.single .string)
    enumeration := [.string "active", .string "in-active", .null] }

/-- The states of an order have three constants.  A state that differs from another one in a hyphen
only would have the same constant, as arrays that differ in the sign of a zero only would. -/
theorem exists_enumTable_orderState : ∃ property table,
    Property.resolve .empty "status" true (.inline orderState) = .ok property ∧
      property.enumTable = some table ∧
      table.constants.map EnumConstant.name =
        ["StatusActiveValue", "StatusIn_activeValue", "StatusNullValue"] ∧
      table.constants.map EnumConstant.literal = ["\"active\"", "\"in-active\"", "null"] ∧
      enumTable "status" [.string "in-active", .string "in_active"] =
        .error (.clashingConstants "\"in-active\"" "\"in_active\"" "StatusIn_activeValue") ∧
      ∃ cause, enumTable "status" [.array [.number (.double (.zero false))], .null,
        .array [.number (.double (.zero true))]] = .error cause := by
  obtain ⟨property, hresolve⟩ : ∃ property,
      Property.resolve .empty "status" true (.inline orderState) = .ok property := ⟨_, rfl⟩
  obtain ⟨-, -, htabulates, -, -, -, hresolved, -⟩ :=
    exists_enumTable_iff "status" orderState.enumeration
  obtain ⟨-, -, -, -, hequal, -⟩ :=
    exists_enumTable_iff "status" [.array [.number (.double (.zero false))], .null,
      .array [.number (.double (.zero true))]]
  obtain ⟨-, hlisted⟩ := hresolved .empty true (.inline orderState) property hresolve
  obtain ⟨table, htable, hsome⟩ := hlisted orderState.enumeration
    ⟨orderState, .string, .inline, rfl, by decide, rfl, by decide⟩
  have htab := htabulates table htable
  refine ⟨property, table, hresolve, hsome, ?_, ?_, by decide +kernel, ?_⟩
  · rw [htab.names]
    decide +kernel
  · rw [htab.literals]
    decide +kernel
  · -- Arrays are no zeros, whatever they hold.
    refine hequal _ _ (.cons_cons _ (.cons _ (.refl _))) (by decide) ?_
    rintro ⟨x, y, hx, -⟩
    exact absurd hx nofun

end FunctionForge.Model
