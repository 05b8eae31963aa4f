import FunctionForge.Proofs.CSharp.Initializers
import FunctionForge.Proofs.Model.Enumerations
import FunctionForge.Proofs.Model.Governing

/-!
# Literals and the types they are assigned to

The literals of a property are that of its default and those of its constants.  They are written as
the values stand in the schema that governs the property, while the type and its mark come from
other keywords of that schema, and of the schema around it (`determines_of_ofScalar`).  Nothing
checks one against the other: each literal can be assigned to the type exactly if its value is one
of that type (`assignable_literal_iff`), so all of them can exactly if every value that the schema
declares is (`assignable_literals_iff`).
-/

namespace FunctionForge.CSharp

open Document (Schema SchemaOrRef)
open Model (EnumConstant EnumTable IsQuoted IsTruth Property PropertySite hasConstants literal
  tableOf unwrapped wrapperNullable)
open Number (IsIntegral IsNumeral)

/-! ### Assigning a literal -/

/-- A literal can be assigned to a type: quoted ones to texts, truth values to truth values,
numerals to numbers, of which only doubles take a fraction or an exponent, and null to texts and to
types with a mark. -/
structure Assignable (type text : String) : Prop where
  isLiteral : IsQuoted text ∨ IsTruth text ∨ IsNumeral text.toList ∨ text = "null"
  quoted : IsQuoted text → type = "string"
  truth : IsTruth text → type ∈ ["bool", "bool?"]
  numeral : IsNumeral text.toList → type ∈ ["double", "double?"] ∨
    IsIntegral text.toList ∧
      type ∈ ["int", "int?", "long", "long?", "uint", "uint?", "ulong", "ulong?"]
  null : text = "null" → type = "string" ∨ type.toList.getLast? = some '?'

/-- A value is one of a scalar type. -/
def Fits (type : ScalarType) (marked : Bool) : Value → Prop
  | .null => type = .string ∨ marked = true
  | .bool _ => type = .bool
  | .number (.integer _) => type ∈ [.double, .int, .long, .uint, .ulong]
  | .number (.double _) => type = .double
  | .string _ => type = .string
  | .array _ => False
  | .object _ => False

variable {type : ScalarType} {marked : Bool} {value : Value}

theorem typeName_eq_string_iff : typeName (.scalar type marked) = "string" ↔ type = .string := by
  cases type <;> cases marked <;> decide

theorem typeName_mem_bool_iff :
    typeName (.scalar type marked) ∈ ["bool", "bool?"] ↔ type = .bool := by
  cases type <;> cases marked <;> decide

theorem typeName_mem_double_iff :
    typeName (.scalar type marked) ∈ ["double", "double?"] ↔ type = .double := by
  cases type <;> cases marked <;> decide

theorem typeName_mem_integral_iff : typeName (.scalar type marked) ∈
    ["int", "int?", "long", "long?", "uint", "uint?", "ulong", "ulong?"] ↔
      type ∈ [.int, .long, .uint, .ulong] := by
  cases type <;> cases marked <;> decide

theorem typeName_allowsNull_iff : (typeName (.scalar type marked) = "string" ∨
    (typeName (.scalar type marked)).toList.getLast? = some '?') ↔
      type = .string ∨ marked = true := by
  cases type <;> cases marked <;> decide

/-- The literal of a value can be assigned to a scalar type exactly if the value is one of it. -/
theorem assignable_literal_iff :
    Assignable (typeName (.scalar type marked)) (literal value) ↔ Fits type marked value := by
  have hquoted := @Model.isQuoted_literal_iff value
  have htruth := @Model.isTruth_literal_iff value
  have hnumeral := @Model.isNumeral_literal_iff value
  have hintegral := @Model.isIntegral_literal_iff value
  have hnull := @Model.literal_eq_null_iff value
  -- The literal is of the kind of the value and of no other, so one condition is left.
  have hkinds : Assignable (typeName (.scalar type marked)) (literal value) ↔
      ((∃ s, value = .string s) ∨ (∃ b, value = .bool b) ∨ (∃ n, value = .number n) ∨
        value = .null) ∧
      ((∃ s, value = .string s) → type = .string) ∧
      ((∃ b, value = .bool b) → type = .bool) ∧
      ((∃ n, value = .number n) → type = .double ∨
        (∃ n, value = .number (.integer n)) ∧ type ∈ [.int, .long, .uint, .ulong]) ∧
      (value = .null → type = .string ∨ marked = true) := by
    rw [← hquoted, ← htruth, ← hnumeral, ← hintegral, ← hnull, ← typeName_allowsNull_iff,
      ← @typeName_mem_integral_iff type marked, ← @typeName_mem_double_iff type marked,
      ← @typeName_mem_bool_iff type marked, ← @typeName_eq_string_iff type marked]
    exact ⟨fun ⟨h1, h2, h3, h4, h5⟩ => ⟨h1, h2, h3, h4, h5⟩,
      fun ⟨h1, h2, h3, h4, h5⟩ => ⟨h1, h2, h3, h4, h5⟩⟩
  rw [hkinds]
  rcases value with _ | b | (n | x) | s | items | members <;> simp [Fits]

/-! ### The literals of a property -/

/-- The literal of a default that is declared. -/
def declaredLiteral? : DefaultValue → Option String
  | .literal text => some text
  | .null | .newInstance | .emptyList | .emptyMap => none

/-- The literals that are written for a property: that of its default and those of its constants. -/
def literals (property : Property) : List String :=
  (property.defaultValue.bind declaredLiteral?).toList ++
    ((property.enumTable.map EnumTable.constants).getD []).map EnumConstant.literal

/-- The default that is written as a literal. -/
def literalDefault? (schema : Schema) : Option Value :=
  match schema.defaultValue with
  | some .null => none
  | declared => declared

/-- The values in a schema that literals are written for, if the schema is of a scalar type. -/
def declaredValues (type : ScalarType) (schema : Schema) : List Value :=
  (literalDefault? schema).toList ++
    if hasConstants type schema.enumeration then schema.enumeration else []

/-- A schema tells the type and the literals of a scalar property. The mark is kept for what starts
with null. -/
structure Determines (schema : Schema) (wrapper : Bool) (property : Property) (type : ScalarType)
    (marked : Bool) : Prop where
  ofSchema : ScalarType.ofSchema schema = .ok type
  typeRef : property.typeRef = .scalar type marked
  nullable : property.nullable = (wrapper || schema.isNullable)
  marked : marked = true ↔ property.nullable = true ∧ literalDefault? schema = none
  literals : literals property = (declaredValues type schema).map literal

variable {known : KnownTypes} {site : PropertySite} {schema : Schema} {property : Property}

/-- A scalar starts with the literal of its declared default, and with null only if no other default
is declared. -/
theorem declaredLiteral?_of_scalarDefault {required nullable : Bool}
    {defaultValue : Option DefaultValue}
    (h : Model.scalarDefault required nullable schema.defaultValue = .ok defaultValue) :
    defaultValue.bind declaredLiteral? = (literalDefault? schema).map literal ∧
      (nullable = true → (defaultValue = some .null ↔ literalDefault? schema = none)) := by
  unfold literalDefault?
  cases hd : schema.defaultValue with
  | none =>
    rw [hd] at h
    obtain rfl := Except.ok.inj h
    cases nullable <;> cases required <;> simp [declaredLiteral?]
  | some value =>
    rw [hd] at h
    obtain ⟨found, hf, rfl⟩ := map_eq_ok.mp h
    cases value with
    | null | bool _ | number _ | string _ =>
      obtain rfl := Except.ok.inj hf
      simp [declaredLiteral?]
    | array _ | object _ => exact absurd hf nofun

theorem literals_of_enumTable? {values : List Value} {table : Option EnumTable} {name : String}
    (h : Model.enumTable? name type values = .ok table) :
    ((table.map EnumTable.constants).getD []).map EnumConstant.literal =
      (if hasConstants type values then values else []).map literal := by
  obtain ⟨hnone, rfl⟩ | ⟨hsome, -, rfl⟩ := Model.enumTable?_eq_ok_iff.mp h
  · simp [hnone]
  · simp [hsome, tableOf, Model.constant, Function.comp_def]

/-- What is made of a scalar schema takes its type and its literals from that schema. -/
theorem determines_of_ofScalar (h : Property.ofScalar site schema = .ok property) :
    ∃ type marked, Determines schema site.nullable property type marked := by
  obtain ⟨type, defaultValue, table, ht, hd, he, rfl⟩ := Property.ofScalar_eq_ok h
  obtain ⟨hliteral, hnull⟩ := declaredLiteral?_of_scalarDefault hd
  refine ⟨type, _, {
    ofSchema := ht
    typeRef := rfl
    nullable := rfl
    marked := ?_
    literals := ?_ }⟩
  · rw [Bool.and_eq_true, beq_iff_eq]
    exact and_congr_right hnull
  · rw [literals, declaredValues, List.map_append, literals_of_enumTable? he, hliteral]
    congr 1
    cases literalDefault? schema <;> rfl

/-- A collection starts empty and has no constants, so nothing is written for it. -/
theorem literals_eq_nil_of_isCollection {element : TypeRef}
    (h : Model.IsCollection property element)
    (hd : property.defaultValue = some .emptyList ∨ property.defaultValue = some .emptyMap) :
    literals property = [] := by
  rcases hd with hd | hd <;> simp [literals, h.enumTable, hd, declaredLiteral?]

theorem literals_ofEntity (site : PropertySite) (className : String) :
    literals (.ofEntity site className) = [] := by
  cases hr : site.required <;> simp [literals, Property.ofEntity, hr, declaredLiteral?]

/-- Literals are only written for a property of a scalar type, and are told by its schema. -/
theorem determines_of_ofSchema (h : Property.ofSchema known site schema = .ok property) :
    (property.typeRef.isScalar = false ∧ literals property = []) ∨
      ∃ type marked, Determines schema site.nullable property type marked := by
  rw [Property.ofSchema] at h
  split at h
  · obtain ⟨element, hlist⟩ := Property.isListOf_of_ofList h
    have hnil := literals_eq_nil_of_isCollection hlist.toIsCollection (Or.inl hlist.defaultValue)
    exact Or.inl ⟨by rw [hlist.typeRef]; rfl, hnil⟩
  · obtain ⟨element, hmap⟩ := Property.isMapTo_of_ofMap h
    have hnil := literals_eq_nil_of_isCollection hmap.toIsCollection (Or.inr hmap.defaultValue)
    exact Or.inl ⟨by rw [hmap.typeRef]; rfl, hnil⟩
  · exact Or.inr (determines_of_ofScalar h)

/-- Only scalars have literals, and these are those of the values that the schema behind the
position of the property declares; all of them can be assigned to its type exactly if all those
values are of that type. -/
theorem assignable_literals_iff {name : String} {required : Bool} {position : SchemaOrRef}
    (h : Property.resolve known name required position = .ok property) :
    (property.typeRef.isScalar = false ∧ literals property = []) ∨
      ∃ schema type marked, Governs known schema (unwrapped position) ∧
        Determines schema (wrapperNullable position) property type marked ∧
        ((∀ text ∈ literals property, Assignable (typeName property.typeRef) text) ↔
          ∀ value ∈ declaredValues type schema, Fits type marked value) := by
  obtain ⟨path, className, description, -, -, rfl⟩ | ⟨schema, description, hg, hs⟩ :=
    Property.resolve_governed h
  · exact Or.inl ⟨rfl, literals_ofEntity _ className⟩
  · refine (determines_of_ofSchema hs).imp_right fun ⟨type, marked, hdetermines⟩ => ?_
    refine ⟨schema, type, marked, hg, hdetermines, ?_⟩
    rw [hdetermines.literals, hdetermines.typeRef, List.forall_mem_map]
    exact forall₂_congr fun value _ => assignable_literal_iff

/-- The state of a visit, which starts as planned. -/
def visitState : Schema :=
  { Schema.blank with
    types := some (.single .string)
    defaultValue := some (.string "planned")
    enumeration := [.string "planned", .string "done", .null] }

/-- The states of a visit can be assigned to its type, and null too. -/
theorem assignable_literals_visitState : ∃ property,
    Property.resolve .empty "state" true (.inline visitState) = .ok property ∧
      literals property = ["\"planned\"", "\"planned\"", "\"done\"", "null"] ∧
      ∀ text ∈ literals property, Assignable (typeName property.typeRef) text := by
  obtain ⟨property, hresolve, hliterals⟩ : ∃ property,
      Property.resolve .empty "state" true (.inline visitState) = .ok property ∧
        literals property = ["\"planned\"", "\"planned\"", "\"done\"", "null"] :=
    ⟨_, rfl, by decide +kernel⟩
  refine ⟨property, hresolve, hliterals, ?_⟩
  obtain ⟨-, hnil⟩ | ⟨schema, type, marked, hg, hdetermines, hall⟩ :=
    assignable_literals_iff hresolve
  · exact absurd (hliterals.symm.trans hnil) (List.cons_ne_nil _ _)
  · obtain rfl : visitState = schema := Governs.unique .inline hg
    have htype : ScalarType.string = type := Except.ok.inj hdetermines.ofSchema
    subst htype
    rw [hall]
    intro value hvalue
    have hmem : value ∈ [.string "planned", .string "planned", .string "done", .null] := hvalue
    simp only [List.mem_cons, List.not_mem_nil, or_false] at hmem
    rcases hmem with rfl | rfl | rfl | rfl
    · exact rfl
    · exact rfl
    · exact rfl
    · exact Or.inl rfl

/-- A level of urgency that may be null, and is the first one otherwise. -/
def urgency : Schema :=
  { Schema.blank with
    types := some (.single .integer)
    nullable := some true
    defaultValue := some (.number (.integer 1))
    enumeration := [.number (.integer 1), .number (.integer 2), .null] }

/-- A level of urgency has no mark, since it does not start with null, but a constant for null. -/
theorem not_assignable_urgency : ∃ property,
    Property.resolve .empty "urgency" true (.inline urgency) = .ok property ∧
      typeName property.typeRef = "int" ∧ literals property = ["1", "1", "2", "null"] ∧
      ¬Assignable "int" "null" := by
  refine ⟨_, rfl, by decide +kernel, by decide +kernel, fun h => ?_⟩
  exact absurd (h.null rfl) (by decide)

end FunctionForge.CSharp
