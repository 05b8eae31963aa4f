import FunctionForge.Proofs.Model.Properties
import FunctionForge.Proofs.Naming.Identifiers
import FunctionForge.Proofs.Naming.Sanitizing
import Mathlib.Data.List.Nodup

/-!
# Constants for enumerated values

Constants are added one after another, and one fails if an earlier one has its name.  So all of them
can be added exactly if no two have one name (`foldlM_addConstant_eq_ok_iff`), and then the
constants of a property are those of its values, in their order (`enumTable?_eq_ok_iff`).  None of
them is named like the list of them all (`constant_name_ne`), so for one property no name is written
twice (`nodup_constantNames_of_resolve`).
-/

namespace FunctionForge.Model

theorem addConstant_eq_ok_iff {earlier out : List EnumConstant} {constant : EnumConstant} :
    addConstant earlier constant = .ok out ↔
      constant.name ∉ earlier.map EnumConstant.name ∧ out = earlier ++ [constant] := by
  have hnone : earlier.find? (fun other => other.name == constant.name) = none ↔
      constant.name ∉ earlier.map EnumConstant.name := by
    simp [List.find?_eq_none]
  rw [addConstant, ← hnone]
  cases earlier.find? fun other => other.name == constant.name with
  | some clash => simp
  | none => simp [eq_comm]

/-- Constants can be added to others exactly if no two of them all have one name. -/
theorem foldlM_addConstant_eq_ok_iff {constants earlier out : List EnumConstant}
    (hd : (earlier.map EnumConstant.name).Nodup) :
    constants.foldlM addConstant earlier = .ok out ↔
      ((earlier ++ constants).map EnumConstant.name).Nodup ∧ out = earlier ++ constants := by
  induction constants generalizing earlier with
  | nil =>
    rw [List.foldlM_nil, List.append_nil]
    exact ⟨fun h => ⟨hd, (Except.ok.inj h).symm⟩, fun h => congrArg _ h.2.symm⟩
  | cons constant rest ih =>
    have hassoc : earlier ++ constant :: rest = (earlier ++ [constant]) ++ rest := by simp
    -- With the next constant, the names are still distinct exactly if its own is a new one.
    have hnext : ((earlier ++ [constant]).map EnumConstant.name).Nodup ↔
        constant.name ∉ earlier.map EnumConstant.name := by
      rw [List.map_append, List.map_singleton, ← List.concat_eq_append, List.nodup_concat]
      exact and_iff_left hd
    rw [List.foldlM_cons, bind_eq_ok, hassoc]
    constructor
    · rintro ⟨next, hstep, hrest⟩
      obtain ⟨hnew, rfl⟩ := addConstant_eq_ok_iff.mp hstep
      exact (ih (hnext.mpr hnew)).mp hrest
    · intro h
      have hnew : constant.name ∉ earlier.map EnumConstant.name := by
        have hall := h.1
        rw [List.map_append] at hall
        exact hnext.mp (List.Nodup.of_append_left hall)
      exact ⟨_, addConstant_eq_ok_iff.mpr ⟨hnew, rfl⟩, (ih (hnext.mpr hnew)).mpr h⟩

/-- The table of the constants for values. -/
def tableOf (property : String) (values : List Value) : EnumTable where
  constants := values.map (constant property)
  allowedValuesName := "AllowedValuesFor" ++ Naming.identifier property

theorem enumTable_eq_ok_iff {property : String} {values : List Value} {table : EnumTable} :
    enumTable property values = .ok table ↔
      ((values.map (constant property)).map EnumConstant.name).Nodup ∧
        table = tableOf property values := by
  have hfold {out : List EnumConstant} :=
    @foldlM_addConstant_eq_ok_iff (values.map (constant property)) [] out List.nodup_nil
  rw [List.nil_append] at hfold
  rw [enumTable, bind_eq_ok]
  constructor
  · rintro ⟨constants, hc, ht⟩
    obtain ⟨hd, rfl⟩ := hfold.mp hc
    exact ⟨hd, (Except.ok.inj ht).symm⟩
  · rintro ⟨hd, rfl⟩
    exact ⟨_, hfold.mpr ⟨hd, rfl⟩, rfl⟩

/-- Whether a property of a type gets constants for values. -/
def hasConstants (type : ScalarType) (values : List Value) : Bool :=
  !values.isEmpty && type.supportsEnum

/-- A property has the constants of its values if it has any, and then no two of one name. -/
theorem enumTable?_eq_ok_iff {property : String} {type : ScalarType} {values : List Value}
    {table : Option EnumTable} :
    enumTable? property type values = .ok table ↔
      (hasConstants type values = false ∧ table = none) ∨
      (hasConstants type values = true ∧
        ((values.map (constant property)).map EnumConstant.name).Nodup ∧
        table = some (tableOf property values)) := by
  have hcond : (values.isEmpty || !type.supportsEnum) = !hasConstants type values := by
    simp [hasConstants]
  rw [enumTable?, hcond]
  cases hasConstants type values with
  | false => simp [eq_comm]
  | true =>
    simp only [Bool.not_true, Bool.false_eq_true, if_false, map_eq_ok, enumTable_eq_ok_iff,
      reduceCtorEq, false_and, true_and, false_or]
    constructor
    · rintro ⟨_, ⟨hd, rfl⟩, rfl⟩
      exact ⟨hd, rfl⟩
    · rintro ⟨hd, rfl⟩
      exact ⟨_, ⟨hd, rfl⟩, rfl⟩

/-! ### Names of constants -/

/-- What stands for a value in the name of its constant starts in upper case. -/
theorem upper_of_head?_constantSegment {value : Value} {c : Char}
    (h : (constantSegment value).toList.head? = some c) : Text.Casing.unicode.upper c = [c] := by
  have hcapital {text : String} (h : (Naming.capitalize text).toList.head? = some c) :
      Text.Casing.unicode.upper c = [c] := by
    rw [Naming.capitalize, String.toList_ofList] at h
    cases htext : text.toList with
    | nil =>
      rw [htext] at h
      exact absurd h nofun
    | cons first rest =>
      rw [htext, Naming.capitalizeChars,
        List.head?_append_of_ne_nil _ (Text.Casing.upper_ne_nil first)] at h
      exact Text.Casing.upper_of_mem_upper (List.mem_of_head? h)
  cases value with
  | null =>
    obtain rfl : 'N' = c := Option.some.inj h
    decide
  | string _ | bool _ | number _ | array _ | object _ => exact hcapital h

/-- If `AllowedValuesFor` is rotated so that it ends with `Value`, then it starts with an `s`. -/
theorem head?_rotate_allowedValues : ∀ n ≤ 16,
    "Value".toList <:+ "AllowedValuesFor".toList.rotate n →
      ("AllowedValuesFor".toList.rotate n).head? = some 's' := by
  decide

/-- No constant of a property is named like the list of all its values. -/
theorem constant_name_ne (property : String) (value : Value) :
    (constant property value).name ≠ "AllowedValuesFor" ++ Naming.identifier property := by
  intro heq
  -- What stands for the value, with what stands behind it, would be `AllowedValuesFor` rotated.
  have hrotated : "AllowedValuesFor".toList ~r
      Naming.sanitizeFrom false ((constantSegment value).toList ++ "Value".toList) := by
    have hlists : Naming.sanitizeFrom false ((Naming.identifier property).toList ++
        ((constantSegment value).toList ++ "Value".toList)) =
          "AllowedValuesFor".toList ++ (Naming.identifier property).toList := by
      rw [constant, Naming.sanitize, ← String.toList_inj] at heq
      simpa using heq
    exact Naming.isRotated_of_sanitizeFrom (List.all_eq_true.mp (by decide)) (by decide) hlists
  obtain ⟨n, hn, hrotate⟩ := List.isRotated_iff_mod.mp hrotated
  obtain ⟨run, hrun⟩ :=
    Naming.exists_sanitizeFrom_append false (constantSegment value).toList "Value".toList
  have hvalue : Naming.sanitizeFrom run "Value".toList = "Value".toList := by
    cases run <;> decide
  rw [hrun, hvalue] at hrotate
  have hhead := head?_rotate_allowedValues n hn (hrotate ▸ List.suffix_append _ _)
  rw [hrotate] at hhead
  -- But what stands for the value starts in upper case, or is empty.
  cases hsegment : (constantSegment value).toList with
  | nil =>
    rw [hsegment] at hhead
    exact absurd hhead (by decide)
  | cons c rest =>
    have hsanitized := Naming.head?_sanitizeFrom (constantSegment value).toList
    rw [hsegment, List.head?_cons, Option.map_some] at hsanitized
    rw [hsegment, List.head?_append, hsanitized, Option.some_or, Option.some.injEq] at hhead
    have hupper := upper_of_head?_constantSegment (hsegment ▸ List.head?_cons)
    split_ifs at hhead
    · rw [hhead] at hupper
      exact absurd hupper (by decide)
    · exact absurd hhead (by decide)

/-- The names that are written for the values of a property: those of its constants, and that of the
list of them all. -/
def constantNames (property : Property) : List String :=
  (property.enumTable.map fun table =>
    table.constants.map EnumConstant.name ++ [table.allowedValuesName]).getD []

/-- A property has no constants, or those of values that all have different ones. -/
theorem enumTable_of_madeAt {known : KnownTypes} {site : PropertySite} {property : Property}
    (h : Property.MadeAt known site property) :
    property.enumTable = none ∨
      ∃ values, ((values.map (constant site.name)).map EnumConstant.name).Nodup ∧
        property.enumTable = some (tableOf site.name values) := by
  cases h with
  | list schema h =>
    obtain ⟨items, item, -, -, rfl⟩ := Property.ofList_eq_ok h
    exact Or.inl rfl
  | map schema h =>
    obtain ⟨values, value, -, -, rfl⟩ := Property.ofMap_eq_ok h
    exact Or.inl rfl
  | scalar schema h =>
    obtain ⟨type, defaultValue, table, -, -, he, rfl⟩ := Property.ofScalar_eq_ok h
    obtain ⟨-, rfl⟩ | ⟨-, hd, rfl⟩ := enumTable?_eq_ok_iff.mp he
    · exact Or.inl rfl
    · exact Or.inr ⟨schema.enumeration, hd, rfl⟩
  | entity className h =>
    rw [h]
    exact Or.inl rfl

/-- No name is written twice for one property. -/
theorem nodup_constantNames_of_resolve {known : KnownTypes} {name : String} {required : Bool}
    {position : Document.SchemaOrRef} {property : Property}
    (h : Property.resolve known name required position = .ok property) :
    (constantNames property).Nodup := by
  obtain ⟨nullable, description, hmade⟩ := Property.resolve_eq_ok h
  obtain hnone | ⟨values, hd, htable⟩ := enumTable_of_madeAt hmade
  · rw [constantNames, hnone]
    exact List.nodup_nil
  · rw [constantNames, htable]
    change ((values.map (constant name)).map EnumConstant.name ++
      ["AllowedValuesFor" ++ Naming.identifier name]).Nodup
    rw [← List.concat_eq_append, List.nodup_concat]
    refine ⟨fun hm => ?_, hd⟩
    simp only [List.mem_map, exists_exists_and_eq_and] at hm
    obtain ⟨value, -, heq⟩ := hm
    exact constant_name_ne name value heq

end FunctionForge.Model
