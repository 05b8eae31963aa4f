import FunctionForge.Model.Property
import FunctionForge.Proofs.Naming.Identifiers
import FunctionForge.Proofs.Naming.Sanitizing
import FunctionForge.Proofs.Text.Cut
import FunctionForge.Proofs.Text.Uppercase

/-!
# Equal values

Values are equal if they are the same, but for zeros: the two zeros of doubles are equal, although
one is written with a sign (`Double.equals_iff_units_eq`).  So equal values may be written
differently, but only in the signs of zeros that are in them.  In the name of a constant, a sign
behind a bracket, a comma or a colon is lost with them, and so equal values have one constant
(`constant_name_eq_of_equals`), unless they are the two zeros themselves: then the sign stands right
behind the identifier of the property, and is lost exactly if that does not end in a letter or digit
(`constant_name_zeros_iff`).
-/

namespace FunctionForge

namespace Number.Double

/-! ### Equal numbers -/

/-- Whether two doubles are one number.  A number has one representation, but zero has two. -/
def equals (x y : Double) : Bool :=
  x == y || (x.significand == 0 && y.significand == 0)

/-- The representation that a double has: its significand fills its 53 bits unless the exponent is
the least there is. -/
structure IsCanonical (x : Double) : Prop where
  lt : x.significand < 2 ^ 53
  least_le : leastExponent ≤ x.exponent
  fills : leastExponent < x.exponent → 2 ^ 52 ≤ x.significand

/-- How many of the least positive doubles the absolute value of a double is. -/
def size (x : Double) : Nat :=
  x.significand * 2 ^ (x.exponent - leastExponent).toNat

/-- A double as a multiple of the least positive one. -/
def units (x : Double) : Int :=
  if x.negative then -x.size else x.size

variable {x y : Double}

theorem size_eq_zero_iff : x.size = 0 ↔ x.significand = 0 := by
  rw [size, Nat.mul_eq_zero, or_iff_left (Nat.two_pow_pos _).ne']

/-- Of two doubles of one size, none has the greater exponent: its significand fills its bits, so
that the other one would have more than there are. -/
theorem exponent_le_of_size_eq (hx : x.IsCanonical) (hy : y.IsCanonical) (h : x.size = y.size) :
    y.exponent ≤ x.exponent := by
  by_contra hlt
  -- With the larger exponent, the significand of the second one fills its digits.
  have hfills : 2 ^ 52 ≤ y.significand := by
    have hleast := hx.least_le
    exact hy.fills (by omega)
  obtain ⟨more, hmore⟩ : ∃ more, (y.exponent - leastExponent).toNat =
      (x.exponent - leastExponent).toNat + (more + 1) := by
    have hleast := hx.least_le
    exact ⟨(y.exponent - x.exponent).toNat - 1, by omega⟩
  have hscaled : x.significand = y.significand * 2 ^ (more + 1) := by
    rw [size, size, hmore, pow_add, mul_comm (2 ^ _) (2 ^ (more + 1)), ← mul_assoc] at h
    exact Nat.eq_of_mul_eq_mul_right (Nat.two_pow_pos _) h
  have hlarge : 2 ^ 52 * 2 ≤ x.significand := by
    rw [hscaled]
    exact Nat.mul_le_mul hfills (Nat.le_self_pow (Nat.succ_ne_zero more) 2)
  have hlt := hx.lt
  omega

/-- Doubles are equal exactly if they are one number. -/
theorem equals_iff_units_eq (hx : x.IsCanonical) (hy : y.IsCanonical) :
    x.equals y = true ↔ x.units = y.units := by
  have hequals : x.equals y = true ↔ x = y ∨ x.significand = 0 ∧ y.significand = 0 := by
    simp [equals]
  rw [hequals]
  constructor
  · rintro (rfl | ⟨hx0, hy0⟩)
    · rfl
    · rw [units, units, size_eq_zero_iff.mpr hx0, size_eq_zero_iff.mpr hy0]
      simp
  · intro h
    have hsize : x.size = y.size := by
      unfold units at h
      split_ifs at h <;> omega
    by_cases hzero : x.size = 0
    · exact Or.inr ⟨size_eq_zero_iff.mp hzero, size_eq_zero_iff.mp (hsize ▸ hzero)⟩
    · -- What is not zero has its sign in its units.
      have hsign : x.negative = y.negative := by
        unfold units at h
        cases hxn : x.negative <;> cases hyn : y.negative <;> simp [hxn, hyn] at h ⊢ <;> omega
      have hexponent : x.exponent = y.exponent :=
        Int.le_antisymm (exponent_le_of_size_eq hy hx hsize.symm)
          (exponent_le_of_size_eq hx hy hsize)
      have hsignificand : x.significand = y.significand := by
        rw [size, size, hexponent] at hsize
        exact Nat.eq_of_mul_eq_mul_right (Nat.two_pow_pos _) hsize
      cases x
      cases y
      simp_all

end Number.Double

/-- Whether two numbers are equal.  An integer and a double never are. -/
def Number.equals : Number → Number → Bool
  | .integer m, .integer n => m == n
  | .double x, .double y => x.equals y
  | _, _ => false

namespace Value

/-! ### Equal values -/

mutual

/-- Whether two values are equal: arrays item by item, objects member by member. -/
def equals : Value → Value → Bool
  | .null, .null => true
  | .bool a, .bool b => a == b
  | .number m, .number n => m.equals n
  | .string s, .string t => s == t
  | .array items, .array others => equalItems items others
  | .object members, .object others => equalMembers members others
  | _, _ => false

/-- Whether the items of two arrays are equal, one by one. -/
def equalItems : List Value → List Value → Bool
  | [], [] => true
  | item :: rest, other :: others => equals item other && equalItems rest others
  | _, _ => false

/-- Whether the members of two objects are equal, one by one. -/
def equalMembers : List (String × Value) → List (String × Value) → Bool
  | [], [] => true
  | (name, value) :: rest, (otherName, other) :: others =>
    name == otherName && equals value other && equalMembers rest others
  | _, _ => false

end

/-- The two zeros: doubles of different signs without a value. -/
def AreZeros (first second : Value) : Prop :=
  ∃ x y : Number.Double, first = .number (.double x) ∧ second = .number (.double y) ∧
    x.significand = 0 ∧ y.significand = 0 ∧ x.negative ≠ y.negative

theorem AreZeros.equals {first second : Value} (h : AreZeros first second) :
    first.equals second = true := by
  obtain ⟨x, y, rfl, rfl, hx, hy, -⟩ := h
  simp [Value.equals, Number.equals, Number.Double.equals, hx, hy]

/-- Equal values are the same, or zeros, or both arrays, or both objects. -/
theorem cases_of_equals {first second : Value} (h : first.equals second = true) :
    first = second ∨
      (∃ x y : Number.Double, first = .number (.double x) ∧ second = .number (.double y) ∧
        x.significand = 0 ∧ y.significand = 0) ∨
      (∃ items others, first = .array items ∧ second = .array others ∧
        equalItems items others = true) ∨
      ∃ members others, first = .object members ∧ second = .object others ∧
        equalMembers members others = true := by
  cases first with
  | null => cases second <;> simp [equals] at h ⊢
  | bool a => cases second <;> simp [equals] at h ⊢; exact h
  | string s => cases second <;> simp [equals] at h ⊢; exact h
  | number m =>
    cases second with
    | number n =>
      rcases m with m | x <;> rcases n with n | y <;>
        simp [equals, Number.equals, Number.Double.equals] at h ⊢ <;> exact h
    | _ => exact absurd h Bool.false_ne_true
  | array items => cases second <;> simp [equals] at h ⊢; exact Or.inr h
  | object members => cases second <;> simp [equals] at h ⊢; exact Or.inr h

/-! ### The notation of equal values -/

open Naming (AlikeInRun)

/-- A zero is written with its sign. -/
theorem text_of_significand_eq_zero {x : Number.Double} (h : x.significand = 0) :
    x.text = if x.negative then "-0.0" else "0.0" := by
  rw [Number.Double.text, if_pos h]
  cases x.negative <;> rfl

/-- The notations of the two zeros differ in a sign. -/
theorem alikeInRun_zeros {x y : Number.Double} (hx : x.significand = 0) (hy : y.significand = 0) :
    AlikeInRun x.text.toList y.text.toList := by
  have hsign (negative : Bool) :
      AlikeInRun (if negative then "-0.0" else "0.0").toList "0.0".toList := by
    cases negative with
    | false => exact .refl _
    | true => exact .cons_of_eq_minus rfl "0.0".toList
  rw [text_of_significand_eq_zero hx, text_of_significand_eq_zero hy]
  exact fun more => (hsign x.negative more).trans (hsign y.negative more).symm

/-- Texts that are alike may be joined with others that are. -/
theorem alikeInRun_join_cons {first second : String} {rest others : List String}
    (hfirst : AlikeInRun first.toList second.toList)
    (hrest : AlikeInRun (Text.join "," rest).toList (Text.join "," others).toList)
    (hlength : rest.length = others.length) :
    AlikeInRun (Text.join "," (first :: rest)).toList
      (Text.join "," (second :: others)).toList := by
  cases rest with
  | nil =>
    obtain rfl := List.eq_nil_of_length_eq_zero hlength.symm
    exact hfirst
  | cons next more =>
    have hothers : others ≠ [] := by
      rintro rfl
      exact absurd hlength (Nat.succ_ne_zero _)
    rw [show "," = String.singleton ',' from rfl] at hrest ⊢
    rw [Text.toList_join_cons ',' first (List.cons_ne_nil _ _),
      Text.toList_join_cons ',' second hothers]
    exact hfirst.append (by decide) hrest

theorem length_compactItems {items others : List Value} (h : equalItems items others = true) :
    (compactItems items).length = (compactItems others).length := by
  induction items generalizing others with
  | nil =>
    cases others with
    | nil => rfl
    | cons other rest => simp [equalItems] at h
  | cons item rest ih =>
    cases others with
    | nil => simp [equalItems] at h
    | cons other others =>
      simp only [equalItems, Bool.and_eq_true] at h
      rw [compactItems, compactItems, List.length_cons, List.length_cons, ih h.2]

theorem length_compactMembers {members others : List (String × Value)}
    (h : equalMembers members others = true) :
    (compactMembers members).length = (compactMembers others).length := by
  induction members generalizing others with
  | nil =>
    cases others with
    | nil => rfl
    | cons other rest => simp [equalMembers] at h
  | cons member rest ih =>
    cases others with
    | nil => simp [equalMembers] at h
    | cons other others =>
      simp only [equalMembers, Bool.and_eq_true] at h
      rw [compactMembers, compactMembers, List.length_cons, List.length_cons, ih h.2]

theorem toList_compact_array (items : List Value) : (compact (.array items)).toList =
    '[' :: ((Text.join "," (compactItems items)).toList ++ [']']) := by
  simp [compact]

theorem toList_compact_object (members : List (String × Value)) :
    (compact (.object members)).toList =
      '\x7b' :: ((Text.join "," (compactMembers members)).toList ++ ['\x7d']) := by
  simp [compact]

mutual

/-- The signs of zeros are all in which the notations of equal values differ, and they are lost in
the runs that they stand in. -/
theorem alikeInRun_compact :
    ∀ first second : Value, first.equals second = true →
      AlikeInRun first.compact.toList second.compact.toList
  | .null, second, h => by
    obtain ⟨rfl⟩ : second = .null := by cases second <;> simp [equals] at h ⊢
    exact .refl _
  | .bool a, second, h => by
    obtain ⟨rfl⟩ : second = .bool a := by cases second <;> simp [equals] at h ⊢; exact h.symm
    exact .refl _
  | .string s, second, h => by
    obtain ⟨rfl⟩ : second = .string s := by cases second <;> simp [equals] at h ⊢; exact h.symm
    exact .refl _
  | .number m, second, h => by
    -- Equal numbers are the same or zeros.
    obtain rfl | ⟨x, y, hx, rfl, hx0, hy0⟩ | ⟨_, _, hm, -⟩ | ⟨_, _, hm, -⟩ := cases_of_equals h
    · exact .refl _
    · obtain rfl := Value.number.inj hx
      exact alikeInRun_zeros hx0 hy0
    · exact absurd hm nofun
    · exact absurd hm nofun
  | .array items, second, h => by
    obtain ⟨others, rfl⟩ : ∃ others, second = .array others := by
      cases second <;> simp [equals] at h ⊢
    rw [toList_compact_array, toList_compact_array]
    exact ((alikeInRun_items items others h).append (by decide) (.refl [])).cons (by decide)
  | .object members, second, h => by
    obtain ⟨others, rfl⟩ : ∃ others, second = .object others := by
      cases second <;> simp [equals] at h ⊢
    rw [toList_compact_object, toList_compact_object]
    exact ((alikeInRun_members members others h).append (by decide) (.refl [])).cons (by decide)

theorem alikeInRun_items :
    ∀ items others : List Value, equalItems items others = true →
      AlikeInRun (Text.join "," (compactItems items)).toList
        (Text.join "," (compactItems others)).toList
  | [], [], _ => .refl _
  | [], _ :: _, h => by simp [equalItems] at h
  | _ :: _, [], h => by simp [equalItems] at h
  | item :: rest, other :: others, h => by
    simp only [equalItems, Bool.and_eq_true] at h
    rw [compactItems, compactItems]
    exact alikeInRun_join_cons (alikeInRun_compact item other h.1)
      (alikeInRun_items rest others h.2) (length_compactItems h.2)

theorem alikeInRun_members :
    ∀ members others : List (String × Value), equalMembers members others = true →
      AlikeInRun (Text.join "," (compactMembers members)).toList
        (Text.join "," (compactMembers others)).toList
  | [], [], _ => .refl _
  | [], _ :: _, h => by simp [equalMembers] at h
  | _ :: _, [], h => by simp [equalMembers] at h
  | (name, value) :: rest, (otherName, other) :: others, h => by
    simp only [equalMembers, Bool.and_eq_true, beq_iff_eq] at h
    obtain ⟨⟨rfl, hvalue⟩, hrest⟩ := h
    have hmember : AlikeInRun (quoted name ++ ":" ++ value.compact).toList
        (quoted name ++ ":" ++ other.compact).toList := by
      -- A colon stands between the name and the value.
      have hsplit (text : String) : (quoted name ++ ":" ++ text).toList =
          (quoted name).toList ++ ':' :: text.toList := by simp
      rw [hsplit, hsplit]
      exact (AlikeInRun.refl _).append (by decide) (alikeInRun_compact value other hvalue)
    rw [compactMembers, compactMembers]
    exact alikeInRun_join_cons hmember (alikeInRun_members rest others hrest)
      (length_compactMembers hrest)

end

end Value

namespace Model

open Naming (AlikeInRun endsInRun sanitizeFrom)
open Value (AreZeros)

variable {name : String} {first second : Value}

/-! ### Constants of equal values -/

/-- A text that ends in an ASCII letter or digit. -/
def EndsAlphanumeric (text : String) : Prop :=
  ∃ c, text.toList.getLast? = some c ∧ c.isAlphanum = true

/-- Texts that are alike in a run come to one name if they start with one character that is neither
a letter nor a digit. -/
theorem sanitize_append_congr {c : Char} {rest other : List Char} (hc : c.isAlphanum = false)
    (h : AlikeInRun rest other) (before after : List Char) :
    sanitizeFrom false (before ++ c :: rest ++ after) =
      sanitizeFrom false (before ++ c :: other ++ after) := by
  rw [List.append_assoc, List.append_assoc, List.cons_append, List.cons_append,
    Naming.sanitizeFrom_append_cons hc false before (rest ++ after),
    Naming.sanitizeFrom_append_cons hc false before (other ++ after), h after]

theorem toList_constant_name (name : String) (value : Value) :
    (constant name value).name.toList = sanitizeFrom false
      ((Naming.identifier name).toList ++ (constantSegment value).toList ++ "Value".toList) := by
  rw [constant, Naming.sanitize, String.toList_ofList, String.toList_append, String.toList_append]

/-- A text that starts with a bracket is not changed by capitals. -/
theorem toList_capitalize {text : String} {c : Char} {rest : List Char}
    (htext : text.toList = c :: rest) (hupper : Text.Casing.unicode.upper c = [c]) :
    (Naming.capitalize text).toList = c :: rest := by
  rw [Naming.capitalize, String.toList_ofList, htext, Naming.capitalizeChars, hupper,
    List.singleton_append]

/-- A sign behind a bracket is lost with it in the name of a constant. -/
theorem constant_name_eq_of_bracket {c : Char} {rest other : List Char}
    (hc : c.isAlphanum = false) (hupper : Text.Casing.unicode.upper c = [c])
    (hfirst : constantSegment first = Naming.capitalize first.compact)
    (hsecond : constantSegment second = Naming.capitalize second.compact)
    (hrest : first.compact.toList = c :: rest) (hother : second.compact.toList = c :: other)
    (h : AlikeInRun rest other) : (constant name first).name = (constant name second).name := by
  rw [← String.toList_inj, toList_constant_name, toList_constant_name, hfirst, hsecond,
    toList_capitalize hrest hupper, toList_capitalize hother hupper]
  exact sanitize_append_congr hc h _ _

/-- Equal values have one constant unless they are the two zeros. -/
theorem constant_name_eq_of_equals (h : first.equals second = true) (hz : ¬AreZeros first second) :
    (constant name first).name = (constant name second).name := by
  rcases Value.cases_of_equals h with rfl | ⟨x, y, rfl, rfl, hx, hy⟩ |
    ⟨items, others, rfl, rfl, hitems⟩ | ⟨members, others, rfl, rfl, hmembers⟩
  · rfl
  · have hsign : x.negative = y.negative := by
      by_contra hne
      exact hz ⟨x, y, rfl, rfl, hx, hy, hne⟩
    have htext : x.text = y.text := by
      rw [Value.text_of_significand_eq_zero hx, Value.text_of_significand_eq_zero hy, hsign]
    have hsegment : constantSegment (.number (.double x)) =
        constantSegment (.number (.double y)) := congrArg Naming.capitalize htext
    rw [constant, constant, hsegment]
  · exact constant_name_eq_of_bracket (by decide) (by decide) rfl rfl
      (Value.toList_compact_array items) (Value.toList_compact_array others)
      ((Value.alikeInRun_items items others hitems).append (by decide) (.refl []))
  · exact constant_name_eq_of_bracket (by decide) (by decide) rfl rfl
      (Value.toList_compact_object members) (Value.toList_compact_object others)
      ((Value.alikeInRun_members members others hmembers).append (by decide) (.refl []))

/-- The two zeros have one constant exactly if the identifier of the property does not end in a
letter or digit. -/
theorem constant_name_zeros_iff (h : AreZeros first second) :
    (constant name first).name = (constant name second).name ↔
      ¬EndsAlphanumeric (Naming.identifier name) := by
  obtain ⟨x, y, rfl, rfl, hx, hy, hsign⟩ := h
  have hname (z : Number.Double) (hz : z.significand = 0) :
      (constant name (.number (.double z))).name.toList =
        sanitizeFrom false (Naming.identifier name).toList ++
          sanitizeFrom (endsInRun false (Naming.identifier name).toList)
            (if z.negative then "-0.0Value" else "0.0Value").toList := by
    have hsegment : constantSegment (.number (.double z)) =
        Naming.capitalize (if z.negative then "-0.0" else "0.0") :=
      congrArg Naming.capitalize (Value.text_of_significand_eq_zero hz)
    have hvalue : (constantSegment (.number (.double z))).toList ++ "Value".toList =
        (if z.negative then "-0.0Value" else "0.0Value").toList := by
      rw [hsegment]
      cases z.negative <;> decide +kernel
    rw [toList_constant_name, List.append_assoc, hvalue, Naming.sanitizeFrom_append_eq]
  have hends : endsInRun false (Naming.identifier name).toList = true ↔
      ¬EndsAlphanumeric (Naming.identifier name) := by
    have hne : (Naming.identifier name).toList ≠ [] := by
      rw [Naming.identifier, String.toList_ofList]
      exact (Naming.isIdentifier_identifierOf Naming.stableUpper_unicode name.toList).ne_nil
    rw [endsInRun, EndsAlphanumeric, List.getLast?_eq_some_getLast hne]
    simp
  -- In a run, the sign is lost; behind a letter or digit, it leaves a `_`.
  rw [← hends, ← String.toList_inj, hname x hx, hname y hy, List.append_cancel_left_eq]
  cases hxn : x.negative <;> cases hyn : y.negative <;>
    first
    | exact absurd (hxn.trans hyn.symm) hsign
    | cases endsInRun false (Naming.identifier name).toList <;> decide +kernel

end Model

end FunctionForge
