import FunctionForge.Model.Literal
import FunctionForge.Proofs.Number

/-!
# Kinds of literals

Whether a literal is quoted, a truth value, a numeral or null can be seen from how it starts, so
that the literal of a value is of one kind at most: that of the value (`isQuoted_literal_iff`,
`isTruth_literal_iff`, `isNumeral_literal_iff`, `literal_eq_null_iff`).  An array or an object has a
literal of no kind.
-/

namespace FunctionForge.Model

open Number (IsIntegral IsNumeral)

/-- A text that starts with a quote. -/
def IsQuoted (text : String) : Prop :=
  text.toList.head? = some '"'

/-- One of the two truth values. -/
def IsTruth (text : String) : Prop :=
  text = "true" ∨ text = "false"

/-! ### How literals start -/

/-- What a literal starts with; a number starts with what its text starts with. -/
theorem head?_literal (value : Value) : (literal value).toList.head? =
    match value with
    | .null => some 'n'
    | .bool true => some 't'
    | .bool false => some 'f'
    | .number n => n.text.toList.head?
    | .string _ => some '"'
    | .array _ => some '['
    | .object _ => some '\x7b' := by
  rcases value with _ | (_ | _) | n | s | items | members
  · decide
  · decide
  · decide
  · rfl
  · simp [literal, stringLiteral]
  · simp [literal, Value.compact]
  · simp [literal, Value.compact]

/-- The text of a number starts with a sign or with a digit. -/
theorem head?_text_ne {c : Char} (hsign : c ≠ '-') (hdigit : c.isDigit = false) (n : Number) :
    n.text.toList.head? ≠ some c := by
  obtain ⟨d, hd, hor⟩ := (Number.isNumeral_text n).head?_eq_some
  rw [hd]
  rintro ⟨⟩
  rcases hor with hminus | hdigits
  · exact hsign hminus
  · exact absurd (hdigit.symm.trans hdigits) Bool.false_ne_true

/-! ### Kinds -/

/-- Only a string is written with quotes. -/
theorem isQuoted_literal_iff {value : Value} :
    IsQuoted (literal value) ↔ ∃ s, value = .string s := by
  have hnumber := @head?_text_ne '"' (by decide) (by decide)
  rw [IsQuoted, head?_literal]
  rcases value with _ | (_ | _) | n | s | items | members <;> simp [hnumber]

/-- No other value is written as null is. -/
theorem literal_eq_null_iff {value : Value} : literal value = "null" ↔ value = .null := by
  refine ⟨fun h => ?_, fun h => by rw [h]; rfl⟩
  have hnumber := @head?_text_ne 'n' (by decide) (by decide)
  have hhead : (literal value).toList.head? = some 'n' := by
    rw [h]
    decide
  rw [head?_literal] at hhead
  rcases value with _ | (_ | _) | n | s | items | members <;> simp [hnumber] at hhead ⊢

/-- Only a truth value is written as one. -/
theorem isTruth_literal_iff {value : Value} :
    IsTruth (literal value) ↔ ∃ b, value = .bool b := by
  constructor
  · intro h
    have htrue := @head?_text_ne 't' (by decide) (by decide)
    have hfalse := @head?_text_ne 'f' (by decide) (by decide)
    have hhead : (literal value).toList.head? = some 't' ∨
        (literal value).toList.head? = some 'f' := by
      rcases h with h | h
      · exact Or.inl (by rw [h]; decide)
      · exact Or.inr (by rw [h]; decide)
    rw [head?_literal] at hhead
    rcases value with _ | (_ | _) | n | s | items | members <;> simp [htrue, hfalse] at hhead ⊢
  · rintro ⟨_ | _, rfl⟩
    · exact Or.inr rfl
    · exact Or.inl rfl

/-- Only a number is written as a numeral, for no other literal starts like one. -/
theorem isNumeral_literal_iff {value : Value} :
    IsNumeral (literal value).toList ↔ ∃ n, value = .number n := by
  constructor
  · intro h
    obtain ⟨c, hc, hor⟩ := h.head?_eq_some
    have hmarks : ∀ mark ∈ ['n', 't', 'f', '"', '[', '\x7b'], mark ≠ c := by
      rintro mark hm rfl
      have hnone : ∀ d ∈ ['n', 't', 'f', '"', '[', '\x7b'], ¬(d = '-' ∨ d.isDigit = true) := by
        simp
      exact hnone mark hm hor
    simp only [List.forall_mem_cons] at hmarks
    rw [head?_literal] at hc
    rcases value with _ | (_ | _) | n | s | items | members <;> simp [hmarks] at hc ⊢
  · rintro ⟨n, rfl⟩
    exact Number.isNumeral_text n

/-- Only an integer is written as an integral numeral. -/
theorem isIntegral_literal_iff {value : Value} :
    IsIntegral (literal value).toList ↔ ∃ n, value = .number (.integer n) := by
  constructor
  · intro h
    obtain ⟨n, rfl⟩ := isNumeral_literal_iff.mp h.isNumeral
    obtain ⟨m, rfl⟩ := Number.isIntegral_text_iff.mp h
    exact ⟨m, rfl⟩
  · rintro ⟨n, rfl⟩
    exact Number.isIntegral_decimalInt n

end FunctionForge.Model
