import FunctionForge.Model.Property
import FunctionForge.Proofs.Model.Literals
import FunctionForge.Proofs.Text.Cut
import FunctionForge.Proofs.Text.Quoted

/-!
# Strings as literals

The literal of a string is what comes of two replacements one after the other: first every
backslash is doubled, then a backslash is put before every quote (`stringLiteral_eq`).  The second
replacement leaves the pairs of the first one alone, since it looks for quotes only.  So behind the
opening quote each character is read back as itself (`unquote_flatMap_escapeLiteral`), the literal
ends where it ends, and no other value has it (`unquote_literal_string`).
-/

namespace FunctionForge.Model

open Text (replaceAll unquote unquote_backslash unquote_cons unquote_quote)

/-- A string is escaped by two replacements of the whole string: of the backslashes, and then of the
quotes. -/
theorem stringLiteral_eq (s : String) : stringLiteral s =
    "\"" ++ replaceAll "\"" "\\\"" (replaceAll "\\" "\\\\" s) ++ "\"" := by
  have hbackslashes : (replaceAll "\\" "\\\\" s).toList =
      s.toList.flatMap fun c => if c = '\\' then ['\\', '\\'] else [c] :=
    Text.toList_replaceAll_singleton '\\' "\\\\" s
  have hquotes (t : String) : (replaceAll "\"" "\\\"" t).toList =
      t.toList.flatMap fun c => if c = '"' then ['\\', '"'] else [c] :=
    Text.toList_replaceAll_singleton '"' "\\\"" t
  have hescape (c : Char) : escapeLiteral c =
      (if c = '\\' then ['\\', '\\'] else [c]).flatMap fun d =>
        if d = '"' then ['\\', '"'] else [d] := by
    rw [escapeLiteral]
    by_cases hbackslash : c = '\\'
    · simp [hbackslash]
    · by_cases hquote : c = '"' <;> simp [hbackslash, hquote]
  rw [stringLiteral, funext hescape, ← List.flatMap_assoc, ← hbackslashes, ← hquotes,
    ← String.toList_inj, String.toList_ofList, String.toList_append, String.toList_append]
  rfl

/-- Escaped characters are read back as themselves, up to the quote behind them. -/
theorem unquote_flatMap_escapeLiteral (text after : List Char) :
    unquote (text.flatMap escapeLiteral ++ '"' :: after) = some (text, after) := by
  induction text with
  | nil => exact unquote_quote
  | cons c rest ih =>
    rw [List.flatMap_cons, List.append_assoc, escapeLiteral]
    split_ifs with hspecial
    · rw [List.cons_append, List.singleton_append, unquote_backslash, ih]
      rfl
    · rw [not_or] at hspecial
      rw [List.singleton_append, unquote_cons hspecial.2 hspecial.1, ih]
      rfl

theorem stringLiteral_injective : Function.Injective stringLiteral := by
  intro s t h
  rw [stringLiteral, stringLiteral, ← String.toList_inj, String.toList_ofList,
    String.toList_ofList] at h
  have hread := unquote_flatMap_escapeLiteral s.toList []
  rw [(List.cons.inj h).2, unquote_flatMap_escapeLiteral, Option.some.injEq, Prod.mk.injEq] at hread
  exact String.toList_inj.mp hread.1.symm

/-- The literal of a string is its own: no other value is written like it. -/
theorem literal_eq_literal_string_iff {value : Value} {s : String} :
    literal value = literal (.string s) ↔ value = .string s := by
  refine ⟨fun h => ?_, fun h => by rw [h]⟩
  obtain ⟨t, rfl⟩ : ∃ t, value = .string t := by
    rw [← isQuoted_literal_iff, h, isQuoted_literal_iff]
    exact ⟨s, rfl⟩
  rw [stringLiteral_injective h]

/-- A string that is declared as a default or enumerated is written as a literal that is read back
as the string, and ends at its last character, whatever stands behind it.  Its backslashes are
doubled before its quotes get theirs, and no other value has its literal. -/
theorem unquote_literal_string (s : String) :
    (declaredDefault (.string s) = .ok (.literal (literal (.string s))) ∧
      ∀ property, (constant property (.string s)).literal = literal (.string s)) ∧
    literal (.string s) = "\"" ++ replaceAll "\"" "\\\"" (replaceAll "\\" "\\\\" s) ++ "\"" ∧
    (∃ quoted, (literal (.string s)).toList = '"' :: quoted ∧
      ∀ after, unquote (quoted ++ after) = some (s.toList, after)) ∧
    ∀ value, literal value = literal (.string s) ↔ value = .string s := by
  refine ⟨⟨rfl, fun property => rfl⟩, stringLiteral_eq s, ?_,
    fun value => literal_eq_literal_string_iff⟩
  refine ⟨s.toList.flatMap escapeLiteral ++ ['"'], String.toList_ofList, fun after => ?_⟩
  rw [List.append_assoc, List.singleton_append]
  exact unquote_flatMap_escapeLiteral s.toList after

example : literal (.string "C:\\\"temp\"\\") = "\"C:\\\\\\\"temp\\\"\\\\\"" := by decide

end FunctionForge.Model
