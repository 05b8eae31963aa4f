import FunctionForge.Naming.Identifier
import FunctionForge.Proofs.Text.Uppercase
import Mathlib.Data.String.Basic

/-!
# Slashes in names

An identifier is made of a name by leaving out or replacing separators and by putting characters in
upper case.  A character that is no separator, and that only its own uppercase form has in it, is
therefore in the identifier exactly if it is in the name (`mem_identifierFrom_iff`).  The slash is
such a character (`slash_mem_upper_iff`), so that a class name has all slashes of the schema's name
in it (`slash_mem_className_iff`).
-/

namespace FunctionForge

/-- Only its own uppercase form has a slash in it. -/
theorem Text.Casing.slash_mem_upper_iff {c : Char} : '/' ∈ unicode.upper c ↔ c = '/' := by
  constructor
  · exact eq_of_mark_mem_upper (by decide)
  · rintro rfl
    exact List.mem_singleton_self _

/-! ### Identifiers -/

namespace Naming

open Text (Casing)

/-- A character that is no separator, and that no other character has in its uppercase form, stays
where it is. -/
theorem mem_identifierFrom_iff {casing : Casing} {mark : Char} (hmark : isSeparator mark = false)
    (hupper : ∀ c, mark ∈ casing.upper c ↔ c = mark) (atStart : Bool) (run : Nat)
    (name : List Char) : mark ∈ identifierFrom casing atStart run name ↔ mark ∈ name := by
  have hunderscore : mark ≠ '_' := by
    rintro rfl
    exact absurd hmark (by decide)
  have hrun (n : Nat) : mark ∉ List.replicate n '_' :=
    fun hm => hunderscore (List.eq_of_mem_replicate hm)
  -- What comes in between are underscores, and a mark is none.
  fun_induction identifierFrom casing atStart run name with
  | case1 atStart run => exact iff_of_false (hrun run) List.not_mem_nil
  | case2 atStart run c rest hc ih =>
    have hne : mark ≠ c := by
      rintro rfl
      rw [hmark] at hc
      exact absurd hc nofun
    rw [List.mem_cons, or_iff_right hne]
    exact ih
  | case3 atStart run c rest _ _ ih =>
    rw [List.mem_append, List.mem_append, hupper, List.mem_cons, or_iff_right (hrun _)]
    exact or_congr eq_comm ih
  | case4 atStart run c rest _ _ ih =>
    rw [List.mem_cons, List.mem_cons]
    exact or_congr_right ih

/-- An identifier has a slash in it exactly if the name has. -/
theorem slash_mem_identifier_iff {name : String} :
    '/' ∈ (identifier name).toList ↔ '/' ∈ name.toList := by
  rw [identifier, String.toList_ofList, identifierOf]
  split_ifs with hempty
  · rw [List.isEmpty_iff.mp hempty]
    decide
  · exact mem_identifierFrom_iff (by decide) (fun _ => Casing.slash_mem_upper_iff) true 0 _

theorem slash_mem_className_iff {naming : ClassNaming} {name : String} :
    '/' ∈ (naming.className name).toList ↔
      '/' ∈ naming.lead.toList ∨ '/' ∈ name.toList ∨ '/' ∈ naming.trail.toList := by
  rw [ClassNaming.className, String.toList_append, String.toList_append, List.mem_append,
    List.mem_append, slash_mem_identifier_iff, or_assoc]

end Naming

end FunctionForge
