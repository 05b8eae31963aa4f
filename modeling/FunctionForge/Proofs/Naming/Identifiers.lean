import FunctionForge.Naming.Identifier
import FunctionForge.Proofs.Text.Uppercase
import Mathlib.Data.List.Basic

/-!
# What an identifier is

An identifier has no `-`, and every character that starts it or follows a `_` is in upper case
(`IsIdentifier`).  What is made of a name is an identifier (`isIdentifier_identifierOf`), and an
identifier is left as it is (`identifierOf_eq_self`), provided that uppercase forms are in upper
case and bring no separators (`StableUpper`), as those of the Unicode character database do
(`stableUpper_unicode`).
-/

namespace FunctionForge.Naming

open Text (Casing)

variable {casing : Casing} {name rest : List Char}

/-- What identifiers need to know of uppercase forms: every character has one, in which all
characters are in upper case. There is a separator in none of them but those of separators, and that
of `_` is `_`. -/
structure StableUpper (casing : Casing) : Prop where
  upper_ne_nil (c : Char) : casing.upper c ≠ []
  upper_of_mem {c d : Char} : d ∈ casing.upper c → casing.upper d = [d]
  separator_not_mem {c : Char} : isSeparator c = false →
    '-' ∉ casing.upper c ∧ '_' ∉ casing.upper c
  upper_underscore : casing.upper '_' = ['_']

theorem stableUpper_unicode : StableUpper .unicode where
  upper_ne_nil := Casing.upper_ne_nil
  upper_of_mem := Casing.upper_of_mem_upper
  separator_not_mem := by
    intro c hc
    refine ⟨fun hm => ?_, fun hm => ?_⟩
    · rw [Casing.eq_of_mark_mem_upper (by decide) hm] at hc
      exact absurd hc (by decide)
    · rw [Casing.eq_of_mark_mem_upper (by decide) hm] at hc
      exact absurd hc (by decide)
  upper_underscore := rfl

theorem isSeparator_iff {c : Char} : isSeparator c = true ↔ c = '-' ∨ c = '_' := by
  rw [isSeparator, Bool.or_eq_true, beq_iff_eq, beq_iff_eq]

theorem beq_underscore_eq_false {c : Char} (hc : ¬isSeparator c = true) : (c == '_') = false := by
  refine beq_false_of_ne ?_
  rintro rfl
  exact hc rfl

/-- An identifier: a text without `-` in which each character is in upper case that starts it or
follows a `_`. -/
structure IsIdentifier (casing : Casing) (name : List Char) : Prop where
  ne_nil : name ≠ []
  hyphen_not_mem : '-' ∉ name
  upper_of_start {before after : List Char} {c : Char} : name = before ++ c :: after →
    before = [] ∨ before.getLast? = some '_' → casing.upper c = [c]

/-! ### Starts of segments -/

/-- Every character that follows a `_` is in upper case, and so is the first one if `fresh`. -/
def Upright (casing : Casing) : Bool → List Char → Prop
  | _, [] => True
  | fresh, c :: rest => (fresh = true → casing.upper c = [c]) ∧ Upright casing (c == '_') rest

theorem Upright.of_true (h : Upright casing true name) (fresh : Bool) :
    Upright casing fresh name := by
  cases name with
  | nil => trivial
  | cons c rest => exact ⟨fun _ => h.1 rfl, h.2⟩

/-- A name is upright if each character at the start or behind an underscore is in upper case. -/
theorem upright_iff {fresh : Bool} : Upright casing fresh name ↔
    ∀ {before after : List Char} {c : Char}, name = before ++ c :: after →
      before = [] ∧ fresh = true ∨ before.getLast? = some '_' → casing.upper c = [c] := by
  induction name generalizing fresh with
  | nil => exact iff_of_true trivial fun h => absurd h (by simp)
  | cons first rest ih =>
    rw [Upright, ih]
    constructor
    · -- What stands before the character is empty, is the first one alone, or goes on behind it.
      rintro ⟨hfirst, hrest⟩ before after c heq hstart
      cases before with
      | nil =>
        obtain ⟨rfl, rfl⟩ := List.cons.inj heq
        rcases hstart with ⟨-, hfresh⟩ | hlast
        · exact hfirst hfresh
        · exact absurd hlast nofun
      | cons other before =>
        obtain ⟨rfl, rfl⟩ := List.cons.inj heq
        rcases hstart with ⟨hnil, -⟩ | hlast
        · exact absurd hnil nofun
        · refine hrest rfl ?_
          cases before with
          | nil => exact Or.inl ⟨rfl, by simpa using hlast⟩
          | cons next before => exact Or.inr (by rwa [List.getLast?_cons_cons] at hlast)
    · intro hall
      refine ⟨fun hfresh => hall (List.nil_append _).symm (Or.inl ⟨rfl, hfresh⟩), ?_⟩
      rintro before after c rfl hstart
      refine hall (List.cons_append).symm (Or.inr ?_)
      rcases hstart with ⟨rfl, hlast⟩ | hlast
      · simpa using hlast
      · cases before with
        | nil => exact absurd hlast nofun
        | cons next before => rwa [List.getLast?_cons_cons]

theorem isIdentifier_iff : IsIdentifier casing name ↔
    name ≠ [] ∧ '-' ∉ name ∧ Upright casing true name := by
  rw [upright_iff]
  simp only [and_true]
  exact ⟨fun h => ⟨h.ne_nil, h.hyphen_not_mem, h.upper_of_start⟩,
    fun h => ⟨h.1, h.2.1, h.2.2⟩⟩

/-! ### The identifier of a name -/

section

variable (h : StableUpper casing)

include h

theorem upright_replicate_append (hrest : Upright casing true rest) (n : Nat) :
    Upright casing true (List.replicate n '_' ++ rest) := by
  induction n with
  | zero => exact hrest
  | succ n ih => exact ⟨fun _ => h.upper_underscore, ih⟩

/-- The characters of an uppercase form are in upper case, and none of them is a `_`. -/
theorem upright_upper_append {c : Char} (hc : isSeparator c = false)
    (hrest : Upright casing false rest) (fresh : Bool) :
    Upright casing fresh (casing.upper c ++ rest) := by
  have hall : ∀ d ∈ casing.upper c, casing.upper d = [d] ∧ d ≠ '_' := by
    intro d hd
    refine ⟨h.upper_of_mem hd, ?_⟩
    rintro rfl
    exact (h.separator_not_mem hc).2 hd
  have hne := h.upper_ne_nil c
  generalize casing.upper c = form at hall hne
  clear hc
  -- Only the first character of the form may be asked, and none of them is an underscore.
  induction form generalizing fresh with
  | nil => exact absurd rfl hne
  | cons d form ih =>
    obtain ⟨⟨hd, hmark⟩, hform⟩ := List.forall_mem_cons.mp hall
    refine ⟨fun _ => hd, ?_⟩
    rw [beq_false_of_ne hmark]
    cases form with
    | nil => exact hrest
    | cons e form => exact ih false hform (List.cons_ne_nil _ _)

/-- What is made of a name is upright from where it starts. -/
theorem upright_identifierFrom (atStart : Bool) (run : Nat) (name : List Char) :
    Upright casing (atStart || run != 0) (identifierFrom casing atStart run name) := by
  fun_induction identifierFrom casing atStart run name with
  | case1 atStart run =>
    have hnil : Upright casing true [] := trivial
    have hrun := upright_replicate_append h hnil run
    rw [List.append_nil] at hrun
    exact hrun.of_true _
  | case2 atStart run c rest hc ih =>
    rw [bne_iff_ne.mpr (Nat.succ_ne_zero run), Bool.or_true] at ih
    exact ih.of_true _
  -- A segment starts here, behind the underscores that are kept.
  | case3 atStart run c rest hc hstart ih =>
    rw [List.append_assoc]
    have hsegment := upright_upper_append h (Bool.eq_false_of_not_eq_true hc) ih true
    exact (upright_replicate_append h hsegment _).of_true _
  | case4 atStart run c rest hc hstart ih =>
    refine ⟨fun hfresh => absurd hfresh hstart, ?_⟩
    rw [beq_underscore_eq_false hc]
    exact ih

/-- No hyphen is left. -/
theorem hyphen_not_mem_identifierFrom (atStart : Bool) (run : Nat) (name : List Char) :
    '-' ∉ identifierFrom casing atStart run name := by
  have hrun (n : Nat) : '-' ∉ List.replicate n '_' :=
    fun hm => absurd (List.eq_of_mem_replicate hm) (by decide)
  fun_induction identifierFrom casing atStart run name with
  | case1 atStart run => exact hrun run
  | case2 atStart run c rest hc ih => exact ih
  | case3 atStart run c rest hc hstart ih =>
    rw [List.mem_append, List.mem_append, not_or, not_or]
    exact ⟨⟨hrun _, (h.separator_not_mem (Bool.eq_false_of_not_eq_true hc)).1⟩, ih⟩
  | case4 atStart run c rest hc hstart ih =>
    rw [List.mem_cons, not_or]
    refine ⟨?_, ih⟩
    rintro rfl
    exact hc rfl

/-- Something is made of everything that is read. -/
theorem identifierFrom_ne_nil (atStart : Bool) (run : Nat) (name : List Char)
    (hne : run ≠ 0 ∨ name ≠ []) : identifierFrom casing atStart run name ≠ [] := by
  fun_induction identifierFrom casing atStart run name with
  | case1 atStart run =>
    rcases hne with hrun | hnil
    · exact fun hnone => hrun ((List.replicate_eq_nil_iff _).mp hnone)
    · exact absurd rfl hnil
  | case2 atStart run c rest hc ih => exact ih (Or.inl (Nat.succ_ne_zero run))
  | case3 atStart run c rest hc hstart ih =>
    intro hnone
    rw [List.append_eq_nil_iff, List.append_eq_nil_iff] at hnone
    exact h.upper_ne_nil c hnone.1.2
  | case4 atStart run c rest hc hstart ih => exact List.cons_ne_nil _ _

/-- What is made of a name is an identifier. -/
theorem isIdentifier_identifierOf (name : List Char) :
    IsIdentifier casing (identifierOf casing name) := by
  rw [isIdentifier_iff, identifierOf]
  split_ifs with hempty
  · exact ⟨List.cons_ne_nil _ _, by decide, fun _ => h.upper_underscore, trivial⟩
  · refine ⟨identifierFrom_ne_nil h true 0 name (Or.inr ?_),
      hyphen_not_mem_identifierFrom h true 0 name, upright_identifierFrom h true 0 name⟩
    rintro rfl
    exact hempty rfl

end

/-! ### Identifiers stay as they are -/

/-- A character in upper case leaves all separators before it. -/
theorem kept_of_upper_eq {c : Char} (h : casing.upper c = [c]) (atStart : Bool) (run : Nat) :
    kept casing atStart run c = run := by
  have hraises : raises casing c = false := by
    rw [raises, h, List.head?_cons, bne_self_eq_false, Bool.and_false]
  rw [kept, hraises, Bool.not_false, Bool.or_true, if_pos rfl]

/-- A name that is upright is passed through, and the underscores before it are kept. -/
theorem identifierFrom_of_upright {atStart : Bool} {run : Nat} {name : List Char}
    (hhyphen : '-' ∉ name) (h : Upright casing (atStart || run != 0) name) :
    identifierFrom casing atStart run name = List.replicate run '_' ++ name := by
  fun_induction identifierFrom casing atStart run name with
  | case1 atStart run => exact (List.append_nil _).symm
  -- A separator that is no hyphen is an underscore, which the run counts.
  | case2 atStart run c rest hc ih =>
    rw [List.mem_cons, not_or] at hhyphen
    obtain rfl : c = '_' :=
      (isSeparator_iff.mp hc).resolve_left fun heq => hhyphen.1 heq.symm
    rw [ih hhyphen.2 (h.2.of_true _), List.replicate_succ', List.append_assoc]
    rfl
  | case3 atStart run c rest hc hstart ih =>
    rw [List.mem_cons, not_or] at hhyphen
    have hupper := h.1 hstart
    have hrest := h.2
    rw [beq_underscore_eq_false hc] at hrest
    rw [ih hhyphen.2 hrest, kept_of_upper_eq hupper, hupper, List.append_assoc]
    rfl
  | case4 atStart run c rest hc hstart ih =>
    rw [List.mem_cons, not_or] at hhyphen
    have hrest := h.2
    rw [beq_underscore_eq_false hc] at hrest
    rw [Bool.or_eq_true, not_or, bne_iff_ne, not_not] at hstart
    rw [ih hhyphen.2 hrest, hstart.2]
    rfl

theorem identifierOf_eq_self (h : IsIdentifier casing name) : identifierOf casing name = name := by
  obtain ⟨hne, hhyphen, hupright⟩ := isIdentifier_iff.mp h
  rw [identifierOf, if_neg fun hempty => hne (List.isEmpty_iff.mp hempty),
    identifierFrom_of_upright hhyphen hupright]
  rfl

/-! ### Making identifiers -/

/-- What is made of a name is an identifier, and it is the name exactly if that is one; so it stays
the same if an identifier is made of it again. -/
theorem identifierOf_isProjection (h : StableUpper casing) (name : List Char) :
    IsIdentifier casing (identifierOf casing name) ∧
      (identifierOf casing name = name ↔ IsIdentifier casing name) ∧
      identifierOf casing (identifierOf casing name) = identifierOf casing name := by
  have hidentifier := isIdentifier_identifierOf h name
  refine ⟨hidentifier, ⟨fun heq => ?_, identifierOf_eq_self⟩, identifierOf_eq_self hidentifier⟩
  rwa [heq] at hidentifier

/-- A name with separators at both ends, in a row, and before a digit. -/
theorem identifierOf_isProjection_user :
    identifierOf .unicode "_user--id-2_".toList = "_User_Id_2_".toList ∧
      IsIdentifier .unicode "_User_Id_2_".toList ∧
      identifierOf .unicode "_User_Id_2_".toList = "_User_Id_2_".toList := by
  have hname : identifierOf .unicode "_user--id-2_".toList = "_User_Id_2_".toList := by
    decide +kernel
  obtain ⟨hidentifier, -, hagain⟩ :=
    identifierOf_isProjection stableUpper_unicode "_user--id-2_".toList
  rw [hname] at hidentifier hagain
  exact ⟨hname, hidentifier, hagain⟩

/-- The names that stay as they are are the identifiers. -/
theorem identifier_eq_self_iff {name : String} :
    identifier name = name ↔ IsIdentifier .unicode name.toList := by
  rw [identifier, ← String.toList_inj, String.toList_ofList]
  refine ⟨fun heq => ?_, identifierOf_eq_self⟩
  have hidentifier := isIdentifier_identifierOf stableUpper_unicode name.toList
  rwa [heq] at hidentifier

/-- The identifier of an identifier is the same. -/
theorem identifier_identifier (name : String) : identifier (identifier name) = identifier name := by
  rw [identifier_eq_self_iff, identifier, String.toList_ofList]
  exact isIdentifier_identifierOf stableUpper_unicode name.toList

end FunctionForge.Naming
