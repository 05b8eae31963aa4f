import FunctionForge.Naming.Identifier
import Mathlib.Data.List.Chain
import Mathlib.Data.List.Rotate
import Mathlib.Tactic.SplitIfs

/-!
# Sanitized names

A sanitized text consists of letters, digits and `_`, and has no two `_` in a row
(`tidy_sanitizeFrom`, `Tidy.isChain`); a text like that is left as it is
(`sanitizeFrom_eq_self`).  So if something
is appended to a text, and what it is sanitized to is the text behind a word, then the word is what
was appended, but for a rotation (`isRotated_of_sanitizeFrom`).
-/

namespace FunctionForge.Naming

variable {inRun : Bool} {text more word : List Char}

/-! ### Sanitized texts -/

/-- A text of letters, digits and `_` without two `_` in a row, `inRun` telling whether a `_` stands
before it. -/
inductive Tidy : Bool → List Char → Prop
  | nil (inRun : Bool) : Tidy inRun []
  | alphanum {c : Char} {rest : List Char} (inRun : Bool) (hc : c.isAlphanum = true)
      (h : Tidy false rest) : Tidy inRun (c :: rest)
  | underscore {rest : List Char} (h : Tidy true rest) : Tidy false ('_' :: rest)

theorem tidy_sanitizeFrom (inRun : Bool) (text : List Char) :
    Tidy inRun (sanitizeFrom inRun text) := by
  fun_induction sanitizeFrom inRun text with
  | case1 inRun => exact .nil inRun
  | case2 inRun c rest hc ih => exact .alphanum inRun hc ih
  | case3 c rest hc ih => exact ih
  | case4 inRun c rest hc hrun ih =>
    obtain rfl : inRun = false := by simpa using hrun
    exact .underscore ih

theorem sanitizeFrom_eq_self (h : Tidy inRun text) : sanitizeFrom inRun text = text := by
  induction h with
  | nil inRun => rfl
  | alphanum inRun hc h ih => rw [sanitizeFrom, if_pos hc, ih]
  | underscore h ih => rw [sanitizeFrom, if_neg (by decide), if_neg (by decide), ih]

theorem Tidy.isAlphanum_or_eq (h : Tidy inRun text) :
    ∀ c ∈ text, c.isAlphanum = true ∨ c = '_' := by
  induction h with
  | nil => exact List.forall_mem_nil _
  | alphanum _ hc _ ih => exact List.forall_mem_cons.mpr ⟨Or.inl hc, ih⟩
  | underscore _ ih => exact List.forall_mem_cons.mpr ⟨Or.inr rfl, ih⟩

theorem Tidy.head?_ne (h : Tidy true text) : text.head? ≠ some '_' := by
  cases h with
  | nil => exact nofun
  | alphanum _ hc _ =>
    rintro ⟨⟩
    exact absurd hc (by decide)

/-- No two `_` of a tidy text are next to each other. -/
theorem Tidy.isChain (h : Tidy inRun text) : text.IsChain fun c d => ¬(c = '_' ∧ d = '_') := by
  induction h with
  | nil => exact .nil
  | alphanum _ hc _ ih =>
    refine ih.cons ?_
    rintro d - ⟨rfl, -⟩
    exact absurd hc (by decide)
  | underscore h ih =>
    refine ih.cons ?_
    rintro d hd ⟨-, rfl⟩
    exact h.head?_ne hd

/-- Letters and digits can be taken off the front of a tidy text. -/
theorem Tidy.of_append (h : Tidy false (word ++ text)) (hword : ∀ c ∈ word, c.isAlphanum = true) :
    Tidy false text := by
  induction word with
  | nil => exact h
  | cons c rest ih =>
    obtain ⟨hc, hrest⟩ := List.forall_mem_cons.mp hword
    rw [List.cons_append] at h
    cases h with
    | alphanum _ _ htail => exact ih htail hrest
    | underscore _ => exact absurd hc (by decide)

/-! ### Texts side by side -/

/-- Whether a text ends in a run of other characters than letters and digits, `inRun` telling
whether what stands before it does. -/
def endsInRun (inRun : Bool) (text : List Char) : Bool :=
  (text.getLast?.map fun c => !c.isAlphanum).getD inRun

theorem endsInRun_cons (inRun : Bool) (c : Char) (rest : List Char) :
    endsInRun inRun (c :: rest) = endsInRun (!c.isAlphanum) rest := by
  cases rest with
  | nil => rfl
  | cons d more =>
    rw [endsInRun, endsInRun, List.getLast?_cons_cons, List.getLast?_cons, Option.map_some,
      Option.getD_some, Option.getD_some]

/-- What is appended to a text is sanitized as what stands in a run of other characters or not. -/
theorem sanitizeFrom_append_eq (inRun : Bool) (text more : List Char) :
    sanitizeFrom inRun (text ++ more) =
      sanitizeFrom inRun text ++ sanitizeFrom (endsInRun inRun text) more := by
  fun_induction sanitizeFrom inRun text with
  | case1 inRun => rfl
  | case2 inRun c rest hc ih =>
    rw [List.cons_append, sanitizeFrom, if_pos hc, ih, endsInRun_cons, hc, List.cons_append]
    rfl
  | case3 c rest hc ih =>
    have hother : c.isAlphanum = false := by simpa using hc
    rw [List.cons_append, sanitizeFrom, if_neg hc, if_pos rfl, ih, endsInRun_cons, hother]
    rfl
  | case4 inRun c rest hc hin ih =>
    have hother : c.isAlphanum = false := by simpa using hc
    rw [List.cons_append, sanitizeFrom, if_neg hc, if_neg hin, ih, endsInRun_cons, hother,
      List.cons_append]
    rfl

theorem exists_sanitizeFrom_append (inRun : Bool) (text more : List Char) :
    ∃ run, sanitizeFrom inRun (text ++ more) =
      sanitizeFrom inRun text ++ sanitizeFrom run more :=
  ⟨_, sanitizeFrom_append_eq inRun text more⟩

/-- What stands behind another character than a letter or digit is sanitized as part of a run. -/
theorem sanitizeFrom_append_cons {c : Char} (hc : c.isAlphanum = false) (inRun : Bool)
    (text rest : List Char) :
    sanitizeFrom inRun (text ++ c :: rest) =
      sanitizeFrom inRun (text ++ [c]) ++ sanitizeFrom true rest := by
  have hends : endsInRun inRun (text ++ [c]) = true := by
    rw [endsInRun, List.getLast?_concat, Option.map_some, Option.getD_some, hc]
    rfl
  have hsplit : text ++ c :: rest = text ++ [c] ++ rest := by simp
  rw [hsplit, sanitizeFrom_append_eq, hends]

/-- Two texts come to the same behind a run of other characters than letters and digits, whatever
follows them. -/
def AlikeInRun (text other : List Char) : Prop :=
  ∀ more, sanitizeFrom true (text ++ more) = sanitizeFrom true (other ++ more)

namespace AlikeInRun

variable {other next nextOther : List Char}

theorem refl (text : List Char) : AlikeInRun text text := fun _ => rfl

/-- A sign goes with the run. -/
theorem cons_of_eq_minus {c : Char} (hc : c = '-') (text : List Char) :
    AlikeInRun (c :: text) text := by
  intro more
  have hminus : ¬c.isAlphanum = true := by
    rw [hc]
    decide
  rw [List.cons_append, sanitizeFrom, if_neg hminus, if_pos rfl]

/-- Texts may be put together where another character than a letter or digit stands. -/
theorem append (h : AlikeInRun text other) {c : Char} (hc : c.isAlphanum = false)
    (hnext : AlikeInRun next nextOther) :
    AlikeInRun (text ++ c :: next) (other ++ c :: nextOther) := by
  intro more
  rw [List.append_assoc, List.append_assoc, List.cons_append, List.cons_append,
    sanitizeFrom_append_cons hc, sanitizeFrom_append_cons hc true other, h [c], hnext more]

theorem cons (h : AlikeInRun text other) {c : Char} (hc : c.isAlphanum = false) :
    AlikeInRun (c :: text) (c :: other) :=
  append (refl []) hc h

end AlikeInRun

/-- Behind letters and digits, what is appended is sanitized as it is by itself. -/
theorem sanitizeFrom_append (h : ∀ c ∈ text, c.isAlphanum = true) (more : List Char) :
    sanitizeFrom false (text ++ more) = text ++ sanitizeFrom false more := by
  induction text with
  | nil => rfl
  | cons c rest ih =>
    obtain ⟨hc, hrest⟩ := List.forall_mem_cons.mp h
    rw [List.cons_append, sanitizeFrom, if_pos hc, ih hrest, List.cons_append]

theorem head?_sanitizeFrom (text : List Char) : (sanitizeFrom false text).head? =
    text.head?.map fun c => if c.isAlphanum then c else '_' := by
  cases text with
  | nil => rfl
  | cons c rest =>
    rw [sanitizeFrom, List.head?_cons, Option.map_some]
    split_ifs
    · rfl
    · contradiction
    · rfl

/-- If a text has a word in front of it that can as well be another one behind it, then one word is
the other rotated, and the text is made of its characters. -/
theorem isRotated_of_append_eq {other : List Char} (hne : word ≠ [])
    (h : text ++ other = word ++ text) : word ~r other ∧ text ⊆ word := by
  induction hlength : text.length using Nat.strong_induction_on generalizing text with
  | _ length ih =>
    rcases List.append_eq_append_iff.mp h with ⟨rest, hword, hother⟩ | ⟨rest, htext, hrest⟩
    · -- The text is shorter than the word, which goes on with what the other one starts with.
      have hlt : text.length ≤ word.length := by simp [hword]
      refine ⟨⟨text.length, ?_⟩, by simp [hword]⟩
      rw [List.rotate_eq_drop_append_take hlt, hword, hother]
      simp
    · -- The text starts with the word, and what is left of it is a text like it.
      have hshorter : rest.length < length := by
        have hpos := List.length_pos_iff.mpr hne
        rw [← hlength, htext, List.length_append]
        omega
      obtain ⟨hrotated, hsubset⟩ := ih rest.length hshorter (hrest.symm.trans htext) rfl
      refine ⟨hrotated, ?_⟩
      rw [htext]
      exact List.append_subset.mpr ⟨List.Subset.refl word, hsubset⟩

/-- If a text with something appended to it is sanitized to the text behind a word, then the word is
what the appended text is sanitized to, but for a rotation. -/
theorem isRotated_of_sanitizeFrom (hword : ∀ c ∈ word, c.isAlphanum = true) (hne : word ≠ [])
    (h : sanitizeFrom false (text ++ more) = word ++ text) : word ~r sanitizeFrom false more := by
  -- The text is part of a sanitized one, so it is left as it is.
  have htidy : Tidy false text := Tidy.of_append (h ▸ tidy_sanitizeFrom false _) hword
  obtain ⟨run, hrun⟩ := exists_sanitizeFrom_append false text more
  rw [sanitizeFrom_eq_self htidy, h] at hrun
  obtain ⟨-, hsubset⟩ := isRotated_of_append_eq hne hrun.symm
  -- It is made of letters and digits, as the word is.
  rw [sanitizeFrom_append fun c hc => hword c (hsubset hc)] at h
  exact (isRotated_of_append_eq hne h).1

end FunctionForge.Naming
