import Mathlib.Data.List.Basic

/-!
# Quoted texts

`unquote` reads a quoted text from behind its opening quote.  A text that is put between quotes as
it is is read back exactly if it holds neither a quote nor a backslash, whatever stands behind it
(`exists_unquote_append_iff`): a quote ends it too early, and what is read behind a backslash lags
behind the text (`unquote_append_ne`).
-/

namespace FunctionForge.Text

/-- Reads a quoted text, `escaped` telling whether the next character is taken as it is. -/
def unquoteFrom (escaped : Bool) : List Char → Option (List Char × List Char)
  | [] => none
  | c :: rest =>
    if !escaped && c = '"' then some ([], rest)
    else if !escaped && c = '\\' then unquoteFrom true rest
    else (unquoteFrom false rest).map fun (said, after) => (c :: said, after)

/-- What a quoted text says that starts before `text`, and what stands behind it.  A backslash takes
the next character as it is, and the first quote that is not taken so closes the text. -/
def unquote (text : List Char) : Option (List Char × List Char) :=
  unquoteFrom false text

/-- A text that says itself between quotes: it holds neither quotes nor backslashes. -/
def IsPlain (text : String) : Prop :=
  '"' ∉ text.toList ∧ '\\' ∉ text.toList

instance (text : String) : Decidable (IsPlain text) :=
  inferInstanceAs (Decidable (_ ∧ _))

variable {c : Char} {text rest after : List Char}

/-! ### Single characters -/

theorem unquote_quote : unquote ('"' :: rest) = some ([], rest) := rfl

theorem unquote_backslash : unquote ('\\' :: c :: rest) =
    (unquote rest).map fun (said, after) => (c :: said, after) := rfl

theorem unquote_cons (hquote : c ≠ '"') (hbackslash : c ≠ '\\') : unquote (c :: rest) =
    (unquote rest).map fun (said, after) => (c :: said, after) := by
  simp [unquote, unquoteFrom, hquote, hbackslash]

/-- A character is said in front of what is said behind it. -/
theorem map_cons_eq_some_iff {read : Option (List Char × List Char)} {d : Char} {said : List Char} :
    read.map (fun (said, after) => (d :: said, after)) = some (c :: said, after) ↔
      d = c ∧ read = some (said, after) := by
  cases read with
  | none => simp
  | some pair => simp [Prod.ext_iff, and_assoc]

/-- A character is said by itself, or by itself behind a backslash. -/
theorem unquote_eq_some_cons {said : List Char} (h : unquote text = some (c :: said, after)) :
    (∃ more, text = '\\' :: c :: more ∧ unquote more = some (said, after)) ∨
      ∃ more, c ≠ '"' ∧ c ≠ '\\' ∧ text = c :: more ∧ unquote more = some (said, after) := by
  cases text with
  | nil => exact absurd h nofun
  | cons d rest =>
    by_cases hquote : d = '"'
    · rw [hquote, unquote_quote] at h
      exact absurd h nofun
    · by_cases hbackslash : d = '\\'
      · subst hbackslash
        cases rest with
        | nil => exact absurd h nofun
        | cons e more =>
          obtain ⟨rfl, hmore⟩ := map_cons_eq_some_iff.mp h
          exact Or.inl ⟨more, rfl, hmore⟩
      · rw [unquote_cons hquote hbackslash] at h
        obtain ⟨rfl, hrest⟩ := map_cons_eq_some_iff.mp h
        exact Or.inr ⟨rest, hquote, hbackslash, rfl, hrest⟩

/-! ### Texts between quotes -/

theorem unquote_append (hquote : '"' ∉ text) (hbackslash : '\\' ∉ text) (after : List Char) :
    unquote (text ++ '"' :: after) = some (text, after) := by
  induction text with
  | nil => rfl
  | cons c rest ih =>
    rw [List.mem_cons, not_or] at hquote hbackslash
    rw [List.cons_append, unquote_cons (Ne.symm hquote.1) (Ne.symm hbackslash.1),
      ih hquote.2 hbackslash.2]
    rfl

/-- What is read lags behind a text once a backslash has been read: a text that would have to say
itself with backslashes in front needs still more of them. -/
theorem unquote_append_ne (n : Nat) (text after rest : List Char) :
    unquote (text ++ '"' :: after) ≠ some (List.replicate (n + 1) '\\' ++ text, rest) := by
  intro h
  obtain ⟨more, htext, hmore⟩ | ⟨-, -, hne, -, -⟩ := unquote_eq_some_cons h
  · match text with
    | [] => exact absurd (List.cons.inj htext).1 (by decide)
    | [_] => exact absurd (List.cons.inj (List.cons.inj htext).2).1 (by decide)
    | c :: d :: tail =>
      obtain ⟨rfl, htail⟩ := List.cons.inj htext
      obtain ⟨rfl, rfl⟩ := List.cons.inj htail
      -- Two backslashes have said one, so that one more is missing in what follows.
      refine unquote_append_ne (n + 1) tail after rest ?_
      rw [List.replicate_succ', List.replicate_succ']
      simpa using hmore
  · exact hne rfl

/-- A text between quotes says itself exactly if it holds neither a quote nor a backslash. -/
theorem exists_unquote_append_iff : (∃ rest, unquote (text ++ '"' :: after) = some (text, rest)) ↔
    '"' ∉ text ∧ '\\' ∉ text := by
  refine ⟨?_, fun h => ⟨after, unquote_append h.1 h.2 after⟩⟩
  rintro ⟨rest, h⟩
  induction text with
  | nil => exact ⟨List.not_mem_nil, List.not_mem_nil⟩
  | cons c tail ih =>
    obtain ⟨more, htext, hmore⟩ | ⟨more, hquote, hbackslash, htext, hmore⟩ := unquote_eq_some_cons h
    · obtain ⟨rfl, htail⟩ := List.cons.inj htext
      cases tail with
      | nil => exact absurd (List.cons.inj htail).1 (by decide)
      | cons d tail =>
        obtain ⟨rfl, rfl⟩ := List.cons.inj htail
        exact absurd hmore (unquote_append_ne 0 tail after rest)
    · obtain ⟨-, rfl⟩ := List.cons.inj htext
      obtain ⟨hnoquote, hnobackslash⟩ := ih hmore
      exact ⟨List.not_mem_cons_of_ne_of_not_mem (Ne.symm hquote) hnoquote,
        List.not_mem_cons_of_ne_of_not_mem (Ne.symm hbackslash) hnobackslash⟩

end FunctionForge.Text
