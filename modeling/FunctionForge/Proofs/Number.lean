import FunctionForge.Number.Shortest
import Mathlib.Data.List.Basic
import Mathlib.Tactic.SplitIfs

/-!
# The notation of numbers

No two natural numbers have one decimal notation (`decimal_injective`).  A numeral is a row of
digits, with a sign before it or none, and with a fraction, an exponent, both or none of them behind
it (`IsNumeral`); one that has neither is integral (`IsIntegral`).  The text of every number is a
numeral (`isNumeral_text`), and it is integral exactly if the number is an integer
(`isIntegral_text_iff`), for the text of a double has a fraction or an exponent even where its value
is a whole number.
-/

namespace FunctionForge.Number

/-! ### Natural numbers -/

theorem toList_decimal (n : Nat) : (decimal n).toList = digits n :=
  String.toList_ofList

theorem decimal_injective : Function.Injective decimal := by
  intro m n h
  have hdigits : digits m = digits n := by
    rw [← toList_decimal, ← toList_decimal, h]
  calc
    m = Nat.ofDigitChars 10 (digits m) 0 := Nat.ofDigitChars_ten_toDigits.symm
    _ = Nat.ofDigitChars 10 (digits n) 0 := by rw [hdigits]
    _ = n := Nat.ofDigitChars_ten_toDigits

/-! ### Numerals -/

/-- A row of decimal digits, of which there is one at least. -/
structure IsDigits (cs : List Char) : Prop where
  ne_nil : cs ≠ []
  isDigit : ∀ c ∈ cs, c.isDigit = true

/-- The sign of a numeral. -/
inductive IsSign : List Char → Prop
  | absent : IsSign []
  | minus : IsSign ['-']

/-- What stands behind the point of a numeral, with the point. -/
inductive IsFraction : List Char → Prop
  | absent : IsFraction []
  | present {ds : List Char} (h : IsDigits ds) : IsFraction ('.' :: ds)

/-- The exponent of a numeral. -/
inductive IsExponent : List Char → Prop
  | absent : IsExponent []
  | present {sign : Char} {ds : List Char} (hs : sign ∈ ['+', '-']) (h : IsDigits ds) :
      IsExponent ('e' :: sign :: ds)

/-- A number in decimal notation. -/
inductive IsNumeral : List Char → Prop
  | mk {sign whole fraction exponent : List Char} (hs : IsSign sign) (hw : IsDigits whole)
      (hf : IsFraction fraction) (he : IsExponent exponent) :
      IsNumeral (sign ++ (whole ++ (fraction ++ exponent)))

/-- A numeral without a fraction and without an exponent. -/
inductive IsIntegral : List Char → Prop
  | mk {sign whole : List Char} (hs : IsSign sign) (hw : IsDigits whole) :
      IsIntegral (sign ++ whole)

variable {cs ds : List Char}

/-- An integral numeral has neither fraction nor exponent. -/
theorem IsIntegral.isNumeral (h : IsIntegral cs) : IsNumeral cs := by
  obtain ⟨hs, hw⟩ := h
  have hnumeral := IsNumeral.mk hs hw .absent .absent
  rwa [List.append_nil, List.append_nil] at hnumeral

theorem IsIntegral.of_mem (h : IsIntegral cs) {c : Char} (hc : c ∈ cs) :
    c = '-' ∨ c.isDigit = true := by
  obtain ⟨hs, hw⟩ := h
  rcases List.mem_append.mp hc with hsign | hwhole
  · cases hs with
    | absent => exact absurd hsign List.not_mem_nil
    | minus => exact Or.inl (List.mem_singleton.mp hsign)
  · exact Or.inr (hw.isDigit c hwhole)

/-- A numeral starts with its sign or with a digit. -/
theorem IsNumeral.head?_eq_some (h : IsNumeral cs) :
    ∃ c, cs.head? = some c ∧ (c = '-' ∨ c.isDigit = true) := by
  obtain ⟨hs, hw, hf, he⟩ := h
  cases hs with
  | minus => exact ⟨'-', rfl, Or.inl rfl⟩
  | absent =>
    obtain ⟨c, more, rfl⟩ := List.exists_cons_of_ne_nil hw.ne_nil
    exact ⟨c, rfl, Or.inr (hw.isDigit c List.mem_cons_self)⟩

/-! ### Rows of digits -/

theorem isDigits_digits (n : Nat) : IsDigits (digits n) where
  ne_nil := Nat.toDigits_ne_nil
  isDigit := fun _ h => Nat.isDigit_of_mem_toDigits (by decide) (by decide) h

theorem isDigit_of_mem_zeros {n : Nat} : ∀ c ∈ List.replicate n '0', c.isDigit = true := by
  intro c hc
  rw [List.eq_of_mem_replicate hc]
  decide

theorem IsDigits.append_right (h : IsDigits ds) (hcs : ∀ c ∈ cs, c.isDigit = true) :
    IsDigits (ds ++ cs) where
  ne_nil := List.append_ne_nil_of_left_ne_nil h.ne_nil cs
  isDigit := List.forall_mem_append.mpr ⟨h.isDigit, hcs⟩

theorem IsDigits.append_left (h : IsDigits ds) (hcs : ∀ c ∈ cs, c.isDigit = true) :
    IsDigits (cs ++ ds) where
  ne_nil := List.append_ne_nil_of_right_ne_nil cs h.ne_nil
  isDigit := List.forall_mem_append.mpr ⟨hcs, h.isDigit⟩

theorem isDigits_zero : IsDigits ['0'] := ⟨List.cons_ne_nil _ _, by simp⟩

/-- A row of digits can be cut in two where digits are left on both sides. -/
theorem IsDigits.take_drop (h : IsDigits ds) {n : Nat} (hpos : 0 < n) (hlt : n < ds.length) :
    IsDigits (ds.take n) ∧ IsDigits (ds.drop n) := by
  refine ⟨⟨?_, fun c hc => h.isDigit c (List.mem_of_mem_take hc)⟩,
    ⟨?_, fun c hc => h.isDigit c (List.mem_of_mem_drop hc)⟩⟩
  · rw [← List.length_pos_iff, List.length_take]
    omega
  · rw [← List.length_pos_iff, List.length_drop]
    omega

/-! ### Texts of numbers -/

theorem isIntegral_decimalInt (n : Int) : IsIntegral (decimalInt n).toList := by
  cases n with
  | ofNat n =>
    rw [decimalInt, toList_decimal]
    exact .mk .absent (isDigits_digits n)
  | negSucc n =>
    rw [decimalInt, String.toList_append, toList_decimal]
    exact .mk .minus (isDigits_digits (n + 1))

/-- The text of a double, but for its sign: digits with a fraction or with an exponent. -/
inductive IsFractional : List Char → Prop
  | mk {whole fraction exponent : List Char} (hw : IsDigits whole) (hf : IsFraction fraction)
      (he : IsExponent exponent) (h : fraction ≠ [] ∨ exponent ≠ []) :
      IsFractional (whole ++ (fraction ++ exponent))

/-- The notation of a double has a fraction or an exponent, wherever its point stands. -/
theorem isFractional_decimalText (d : Nat) (exponent : Int) :
    IsFractional (decimalText d exponent) := by
  have hd := isDigits_digits d
  have hlength : 0 < (digits d).length := List.length_pos_iff.mpr hd.ne_nil
  rw [decimalText]
  split_ifs with hwhole hcut hsmall
  · -- The digits, zeros, and a fraction that is zero.
    exact .mk (hd.append_right isDigit_of_mem_zeros) (.present isDigits_zero) .absent
      (Or.inl (List.cons_ne_nil _ _))
  · -- The point is within the digits, for otherwise the exponent were not negative.
    obtain ⟨htake, hdrop⟩ := hd.take_drop
      (n := ((digits d).length + exponent).toNat) (by omega) (by omega)
    have hmk := IsFractional.mk htake (.present hdrop) .absent (Or.inl (List.cons_ne_nil _ _))
    rwa [List.append_nil] at hmk
  · have hfraction := hd.append_left (@isDigit_of_mem_zeros (-((digits d).length + exponent)).toNat)
    have hmk := IsFractional.mk isDigits_zero (.present hfraction) .absent
      (Or.inl (List.cons_ne_nil _ _))
    rwa [List.append_nil] at hmk
  -- The exponent stands behind the first digit, or behind the point that follows it.
  all_goals
    have hexponent (sign : Char) (hs : sign ∈ ['+', '-']) (n : Nat) :
        IsExponent ('e' :: sign :: digits n) := .present hs (isDigits_digits n)
    split
    · rename_i first heq
      rw [heq] at hd
      exact .mk hd .absent (hexponent _ (by decide) _) (Or.inr (List.cons_ne_nil _ _))
    · rename_i first others hothers heq
      rw [heq] at hd
      obtain ⟨hfirst, hrest⟩ := List.forall_mem_cons.mp hd.isDigit
      have hwhole : IsDigits [first] := ⟨List.cons_ne_nil _ _, by simpa using hfirst⟩
      change IsFractional ([first] ++ (('.' :: others) ++ ('e' :: _ :: digits _)))
      exact .mk hwhole (.present ⟨hothers, hrest⟩) (hexponent _ (by decide) _)
        (Or.inl (List.cons_ne_nil _ _))
    · rename_i hnil
      exact absurd hnil hd.ne_nil

/-- A point or the letter of an exponent is in the text of a double. -/
theorem IsFractional.exists_mark (h : IsFractional cs) : ∃ c ∈ ['.', 'e'], c ∈ cs := by
  obtain ⟨-, hf, he, hfraction | hexponent⟩ := h
  · cases hf with
    | absent => exact absurd rfl hfraction
    | present _ => exact ⟨'.', by decide, by simp⟩
  · cases he with
    | absent => exact absurd rfl hexponent
    | present _ _ => exact ⟨'e', by decide, by simp⟩

/-- A fraction or an exponent has a mark that is no digit. -/
theorem IsFractional.not_isIntegral (sign : List Char) (h : IsFractional cs) :
    ¬IsIntegral (sign ++ cs) := by
  intro hintegral
  obtain ⟨c, hc, hm⟩ := h.exists_mark
  have hdigit := hintegral.of_mem (List.mem_append_right sign hm)
  have hother : ∀ d ∈ ['.', 'e'], ¬(d = '-' ∨ d.isDigit = true) := by simp
  exact hother c hc hdigit

theorem isFractional_text_double (x : Double) :
    ∃ sign cs, IsSign sign ∧ IsFractional cs ∧ x.text.toList = sign ++ cs := by
  have hsign : IsSign (if x.negative then ['-'] else []) := by
    split_ifs
    · exact .minus
    · exact .absent
  have hzero : IsFractional ['0', '.', '0'] :=
    .mk isDigits_zero (.present isDigits_zero) .absent (Or.inl (List.cons_ne_nil _ _))
  rw [Double.text]
  generalize (if x.negative then ['-'] else []) = sign at hsign ⊢
  split_ifs
  · exact ⟨sign, _, hsign, hzero, String.toList_ofList⟩
  · exact ⟨sign, _, hsign, isFractional_decimalText _ _, String.toList_ofList⟩

/-- The text of a number is a numeral. -/
theorem isNumeral_text (n : Number) : IsNumeral n.text.toList := by
  cases n with
  | integer n => exact (isIntegral_decimalInt n).isNumeral
  | double x =>
    obtain ⟨sign, cs, hs, ⟨hw, hf, he, -⟩, heq⟩ := isFractional_text_double x
    rw [text, heq]
    exact .mk hs hw hf he

/-- The text of a number is integral exactly if the number is an integer. -/
theorem isIntegral_text_iff {n : Number} :
    IsIntegral n.text.toList ↔ ∃ m, n = .integer m := by
  cases n with
  | integer m => exact iff_of_true (isIntegral_decimalInt m) ⟨m, rfl⟩
  | double x =>
    obtain ⟨sign, cs, -, hcs, heq⟩ := isFractional_text_double x
    rw [text, heq]
    exact iff_of_false (hcs.not_isIntegral sign) nofun

end FunctionForge.Number
