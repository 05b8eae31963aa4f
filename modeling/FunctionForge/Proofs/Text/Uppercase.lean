import FunctionForge.Text.Casing
import Mathlib.Data.List.Basic
import Mathlib.Data.Nat.Bitwise

/-!
# Uppercase forms

The characters of an uppercase form have no other uppercase form (`upper_of_mem_upper`), and the
characters that names are cut at are in no uppercase form but their own (`eq_of_mark_mem_upper`).
Both are read off the tables: the characters that these map to are none of those that they map from.
To compare the two lists, each is taken as the number whose bits are at its places (`mask`).
-/

namespace FunctionForge.Text

namespace CasingData

/-! ### Entries -/

/-- The entries of a table come line by line.  The line is given by its characters, since these are
quicker to cut than the literal. -/
theorem entries_ofList_cons {line : List Char} {rest : List String} {found : List (List Char)}
    (h : entries rest = found) : entries (String.ofList line :: rest) = words [] line ++ found := by
  rw [← h, entries, entries, List.flatMap_cons, String.toList_ofList]

theorem toList_table {lines : List String} {found : List (List Char)} (h : entries lines = found) :
    (table lines).toList = found.map Run.ofText := by
  rw [table, List.toList_toArray, h]

/-- The characters that an entry lists, each with the one that it is sent to. -/
def Run.pairs (run : Run) : List (Nat × Nat) :=
  (List.range ((run.last - run.first) / run.step + 1)).map fun i =>
    (run.first + run.step * i, run.image + run.step * i)

/-- A run of the table maps each number that it covers as one of its pairs says. -/
theorem Run.mem_pairs_of_covers {run : Run} {n : Nat} (h : run.covers n = true) :
    (n, run.apply n) ∈ run.pairs := by
  simp only [Run.covers, Bool.and_eq_true, decide_eq_true_eq, beq_iff_eq] at h
  obtain ⟨⟨hfirst, hlast⟩, hstep⟩ := h
  have hmul : run.step * ((n - run.first) / run.step) = n - run.first :=
    Nat.mul_div_cancel' (Nat.dvd_of_mod_eq_zero hstep)
  refine List.mem_map.mpr ⟨(n - run.first) / run.step, ?_, ?_⟩
  · rw [List.mem_range, Nat.lt_succ_iff]
    exact Nat.div_le_div_right (by omega)
  · rw [hmul, Run.apply, Nat.add_sub_cancel' hfirst]

/-! ### What is mapped, and to what -/

/-- The characters that have another uppercase form. -/
def cased (runs : List Run) (several : List (Nat × List Nat)) : List Nat :=
  List.range' 0x61 26 ++ runs.flatMap (fun run => run.pairs.map Prod.fst) ++ several.map Prod.fst

/-- The characters above ASCII are sent to these. -/
def capitals (runs : List Run) (several : List (Nat × List Nat)) : List Nat :=
  runs.flatMap (fun run => run.pairs.map Prod.snd) ++ several.flatMap Prod.snd

/-- The characters that names are cut at. -/
def marks : List Char := ['-', '/', '_']

/-- The number that has a bit at each of some places. -/
def mask (places : List Nat) : Nat :=
  places.foldr (fun n rest => 1 <<< n ||| rest) 0

/-- The bits of a mask are set at the places that it is made of. -/
theorem testBit_mask (places : List Nat) (n : Nat) :
    (mask places).testBit n = decide (n ∈ places) := by
  induction places with
  | nil => simp [mask]
  | cons m rest ih =>
    rw [mask, List.foldr_cons, Nat.testBit_or, ← mask, ih, Nat.one_shiftLeft, Nat.testBit_two_pow,
      ← Bool.decide_or]
    simp only [List.mem_cons, eq_comm]

/-- Masks without a common bit are those of lists without a common number. -/
theorem not_mem_of_mask_and_eq_zero {one other : List Nat} (h : mask one &&& mask other = 0)
    {n : Nat} (hn : n ∈ one) : n ∉ other := by
  intro hm
  have hbit : (mask one &&& mask other).testBit n = true := by
    rw [Nat.testBit_and, testBit_mask, testBit_mask, decide_eq_true hn, decide_eq_true hm]
    rfl
  rw [h, Nat.zero_testBit] at hbit
  exact absurd hbit nofun

/-- No character is sent to a mark, to one that is mapped itself, or to nothing. -/
theorem mask_capitals :
    mask (capitals toUpper.toList toUpperSeveral) &&&
        mask (marks.map Char.toNat ++ cased toUpper.toList toUpperSeveral) = 0 ∧
      ∀ entry ∈ toUpperSeveral, entry.2 ≠ [] := by
  have htables : ∃ runs several, toUpper.toList = runs ∧ toUpperSeveral = several ∧
      mask (capitals runs several) &&& mask (marks.map Char.toNat ++ cased runs several) = 0 ∧
      ∀ entry ∈ several, entry.2 ≠ [] := by
    -- The entries are found by unfolding the tables row by row, and then the check computes.
    apply Exists.intro
    apply Exists.intro
    refine ⟨?_, ?_, ?_⟩
    · unfold toUpper
      apply toList_table
      repeat apply entries_ofList_cons
      exact rfl
    · unfold toUpperSeveral
      apply congrArg
      repeat apply entries_ofList_cons
      exact rfl
    · decide +kernel
  obtain ⟨runs, several, hruns, hseveral, hcheck⟩ := htables
  rw [hruns, hseveral]
  exact hcheck

theorem apart_of_mem_capitals {n : Nat} (h : n ∈ capitals toUpper.toList toUpperSeveral) :
    n ∉ marks.map Char.toNat ∧ n ∉ cased toUpper.toList toUpperSeveral := by
  have hout := not_mem_of_mask_and_eq_zero mask_capitals.1 h
  rwa [List.mem_append, not_or] at hout

section

variable {runs : List Run} {several : List (Nat × List Nat)} {n : Nat}

theorem not_covers_of_not_mem_cased (h : n ∉ cased runs several) {run : Run} (hrun : run ∈ runs) :
    ¬run.covers n = true := by
  intro hcovers
  refine h (List.mem_append_left _ (List.mem_append_right _ (List.mem_flatMap.mpr ⟨run, hrun, ?_⟩)))
  exact List.mem_map_of_mem (f := Prod.fst) (Run.mem_pairs_of_covers hcovers)

/-- What is not mapped has no uppercase form of several characters. -/
theorem lookup_of_not_mem_cased (h : n ∉ cased runs several) : several.lookup n = none := by
  refine List.lookup_eq_none_iff.mpr fun entry hm => ?_
  rw [bne_iff_ne]
  rintro rfl
  exact h (List.mem_append_right _ (List.mem_map_of_mem hm))

theorem apply_mem_capitals {run : Run} (hrun : run ∈ runs) (hcovers : run.covers n = true) :
    run.apply n ∈ capitals runs several := by
  refine List.mem_append_left _ (List.mem_flatMap.mpr ⟨run, hrun, ?_⟩)
  exact List.mem_map_of_mem (f := Prod.snd) (Run.mem_pairs_of_covers hcovers)

theorem mem_capitals_of_several {entry : Nat × List Nat} (hentry : entry ∈ several)
    (hn : n ∈ entry.2) : n ∈ capitals runs several :=
  List.mem_append_right _ (List.mem_flatMap.mpr ⟨entry, hentry, hn⟩)

end

theorem find?_eq_none {runs : Array Run} {n : Nat}
    (h : ∀ run ∈ runs.toList, ¬run.covers n = true) : find? runs n = none :=
  Array.find?_eq_none.mpr fun run hrun => h run (Array.mem_toList_iff.mpr hrun)

/-- A run that is found is one of the table and covers the number. -/
theorem mem_and_covers_of_find? {runs : Array Run} {n : Nat} {run : Run}
    (h : find? runs n = some run) : run ∈ runs.toList ∧ run.covers n = true := by
  rw [find?] at h
  have hcovers := Array.find?_some h
  exact ⟨Array.mem_toList_iff.mpr (Array.mem_of_find?_eq_some h), hcovers⟩

end CasingData

namespace Casing

open CasingData (Run cased capitals marks toUpper toUpperSeveral)

/-! ### Uppercase forms below `U+0080` -/

/-- The uppercase form of a character of the basic range is in it, is its own, and is a mark only of
that mark itself. -/
theorem toUpper_ascii {c : Char} (h : c.toNat < 0x80) :
    c.toUpper.toNat < 0x80 ∧ c.toUpper.toUpper = c.toUpper ∧
      (c.toUpper ∈ marks → c = c.toUpper) := by
  have hascii : ∀ n < 0x80, (Char.ofNat n).toUpper.toNat < 0x80 ∧
      (Char.ofNat n).toUpper.toUpper = (Char.ofNat n).toUpper ∧
      ((Char.ofNat n).toUpper ∈ marks → Char.ofNat n = (Char.ofNat n).toUpper) := by decide +kernel
  have hc := hascii c.toNat h
  rwa [Char.ofNat_toNat] at hc

theorem toUpper_eq_self_ascii {c : Char} (h : c.toNat < 0x80)
    (hlower : c.toNat ∉ List.range' 0x61 26) : c.toUpper = c := by
  have hascii : ∀ n < 0x80, n ∉ List.range' 0x61 26 → (Char.ofNat n).toUpper = Char.ofNat n := by
    decide +kernel
  have hc := hascii c.toNat h hlower
  rwa [Char.ofNat_toNat] at hc

theorem upper_of_lt {c : Char} (h : c.toNat < 0x80) : unicode.upper c = [c.toUpper] :=
  if_pos h

theorem upper_of_not_lt {c : Char} (h : ¬c.toNat < 0x80) : unicode.upper c = upperBeyond c :=
  if_neg h

/-! ### Uppercase forms above -/

section

variable {runs : Array Run} {c : Char}

theorem image_of_find?_eq_none (h : CasingData.find? runs c.toNat = none) : image runs c = c := by
  rw [image, h]

theorem image_of_find?_eq_some {run : Run} (h : CasingData.find? runs c.toNat = some run) :
    image runs c = Char.ofNat (run.apply c.toNat) := by
  rw [image, h]

theorem upperBeyond_of_lookup_eq_none (h : toUpperSeveral.lookup c.toNat = none) :
    upperBeyond c = [image toUpper c] := by
  unfold upperBeyond
  rw [h]

theorem upperBeyond_of_lookup_eq_some {images : List Nat}
    (h : toUpperSeveral.lookup c.toNat = some images) :
    upperBeyond c = images.map Char.ofNat := by
  unfold upperBeyond
  rw [h]

end

/-- A character that is not listed is its own uppercase form. -/
theorem upper_of_not_mem_cased {c : Char} (h : c.toNat ∉ cased toUpper.toList toUpperSeveral) :
    unicode.upper c = [c] := by
  by_cases hlt : c.toNat < 0x80
  · have hlower : c.toNat ∉ List.range' 0x61 26 :=
      fun hm => h (List.mem_append_left _ (List.mem_append_left _ hm))
    rw [upper_of_lt hlt, toUpper_eq_self_ascii hlt hlower]
  · have hlookup := CasingData.lookup_of_not_mem_cased h
    have hfind : CasingData.find? toUpper c.toNat = none :=
      CasingData.find?_eq_none fun run hrun => CasingData.not_covers_of_not_mem_cased h hrun
    rw [upper_of_not_lt hlt, upperBeyond_of_lookup_eq_none hlookup, image_of_find?_eq_none hfind]

/-- Above ASCII, a character is its own uppercase form, or it is sent to listed ones. -/
theorem upperBeyond_cases (c : Char) : upperBeyond c = [c] ∨
    ∃ images : List Nat, upperBeyond c = images.map Char.ofNat ∧ images ≠ [] ∧
      ∀ n ∈ images, n ∈ capitals toUpper.toList toUpperSeveral := by
  -- The table of several characters is asked first, and the runs only if it has no entry.
  cases hlookup : toUpperSeveral.lookup c.toNat with
  | some images =>
    obtain ⟨before, after, htable, -⟩ := List.lookup_eq_some_iff.mp hlookup
    have hentry : (c.toNat, images) ∈ toUpperSeveral :=
      htable ▸ List.mem_append_right before List.mem_cons_self
    exact Or.inr ⟨images, upperBeyond_of_lookup_eq_some hlookup,
      CasingData.mask_capitals.2 _ hentry,
      fun n hn => CasingData.mem_capitals_of_several hentry hn⟩
  | none =>
    rw [upperBeyond_of_lookup_eq_none hlookup]
    cases hfind : CasingData.find? toUpper c.toNat with
    | none => exact Or.inl (congrArg (fun d => [d]) (image_of_find?_eq_none hfind))
    | some run =>
      obtain ⟨hrun, hcovers⟩ := CasingData.mem_and_covers_of_find? hfind
      rw [image_of_find?_eq_some hfind]
      refine Or.inr ⟨[run.apply c.toNat], rfl, List.cons_ne_nil _ _, fun n hn => ?_⟩
      rw [List.mem_singleton.mp hn]
      exact CasingData.apply_mem_capitals hrun hcovers

/-! ### What is in uppercase forms -/

/-- No character is dropped when it is put in upper case. -/
theorem upper_ne_nil (c : Char) : unicode.upper c ≠ [] := by
  by_cases hlt : c.toNat < 0x80
  · rw [upper_of_lt hlt]
    exact List.cons_ne_nil _ _
  · rw [upper_of_not_lt hlt]
    rcases upperBeyond_cases c with hself | ⟨images, himages, hne, -⟩
    · rw [hself]
      exact List.cons_ne_nil _ _
    · rw [himages, ne_eq, List.map_eq_nil_iff]
      exact hne

/-- What is no number of a character gives the null character. -/
theorem ofNat_eq_null {n : Nat} (h : ¬n.isValidChar) : Char.ofNat n = '\x00' :=
  dif_neg h

theorem toNat_ofNat_of_isValidChar {n : Nat} (h : n.isValidChar) : (Char.ofNat n).toNat = n := by
  have hn : Char.ofNat n = Char.ofNatAux n h := dif_pos h
  rw [hn]
  rfl

/-- A number that the tables do not map stands for a character that is its own uppercase form. -/
theorem upper_ofNat {n : Nat} (h : n ∉ cased toUpper.toList toUpperSeveral) :
    unicode.upper (Char.ofNat n) = [Char.ofNat n] := by
  by_cases hvalid : n.isValidChar
  · exact upper_of_not_mem_cased (by rwa [toNat_ofNat_of_isValidChar hvalid])
  · rw [ofNat_eq_null hvalid]
    rfl

/-- A character of an uppercase form is its own uppercase form. -/
theorem upper_of_mem_upper {c d : Char} (h : d ∈ unicode.upper c) : unicode.upper d = [d] := by
  by_cases hlt : c.toNat < 0x80
  · rw [upper_of_lt hlt, List.mem_singleton] at h
    obtain ⟨hascii, hself, -⟩ := toUpper_ascii hlt
    rw [h, upper_of_lt hascii, hself]
  · rw [upper_of_not_lt hlt] at h
    rcases upperBeyond_cases c with hself | ⟨images, himages, -, hcapitals⟩
    · rw [hself, List.mem_singleton] at h
      rw [h, upper_of_not_lt hlt, hself]
    · rw [himages] at h
      obtain ⟨n, hn, rfl⟩ := List.mem_map.mp h
      exact upper_ofNat (CasingData.apart_of_mem_capitals (hcapitals n hn)).2

theorem ofNat_ne_mark {n : Nat} (h : n ∉ marks.map Char.toNat) {mark : Char}
    (hmark : mark ∈ marks) : Char.ofNat n ≠ mark := by
  rintro rfl
  by_cases hvalid : n.isValidChar
  · have hm := List.mem_map_of_mem (f := Char.toNat) hmark
    exact h (toNat_ofNat_of_isValidChar hvalid ▸ hm)
  · rw [ofNat_eq_null hvalid] at hmark
    exact absurd hmark (by decide)

/-- The marks are in no uppercase form but their own. -/
theorem eq_of_mark_mem_upper {c mark : Char} (hmark : mark ∈ marks)
    (h : mark ∈ unicode.upper c) : c = mark := by
  by_cases hlt : c.toNat < 0x80
  · rw [upper_of_lt hlt, List.mem_singleton] at h
    rw [h] at hmark ⊢
    exact (toUpper_ascii hlt).2.2 hmark
  · rw [upper_of_not_lt hlt] at h
    rcases upperBeyond_cases c with hself | ⟨images, himages, -, hcapitals⟩
    · rw [hself, List.mem_singleton] at h
      exact h.symm
    · rw [himages] at h
      obtain ⟨n, hn, hof⟩ := List.mem_map.mp h
      have hout := (CasingData.apart_of_mem_capitals (hcapitals n hn)).1
      exact absurd hof (ofNat_ne_mark hout hmark)

end Casing

end FunctionForge.Text
