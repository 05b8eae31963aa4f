import FunctionForge.Proofs.Text.Cut
import FunctionForge.Text.Lines

/-!
# Blanks and lines

A blank is left by `dropBlankEnd` exactly if something else stands behind it
(`mem_dropBlankEnd_iff`), and by `dropBlankEnds` if something else stands on both sides of it
(`mem_dropBlankEnds_iff`).  The lines of a text are the pieces between its line feeds, up to blanks
at their ends (`forall_mem_charLines_iff`): the carriage return that belongs to an ending is a
blank, and an empty line at the end has nothing in it.
-/

namespace FunctionForge.Text

variable {c : Char} {text : List Char}

/-! ### Single lines -/

/-- A text that is a single line. -/
def SingleLine (text : String) : Prop :=
  '\n' ∉ text.toList ∧ '\r' ∉ text.toList

instance (text : String) : Decidable (SingleLine text) :=
  inferInstanceAs (Decidable (_ ∧ _))

theorem singleLine_append_iff {text other : String} :
    SingleLine (text ++ other) ↔ SingleLine text ∧ SingleLine other := by
  simp only [SingleLine, String.toList_append, List.mem_append, not_or]
  exact and_and_and_comm

/-! ### Blanks -/

/-- What is left from the front on starts where something else than a blank stands. -/
theorem exists_dropWhile_isBlank_iff (hc : isBlank c = true) {after : List Char} :
    (∃ before, text.dropWhile isBlank = before ++ c :: after) ↔
      ∃ before, text = before ++ c :: after ∧ ∃ d ∈ before, isBlank d = false := by
  induction text with
  | nil => simp
  | cons first rest ih =>
    by_cases hfirst : isBlank first = true
    · rw [List.dropWhile_cons_of_pos hfirst, ih]
      constructor
      · rintro ⟨before, rfl, d, hd, hblank⟩
        exact ⟨first :: before, rfl, d, List.mem_cons_of_mem _ hd, hblank⟩
      · rintro ⟨before, heq, d, hd, hblank⟩
        cases before with
        | nil => exact absurd hd List.not_mem_nil
        | cons other before =>
          obtain ⟨rfl, rfl⟩ := List.cons.inj heq
          have hne : d ≠ first := by
            rintro rfl
            exact absurd (hblank.symm.trans hfirst) nofun
          exact ⟨before, rfl, d, List.mem_of_ne_of_mem hne hd, hblank⟩
    · -- Nothing is dropped, and the first character is no blank.
      rw [List.dropWhile_cons_of_neg hfirst]
      constructor
      · rintro ⟨before, heq⟩
        cases before with
        | nil => exact absurd ((List.cons.inj heq).1 ▸ hc) hfirst
        | cons other before =>
          obtain ⟨rfl, rfl⟩ := List.cons.inj heq
          exact ⟨first :: before, rfl, first, List.mem_cons_self, by simpa using hfirst⟩
      · rintro ⟨before, heq, -⟩
        exact ⟨before, heq⟩

/-- A blank is left exactly if something else stands behind it. -/
theorem mem_dropBlankEnd_iff (hc : isBlank c = true) : c ∈ dropBlankEnd text ↔
    ∃ before after, text = before ++ c :: after ∧ ∃ d ∈ after, isBlank d = false := by
  -- Seen from the end of the text, what stands behind the blank comes first.
  rw [dropBlankEnd, List.mem_reverse, List.mem_iff_append, exists_comm]
  constructor
  · rintro ⟨before, h⟩
    obtain ⟨after, heq, d, hd, hblank⟩ := (exists_dropWhile_isBlank_iff hc).mp h
    refine ⟨before.reverse, after.reverse, ?_, d, List.mem_reverse.mpr hd, hblank⟩
    rw [← List.reverse_reverse text, heq]
    simp
  · rintro ⟨before, after, rfl, d, hd, hblank⟩
    refine ⟨before.reverse, (exists_dropWhile_isBlank_iff hc).mpr ?_⟩
    exact ⟨after.reverse, by simp, d, List.mem_reverse.mpr hd, hblank⟩

/-- A blank is left exactly if something else stands on both sides of it. -/
theorem mem_dropBlankEnds_iff (hc : isBlank c = true) : c ∈ dropBlankEnds text ↔
    ∃ before after, text = before ++ c :: after ∧
      (∃ d ∈ before, isBlank d = false) ∧ ∃ d ∈ after, isBlank d = false := by
  rw [dropBlankEnds, mem_dropBlankEnd_iff hc]
  constructor
  · rintro ⟨before, after, heq, hafter⟩
    obtain ⟨front, htext, hfront⟩ := (exists_dropWhile_isBlank_iff hc).mp ⟨before, heq⟩
    exact ⟨front, after, htext, hfront, hafter⟩
  · rintro ⟨front, after, htext, hfront, hafter⟩
    obtain ⟨before, heq⟩ := (exists_dropWhile_isBlank_iff hc).mpr ⟨front, htext, hfront⟩
    exact ⟨before, after, heq, hafter⟩

/-- A blank is dropped exactly if only blanks stand on one side of it, wherever it stands. -/
theorem not_mem_dropBlankEnds_iff (hc : isBlank c = true) : c ∉ dropBlankEnds text ↔
    ∀ before after, text = before ++ c :: after →
      (∀ d ∈ before, isBlank d = true) ∨ ∀ d ∈ after, isBlank d = true := by
  rw [mem_dropBlankEnds_iff hc]
  constructor
  · intro h before after heq
    by_cases hbefore : ∀ d ∈ before, isBlank d = true
    · exact Or.inl hbefore
    · refine Or.inr fun d hd => ?_
      by_contra hblank
      obtain ⟨other, hother, hnone⟩ := not_forall₂.mp hbefore
      exact h ⟨before, after, heq, ⟨other, hother, by simpa using hnone⟩,
        ⟨d, hd, by simpa using hblank⟩⟩
  · rintro h ⟨before, after, heq, ⟨d, hd, hbefore⟩, ⟨other, hother, hafter⟩⟩
    rcases h before after heq with hall | hall
    · exact absurd ((hall d hd).symm.trans hbefore) nofun
    · exact absurd ((hall other hother).symm.trans hafter) nofun

/-! ### Lines -/

theorem dropBlankEnd_dropReturn (line : List Char) :
    dropBlankEnd (dropReturn line) = dropBlankEnd line := by
  rw [dropReturn]
  split_ifs with hreturn
  · obtain ⟨front, rfl⟩ := List.getLast?_eq_some_iff.mp hreturn
    have hblank : isBlank '\r' = true := by decide
    rw [List.dropLast_concat, dropBlankEnd, dropBlankEnd, List.reverse_append,
      List.reverse_singleton, List.singleton_append, List.dropWhile_cons_of_pos hblank]
  · rfl

theorem forall_mem_linesFrom_iff {P : List Char → Prop} (hempty : P []) {line : List Char}
    (hline : '\n' ∉ line) (text : List Char) :
    (∀ l ∈ linesFrom line text, P (dropBlankEnd l)) ↔
      ∀ piece ∈ pieces '\n' (line.reverse ++ text), P (dropBlankEnd piece) := by
  -- The unfinished line holds no line feed, so that it is the front of the first piece.
  induction text generalizing line with
  | nil =>
    rw [linesFrom, List.append_nil, pieces_of_not_mem (by simpa using hline)]
    split_ifs with hnone
    · rw [List.isEmpty_iff.mp hnone, List.forall_mem_singleton]
      exact iff_of_true (List.forall_mem_nil _) hempty
    · rfl
  | cons c rest ih =>
    rw [linesFrom]
    split_ifs with hc
    · rw [hc, pieces_append_cons, pieces_of_not_mem (by simpa using hline), List.forall_mem_append,
        List.forall_mem_singleton, List.forall_mem_cons, dropBlankEnd_dropReturn,
        ih List.not_mem_nil, List.reverse_nil, List.nil_append]
    · have hmore : '\n' ∉ c :: line := List.not_mem_cons_of_ne_of_not_mem (Ne.symm hc) hline
      rw [ih hmore, List.reverse_cons, List.append_assoc, List.singleton_append]

/-- Up to blanks at their ends, lines are what stands between line feeds. -/
theorem forall_mem_charLines_iff {P : List Char → Prop} (hempty : P []) (text : List Char) :
    (∀ line ∈ charLines text, P (dropBlankEnd line)) ↔
      ∀ piece ∈ pieces '\n' text, P (dropBlankEnd piece) :=
  forall_mem_linesFrom_iff hempty List.not_mem_nil text

/-- A text with its carriage returns at the ends of lines: only blanks stand between one and the
next line feed. -/
def ReturnsEndLines (text : String) : Prop :=
  ∀ piece ∈ pieces '\n' text.toList, ∀ before after, piece = before ++ '\r' :: after →
    ∀ d ∈ after, isBlank d = true

/-- A text with its line breaks at its two ends: only blanks stand before or behind one. -/
def BreaksAtEnds (text : String) : Prop :=
  ∀ before c after, text.toList = before ++ c :: after → c = '\n' ∨ c = '\r' →
    (∀ d ∈ before, isBlank d = true) ∨ ∀ d ∈ after, isBlank d = true

/-- The lines of a text, without the blanks at their ends, are single lines exactly if no carriage
return stands inside of one. -/
theorem forall_singleLine_lines_iff {text : String} :
    (∀ line ∈ (lines text).map trimEnd, SingleLine line) ↔ ReturnsEndLines text := by
  have hfeed : isBlank '\n' = true := by decide
  have hreturn : isBlank '\r' = true := by decide
  have htrim (line : List Char) : SingleLine (trimEnd (String.ofList line)) ↔
      '\n' ∉ dropBlankEnd line ∧ '\r' ∉ dropBlankEnd line := by
    rw [SingleLine, trimEnd, String.toList_ofList, String.toList_ofList]
  rw [lines, List.forall_mem_map, List.forall_mem_map]
  simp only [htrim]
  rw [forall_mem_charLines_iff (P := fun line => '\n' ∉ line ∧ '\r' ∉ line) (by decide)]
  refine forall₂_congr fun piece hpiece => ?_
  -- The pieces are cut at line feeds, so only returns are left to look for.
  have hnone : '\n' ∉ dropBlankEnd piece := by
    rw [mem_dropBlankEnd_iff hfeed]
    rintro ⟨before, after, heq, -⟩
    refine not_mem_of_mem_pieces hpiece ?_
    rw [heq]
    exact List.mem_append_right before List.mem_cons_self
  rw [and_iff_right hnone, mem_dropBlankEnd_iff hreturn]
  simp only [not_exists, not_and, Bool.not_eq_false]

/-- A text without the blanks at its ends is a single line exactly if no line break stands inside
of it. -/
theorem singleLine_trim_iff {text : String} : SingleLine (trim text) ↔ BreaksAtEnds text := by
  have hfeed : isBlank '\n' = true := by decide
  have hreturn : isBlank '\r' = true := by decide
  rw [SingleLine, trim, String.toList_ofList, not_mem_dropBlankEnds_iff hfeed,
    not_mem_dropBlankEnds_iff hreturn]
  constructor
  · rintro ⟨hnofeed, hnoreturn⟩ before c after heq (rfl | rfl)
    · exact hnofeed before after heq
    · exact hnoreturn before after heq
  · intro h
    exact ⟨fun before after heq => h before '\n' after heq (.inl rfl),
      fun before after heq => h before '\r' after heq (.inr rfl)⟩

end FunctionForge.Text
