import FunctionForge.Text.Cut
import Mathlib.Data.List.TakeWhile

/-!
# Cutting texts

`pieces` is `List.splitOn` (`pieces_eq_splitOn`), so that a cut distributes over the mark
(`pieces_append_cons`) and undoes `join` (`cut_join`).  No piece holds the mark
(`not_mem_of_mem_pieces`), and neither does what stands after the last one
(`not_mem_afterLast`).  `splitFirst` finds the first mark (`splitFirst_eq_some_iff`), and so does
`cutFirst` in a string (`cutFirst_eq_some_iff`).  A pattern of one character is replaced character
by character (`toList_replaceAll_singleton`).
-/

namespace FunctionForge.Text

variable {mark : Char}

/-! ### The first mark -/

theorem splitFirst_eq_none_iff {text : List Char} :
    splitFirst mark text = none ↔ mark ∉ text := by
  induction text with
  | nil => simp [splitFirst]
  | cons c rest ih =>
    rw [splitFirst, List.mem_cons, not_or]
    split_ifs with hc
    · simp [hc]
    · rw [Option.map_eq_none_iff, ih]
      exact ⟨fun h => ⟨fun he => hc he.symm, h⟩, fun h => h.2⟩

/-- A text is split at the first mark, so there is none before. -/
theorem splitFirst_eq_some_iff {text before after : List Char} :
    splitFirst mark text = some (before, after) ↔
      mark ∉ before ∧ text = before ++ mark :: after := by
  induction text generalizing before with
  | nil => simp [splitFirst]
  | cons c rest ih =>
    rw [splitFirst]
    -- The first character is the mark, or the split goes on behind it.
    split_ifs with hc
    · constructor
      · intro h
        obtain ⟨rfl, rfl⟩ := Prod.mk.inj (Option.some.inj h)
        exact ⟨List.not_mem_nil, by rw [hc, List.nil_append]⟩
      · rintro ⟨hb, ht⟩
        cases before with
        | nil => simp_all
        | cons b more =>
          rw [List.cons_append, List.cons.injEq] at ht
          exact absurd (ht.1.symm.trans hc) fun h => hb (h ▸ List.mem_cons_self)
    · rw [Option.map_eq_some_iff]
      constructor
      · rintro ⟨⟨b, a⟩, h, heq⟩
        obtain ⟨rfl, rfl⟩ := Prod.mk.inj heq
        obtain ⟨hb, rfl⟩ := ih.mp h
        refine ⟨?_, rfl⟩
        rw [List.mem_cons, not_or]
        exact ⟨fun h => hc h.symm, hb⟩
      · rintro ⟨hb, ht⟩
        cases before with
        | nil =>
          rw [List.nil_append, List.cons.injEq] at ht
          exact absurd ht.1 hc
        | cons b more =>
          rw [List.cons_append, List.cons.injEq] at ht
          obtain ⟨rfl, rfl⟩ := ht
          rw [List.mem_cons, not_or] at hb
          exact ⟨(more, after), ih.mpr ⟨hb.2, rfl⟩, rfl⟩

theorem cutFirst_eq_some_iff {text before after : String} :
    cutFirst mark text = some (before, after) ↔
      mark ∉ before.toList ∧ text = before ++ String.singleton mark ++ after := by
  have htext : text = before ++ String.singleton mark ++ after ↔
      text.toList = before.toList ++ mark :: after.toList := by
    rw [← String.toList_inj, String.toList_append, String.toList_append, String.toList_singleton,
      List.append_assoc, List.singleton_append]
  rw [htext, ← splitFirst_eq_some_iff, cutFirst, Option.map_eq_some_iff]
  constructor
  · rintro ⟨⟨b, a⟩, h, heq⟩
    obtain ⟨rfl, rfl⟩ := Prod.mk.inj heq
    rwa [String.toList_ofList, String.toList_ofList]
  · exact fun h => ⟨_, h, by simp only [String.ofList_toList]⟩

/-! ### Leads -/

/-- A lead is dropped from a text that starts with it. -/
theorem dropLead?_eq_some_iff {lead text rest : String} :
    dropLead? lead text = some rest ↔ text = lead ++ rest := by
  rw [dropLead?, ← String.toList_inj, String.toList_append]
  constructor
  · intro h
    split_ifs at h with hlead
    obtain ⟨more, hmore⟩ := List.isPrefixOf_iff_prefix.mp hlead
    obtain rfl := Option.some.inj h
    rw [String.toList_ofList, ← hmore, List.drop_left]
  · intro h
    rw [h, if_pos (List.isPrefixOf_iff_prefix.mpr (List.prefix_append _ _)), List.drop_left,
      String.ofList_toList]

/-! ### Pieces -/

/-- Cutting is the splitting of lists. -/
theorem pieces_eq_splitOn (text : List Char) : pieces mark text = text.splitOn mark := by
  induction text with
  | nil => rw [pieces, List.splitOn_nil]
  | cons c rest ih =>
    rw [pieces, List.splitOn_cons_eq_if_modifyHead, ih]
    by_cases hc : c = mark
    · simp [hc]
    · have hb : (c == mark) = false := by simpa using hc
      simp only [if_neg hc, hb, Bool.false_eq_true, if_false]
      cases h : rest.splitOn mark with
      | nil => exact absurd h (List.splitOn_ne_nil mark rest)
      | cons piece more => rfl

theorem pieces_ne_nil (text : List Char) : pieces mark text ≠ [] := by
  rw [pieces_eq_splitOn]
  exact List.splitOn_ne_nil mark text

theorem pieces_append_cons (before after : List Char) :
    pieces mark (before ++ mark :: after) = pieces mark before ++ pieces mark after := by
  simp only [pieces_eq_splitOn]
  exact List.splitOn_append_cons_self before after

theorem pieces_of_not_mem {text : List Char} (h : mark ∉ text) : pieces mark text = [text] := by
  rw [pieces_eq_splitOn]
  exact List.splitOn_eq_singleton h

/-- No mark is left in a piece. -/
theorem not_mem_of_mem_pieces {text piece : List Char} (h : piece ∈ pieces mark text) :
    mark ∉ piece := by
  induction text generalizing piece with
  | nil =>
    rw [pieces, List.mem_singleton] at h
    rw [h]
    exact List.not_mem_nil
  | cons c rest ih =>
    rw [pieces] at h
    split_ifs at h with hc
    · rcases List.mem_cons.mp h with rfl | h
      · exact List.not_mem_nil
      · exact ih h
    · -- A character that is no mark goes to the front of the first piece.
      cases hp : pieces mark rest with
      | nil => exact absurd hp (pieces_ne_nil rest)
      | cons first more =>
        rw [hp] at h ih
        rcases List.mem_cons.mp h with rfl | h
        · rw [List.mem_cons, not_or]
          exact ⟨fun he => hc he.symm, ih List.mem_cons_self⟩
        · exact ih (List.mem_cons_of_mem _ h)

/-! ### The last piece -/

theorem not_mem_afterLast (mark : Char) (text : List Char) : mark ∉ afterLast mark text := by
  unfold afterLast
  intro h
  rw [List.mem_reverse] at h
  simpa using List.mem_takeWhile_imp h

theorem afterLast_of_not_mem {text : List Char} (h : mark ∉ text) : afterLast mark text = text := by
  have hall : text.reverse.takeWhile (· != mark) = text.reverse := by
    refine List.takeWhile_eq_self_iff.mpr fun c hc => ?_
    rw [List.mem_reverse] at hc
    simpa using fun he : c = mark => h (he ▸ hc)
  rw [afterLast, hall, List.reverse_reverse]

/-- Only what stands after a mark counts. -/
theorem afterLast_append (before after : List Char) :
    afterLast mark (before ++ mark :: after) = afterLast mark after := by
  unfold afterLast
  rw [List.reverse_append, List.reverse_cons, List.append_assoc, List.takeWhile_append]
  split_ifs with hlength
  · have hall := (List.takeWhile_prefix _).eq_of_length hlength
    have hmark : ([mark] ++ before.reverse).takeWhile (· != mark) = [] := by simp
    rw [hall, hmark, List.append_nil]
  · rfl

/-- What stands behind the last mark has no mark in it. -/
theorem afterLast_append_cons {before after : List Char} (h : mark ∉ after) :
    afterLast mark (before ++ mark :: after) = after := by
  rw [afterLast_append, afterLast_of_not_mem h]

/-- A text with a mark is longer than what stands after the last one. -/
theorem length_afterLast_lt {text : List Char} (h : mark ∈ text) :
    (afterLast mark text).length < text.length := by
  obtain ⟨before, after, rfl⟩ := List.append_of_mem h
  have hle : (afterLast mark after).length ≤ after.length := by
    rw [afterLast, List.length_reverse]
    exact (List.takeWhile_prefix _).length_le.trans_eq List.length_reverse
  rw [afterLast_append, List.length_append, List.length_cons]
  omega

/-! ### Replacing -/

/-- A replacement that is no longer than the pattern makes no text longer. -/
theorem length_replaceFrom_le {pattern new : List Char} (h : new.length ≤ pattern.length)
    (skip : Nat) (text : List Char) :
    (replaceFrom pattern new skip text).length ≤ text.length - skip := by
  fun_induction replaceFrom pattern new skip text with
  | case1 => exact Nat.zero_le _
  | case2 skip c rest ih =>
    rw [List.length_cons]
    omega
  | case3 c rest hprefix ih =>
    have hlength := (List.isPrefixOf_iff_prefix.mp hprefix).length_le
    rw [List.length_cons] at hlength
    rw [List.length_append, List.length_cons]
    omega
  | case4 c rest hprefix ih =>
    rw [List.length_cons, List.length_cons]
    omega

/-- A pattern of one character is replaced wherever the character stands. -/
theorem replaceFrom_singleton (mark : Char) (new text : List Char) :
    replaceFrom [mark] new 0 text = text.flatMap fun c => if c = mark then new else [c] := by
  induction text with
  | nil => rfl
  | cons c rest ih =>
    have hpattern : [mark].isPrefixOf (c :: rest) = decide (c = mark) := by
      rw [List.isPrefixOf, List.isPrefixOf, Bool.and_true, beq_eq_decide, decide_eq_decide]
      exact eq_comm
    rw [replaceFrom, hpattern, List.flatMap_cons, ← ih]
    by_cases hc : c = mark <;> simp [hc]

theorem toList_replaceAll_singleton (mark : Char) (new text : String) :
    (replaceAll (String.singleton mark) new text).toList =
      text.toList.flatMap fun c => if c = mark then new.toList else [c] := by
  rw [replaceAll, String.toList_ofList, String.toList_singleton, replaceFrom_singleton]

/-! ### Joining -/

theorem toList_join_cons (mark : Char) (first : String) {rest : List String} (h : rest ≠ []) :
    (join (String.singleton mark) (first :: rest)).toList =
      first.toList ++ mark :: (join (String.singleton mark) rest).toList := by
  cases rest with
  | nil => exact absurd rfl h
  | cons second more =>
    rw [join, String.toList_append, String.toList_append, String.toList_singleton,
      List.append_assoc, List.singleton_append]
    intro he
    exact absurd he (List.cons_ne_nil second more)

/-- The strings at the front of a list come back from its join, if none of them holds the mark,
whatever stands behind them. -/
theorem cut_join_append {strings rest : List String} (h : ∀ s ∈ strings, mark ∉ s.toList)
    (hrest : rest ≠ []) :
    cut mark (join (String.singleton mark) (strings ++ rest)) =
      strings ++ cut mark (join (String.singleton mark) rest) := by
  induction strings with
  | nil => rfl
  | cons first more ih =>
    have hne : more ++ rest ≠ [] := List.append_ne_nil_of_right_ne_nil _ hrest
    rw [List.cons_append, cut, toList_join_cons mark first hne, pieces_append_cons,
      pieces_of_not_mem (h first List.mem_cons_self), List.map_append, List.map_singleton,
      String.ofList_toList, List.singleton_append]
    exact congrArg _ (ih fun s hs => h s (List.mem_cons_of_mem _ hs))

/-- Cutting undoes joining, if no string of the list holds the mark. -/
theorem cut_join {strings : List String} (hne : strings ≠ [])
    (h : ∀ s ∈ strings, mark ∉ s.toList) :
    cut mark (join (String.singleton mark) strings) = strings := by
  obtain ⟨front, last, rfl⟩ := (List.eq_nil_or_concat strings).resolve_left hne
  rw [List.concat_eq_append] at h ⊢
  -- Only the last string has no mark behind it.
  have hlast : cut mark (join (String.singleton mark) [last]) = [last] := by
    have hmark : mark ∉ last.toList := h last (List.mem_append_right _ List.mem_cons_self)
    rw [cut, join, pieces_of_not_mem hmark, List.map_singleton, String.ofList_toList]
  rw [cut_join_append (fun s hs => h s (List.mem_append_left _ hs)) (List.cons_ne_nil _ _), hlast]

end FunctionForge.Text
