import FunctionForge.Proofs.Naming.Sanitizing
import Mathlib.Data.List.SplitBy

/-!
# Words and gaps

A text is made of words, which are runs of letters and digits, and of gaps between them, which are
runs of other characters (`runs`, `isRuns_runs`).  Sanitizing leaves the words as they are and makes
one `_` of every gap (`IsRuns.sanitizeFrom_eq_flatMap`), so the runs of a sanitized text are those
of the text, gaps having become `_` (`runs_sanitizeFrom`).

Between two words there always is a gap.  So a sanitized text is its words with a `_` between any
two, and one more at either end where there is a gap (`IsRuns.flatMap_writtenRun`); and since the
words and the gaps at the ends can be read off it again, texts are sanitized alike exactly if they
agree in these.
-/

namespace FunctionForge.Naming

/-! ### Runs -/

/-- Whether two characters are both letters or digits, or both none. -/
def alike (c d : Char) : Bool :=
  c.isAlphanum == d.isAlphanum

/-- A text, cut into its runs of letters and digits and those of other characters. -/
def runs (text : List Char) : List (List Char) :=
  text.splitBy alike

/-- Whether a run is a word. -/
def isWord (run : List Char) : Bool :=
  run.all Char.isAlphanum

/-- A text is cut into words and gaps, each of them as long as it can be. -/
structure IsRuns (text : List Char) (cut : List (List Char)) : Prop where
  flatten : cut.flatten = text
  nonempty : ∀ run ∈ cut, run ≠ []
  uniform : ∀ run ∈ cut, ∀ c ∈ run, c.isAlphanum = isWord run
  maximal : cut.IsChain fun run next => isWord run ≠ isWord next

variable {text other run : List Char} {cut : List (List Char)}

/-- The characters of a run are all alike. -/
theorem uniform_iff_isChain (hne : run ≠ []) :
    (∀ c ∈ run, c.isAlphanum = isWord run) ↔ run.IsChain fun c d => alike c d = true := by
  have htrans : Trans (fun c d => alike c d = true) (fun c d => alike c d = true)
      (fun c d => alike c d = true) :=
    ⟨fun hab hbc => beq_iff_eq.mpr ((beq_iff_eq.mp hab).trans (beq_iff_eq.mp hbc))⟩
  rw [List.isChain_iff_pairwise]
  constructor
  · intro h
    refine List.pairwise_of_forall_mem_list fun c hc d hd => beq_iff_eq.mpr ?_
    rw [h c hc, h d hd]
  · intro h
    obtain ⟨first, rest, rfl⟩ := List.exists_cons_of_ne_nil hne
    have hall : ∀ c ∈ first :: rest, c.isAlphanum = first.isAlphanum :=
      List.forall_mem_cons.mpr ⟨rfl, fun c hc =>
        (beq_iff_eq.mp ((List.pairwise_cons.mp h).1 c hc)).symm⟩
    -- A run that starts with a letter or digit is a word.
    have hword : isWord (first :: rest) = first.isAlphanum := by
      rw [Bool.eq_iff_iff, isWord, List.all_eq_true]
      exact ⟨fun h => h first List.mem_cons_self, fun h c hc => (hall c hc).trans h⟩
    intro c hc
    rw [hall c hc, hword]

/-- A text is cut into words and gaps in one way only. -/
theorem isRuns_iff : IsRuns text cut ↔ runs text = cut := by
  -- Whether two runs differ in kind can be seen where they meet.
  have hends : ∀ {run next : List Char}, (∀ c ∈ run, c.isAlphanum = isWord run) →
      (∀ c ∈ next, c.isAlphanum = isWord next) → run ≠ [] → next ≠ [] →
        (isWord run ≠ isWord next ↔
          ∃ hrun hnext, alike (run.getLast hrun) (next.head hnext) = false) := by
    intro run next hr hn hrun hnext
    rw [exists_prop_of_true hrun, exists_prop_of_true hnext, alike, beq_eq_false_iff_ne,
      hr _ (List.getLast_mem hrun), hn _ (List.head_mem hnext)]
  rw [runs, List.splitBy_eq_iff]
  constructor
  · rintro ⟨rfl, hne, huniform, hmaximal⟩
    refine ⟨rfl, fun hnil => hne [] hnil rfl,
      fun run hr => (uniform_iff_isChain (hne run hr)).mp (huniform run hr), ?_⟩
    exact hmaximal.imp_of_mem_imp fun run next hr hn =>
      (hends (huniform run hr) (huniform next hn) (hne run hr) (hne next hn)).mp
  · rintro ⟨rfl, hnil, hchain, hends'⟩
    have hne : ∀ run ∈ cut, run ≠ [] := fun run hr heq => hnil (heq ▸ hr)
    have huniform : ∀ run ∈ cut, ∀ c ∈ run, c.isAlphanum = isWord run :=
      fun run hr => (uniform_iff_isChain (hne run hr)).mpr (hchain run hr)
    refine ⟨rfl, hne, huniform, ?_⟩
    exact hends'.imp_of_mem_imp fun run next hr hn =>
      (hends (huniform run hr) (huniform next hn) (hne run hr) (hne next hn)).mpr

theorem isRuns_runs (text : List Char) : IsRuns text (runs text) :=
  isRuns_iff.mpr rfl

namespace IsRuns

/-- The runs behind the first one are runs as well. -/
theorem tail {rest : List (List Char)} (h : IsRuns text (run :: rest)) :
    IsRuns rest.flatten rest where
  flatten := rfl
  nonempty next hn := h.nonempty next (List.mem_cons_of_mem run hn)
  uniform next hn := h.uniform next (List.mem_cons_of_mem run hn)
  maximal := h.maximal.tail

theorem uniform_head {rest : List (List Char)} (h : IsRuns text (run :: rest)) :
    ∀ c ∈ run, c.isAlphanum = isWord run :=
  h.uniform run List.mem_cons_self

end IsRuns

/-! ### What becomes of runs -/

/-- What sanitizing makes of a run. -/
def writtenRun (run : List Char) : List Char :=
  if isWord run then run else ['_']

theorem sanitizeFrom_gap_append (h : ∀ c ∈ run, c.isAlphanum = false) (text : List Char) :
    sanitizeFrom true (run ++ text) = sanitizeFrom true text := by
  induction run with
  | nil => rfl
  | cons c rest ih =>
    obtain ⟨hc, hrest⟩ := List.forall_mem_cons.mp h
    rw [List.cons_append, sanitizeFrom, if_neg (by rw [hc]; decide), if_pos rfl, ih hrest]

/-- Words stay and gaps become one `_` each.  Behind other characters, the text has to start with a
word. -/
theorem IsRuns.sanitizeFrom_eq_flatMap (h : IsRuns text cut) {inRun : Bool}
    (hfirst : inRun = true → ∀ run ∈ cut.head?, isWord run = true) :
    sanitizeFrom inRun text = cut.flatMap writtenRun := by
  induction cut generalizing text inRun with
  | nil =>
    obtain rfl := h.flatten
    rfl
  | cons run rest ih =>
    obtain ⟨c, more, rfl⟩ := List.exists_cons_of_ne_nil (h.nonempty run List.mem_cons_self)
    obtain ⟨hc, hmore⟩ := List.forall_mem_cons.mp h.uniform_head
    rw [← h.flatten, List.flatten_cons, List.flatMap_cons, List.cons_append, sanitizeFrom,
      writtenRun, hc]
    by_cases hword : isWord (c :: more) = true
    · rw [hword] at hmore
      rw [if_pos hword, if_pos hword, sanitizeFrom_append hmore,
        ih h.tail fun hin => absurd hin (by decide), List.cons_append]
    · -- What comes behind a gap is a word.
      have hgap : isWord (c :: more) = false := Bool.of_not_eq_true hword
      have hnext : ∀ next ∈ rest.head?, isWord next = true := fun next hn =>
        Bool.of_not_eq_false fun hfalse => h.maximal.rel_head? hn (hgap.trans hfalse.symm)
      have hout : ¬inRun = true := fun hin => hword (hfirst hin _ rfl)
      rw [hgap] at hmore
      rw [if_neg hword, if_neg hword, if_neg hout, sanitizeFrom_gap_append hmore,
        ih h.tail fun _ => hnext, List.singleton_append]

theorem isWord_writtenRun (run : List Char) : isWord (writtenRun run) = isWord run := by
  rw [writtenRun]
  split_ifs with hword
  · rfl
  · rw [Bool.of_not_eq_true hword]
    decide

/-- The runs of a sanitized text are what has become of the runs of the text. -/
theorem IsRuns.sanitizeFrom (h : IsRuns text cut) :
    IsRuns (sanitizeFrom false text) (cut.map writtenRun) where
  flatten := (h.sanitizeFrom_eq_flatMap fun hin => absurd hin (by decide)).symm
  nonempty := List.forall_mem_map.mpr fun run hr => by
    rw [writtenRun]
    split_ifs
    · exact h.nonempty run hr
    · exact List.cons_ne_nil '_' []
  uniform := List.forall_mem_map.mpr fun run hr => by
    rw [isWord_writtenRun, writtenRun]
    split_ifs with hword
    · exact h.uniform run hr
    · intro c hc
      rw [List.mem_singleton.mp hc, Bool.of_not_eq_true hword]
      rfl
  maximal := (List.isChain_map writtenRun).mpr
    (by simpa only [isWord_writtenRun] using h.maximal)

theorem runs_sanitizeFrom (text : List Char) :
    runs (sanitizeFrom false text) = (runs text).map writtenRun :=
  isRuns_iff.mp (isRuns_runs text).sanitizeFrom

/-! ### Words, and gaps at the ends -/

/-- The words of a text. -/
def words (text : List Char) : List (List Char) :=
  (runs text).filter isWord

/-- Whether a text starts with a gap. -/
def startsWithGap (text : List Char) : Bool :=
  text.head?.any fun c => !c.isAlphanum

/-- Whether a text ends with a gap. -/
def endsWithGap (text : List Char) : Bool :=
  text.getLast?.any fun c => !c.isAlphanum

theorem IsRuns.startsWithGap_eq (h : IsRuns text cut) :
    startsWithGap text = cut.head?.any fun run => !isWord run := by
  obtain rfl := h.flatten
  cases cut with
  | nil => rfl
  | cons run rest =>
    obtain ⟨c, more, rfl⟩ := List.exists_cons_of_ne_nil (h.nonempty run List.mem_cons_self)
    rw [List.head?_cons, Option.any_some, ← h.uniform_head c List.mem_cons_self]
    rfl

theorem IsRuns.endsWithGap_eq (h : IsRuns text cut) :
    endsWithGap text = cut.getLast?.any fun run => !isWord run := by
  obtain rfl := h.flatten
  rcases List.eq_nil_or_concat cut with rfl | ⟨before, run, rfl⟩
  · rfl
  · rw [List.concat_eq_append] at h ⊢
    have hmem : run ∈ before ++ [run] := List.mem_append_right before (List.mem_singleton_self run)
    have hne := h.nonempty run hmem
    rw [endsWithGap, List.flatten_append, List.flatten_singleton, List.getLast?_append,
      List.getLast?_eq_some_getLast hne, Option.some_or, Option.any_some, List.getLast?_concat,
      Option.any_some, h.uniform run hmem _ (List.getLast_mem hne)]

theorem words_sanitizeFrom (text : List Char) : words (sanitizeFrom false text) = words text := by
  have hkept : ∀ run ∈ words text, writtenRun run = run := fun run hr =>
    if_pos (List.mem_filter.mp hr).2
  have hfilter : isWord ∘ writtenRun = isWord := funext isWord_writtenRun
  rw [words, runs_sanitizeFrom, List.filter_map, hfilter, ← words]
  exact List.map_congr_left hkept |>.trans (List.map_id _)

theorem startsWithGap_sanitizeFrom (text : List Char) :
    startsWithGap (sanitizeFrom false text) = startsWithGap text := by
  rw [(isRuns_runs text).sanitizeFrom.startsWithGap_eq, (isRuns_runs text).startsWithGap_eq,
    List.head?_map, Option.any_map]
  simp only [isWord_writtenRun]

theorem endsWithGap_sanitizeFrom (text : List Char) :
    endsWithGap (sanitizeFrom false text) = endsWithGap text := by
  rw [(isRuns_runs text).sanitizeFrom.endsWithGap_eq, (isRuns_runs text).endsWithGap_eq,
    List.getLast?_map, Option.any_map]
  simp only [isWord_writtenRun]

/-! ### The words of a sanitized text -/

/-- An empty word at an end that has a gap. -/
def edge (gap : Bool) : List (List Char) :=
  if gap then [[]] else []

/-- The first of several words can be taken out of them. -/
theorem intercalate_cons (sep word : List Char) (rest : List (List Char)) :
    sep.intercalate (word :: rest) = word ++ sep.intercalate ([] :: rest) := by
  cases rest with
  | nil => rw [List.intercalate_singleton, List.intercalate_singleton, List.append_nil]
  | cons next rest =>
    rw [List.intercalate_cons_cons, List.intercalate_cons_cons, List.nil_append, List.append_assoc]

/-- Runs are written as their words with a `_` between any two, an empty one standing for the end of
the text behind a gap at either end. -/
theorem IsRuns.flatMap_writtenRun (h : IsRuns text cut) :
    cut.flatMap writtenRun =
      ['_'].intercalate (edge (cut.head?.any fun run => !isWord run) ++
        (cut.filter isWord ++ edge (cut.getLast?.any fun run => !isWord run))) := by
  induction cut generalizing text with
  | nil => rfl
  | cons run rest ih =>
    rw [List.flatMap_cons, ih h.tail, writtenRun, List.head?_cons, Option.any_some]
    cases rest with
    | nil =>
      cases hword : isWord run with
      | true => simp [edge, hword]
      | false => simp [edge, hword, List.intercalate_cons_cons]
    | cons next rest =>
      -- Runs take turns, so behind a word there is a gap and behind a gap a word.
      have hturn : isWord run ≠ isWord next := (List.isChain_cons_cons.mp h.maximal).1
      rw [List.getLast?_cons_cons, List.head?_cons, Option.any_some]
      cases hword : isWord run with
      | true =>
        have hnext : isWord next = false := by simpa [hword] using hturn
        rw [hnext, List.filter_cons_of_pos hword]
        exact (intercalate_cons ['_'] run _).symm
      | false =>
        have hnext : isWord next = true := by simpa [hword] using hturn
        have hgap : ¬isWord run = true := by simp [hword]
        rw [hnext, List.filter_cons_of_neg hgap, List.filter_cons_of_pos hnext]
        simp [edge, List.intercalate_cons_cons]

/-- A sanitized text is its words with a `_` between any two, and one more at an end that is a
gap. -/
theorem sanitizeFrom_eq_intercalate (text : List Char) :
    sanitizeFrom false text =
      ['_'].intercalate (edge (startsWithGap text) ++ (words text ++ edge (endsWithGap text))) := by
  have h := isRuns_runs text
  rw [h.sanitizeFrom_eq_flatMap fun hin => absurd hin (by decide), h.flatMap_writtenRun,
    h.startsWithGap_eq, h.endsWithGap_eq, words]

/-- Texts are sanitized alike exactly if they have the same words, and both or none of them start,
and end, with a gap. -/
theorem sanitizeFrom_eq_iff : sanitizeFrom false text = sanitizeFrom false other ↔
    words text = words other ∧ startsWithGap text = startsWithGap other ∧
      endsWithGap text = endsWithGap other := by
  constructor
  · intro h
    rw [← words_sanitizeFrom text, ← startsWithGap_sanitizeFrom text,
      ← endsWithGap_sanitizeFrom text, h]
    exact ⟨words_sanitizeFrom other, startsWithGap_sanitizeFrom other,
      endsWithGap_sanitizeFrom other⟩
  · rintro ⟨hwords, hstart, hend⟩
    rw [sanitizeFrom_eq_intercalate, sanitizeFrom_eq_intercalate, hwords, hstart, hend]

/-- Letters and digits are kept in their order. -/
theorem filter_sanitizeFrom (inRun : Bool) (text : List Char) :
    (sanitizeFrom inRun text).filter Char.isAlphanum = text.filter Char.isAlphanum := by
  fun_induction sanitizeFrom inRun text with
  | case1 => rfl
  | case2 inRun c rest hc ih => rw [List.filter_cons_of_pos hc, List.filter_cons_of_pos hc, ih]
  | case3 c rest hc ih => rw [List.filter_cons_of_neg hc, ih]
  | case4 inRun c rest hc _ ih =>
    rw [List.filter_cons_of_neg hc, List.filter_cons_of_neg (by decide), ih]

/-! ### Sanitizing -/

theorem toList_sanitize (text : String) :
    (sanitize text).toList = sanitizeFrom false text.toList := by
  rw [sanitize, String.toList_ofList]

/-- In a sanitized text, every maximal run of characters other than letters and digits has become
one `_`, and all letters and digits are kept in their order.  Sanitizing it again changes nothing;
and texts are sanitized alike exactly if they have the same words, and both or none of them start,
and end, with a run of other characters. -/
theorem sanitize_eq_flatten_runs (text : String) :
    IsRuns text.toList (runs text.toList) ∧
    (sanitize text).toList =
      ((runs text.toList).map fun run => if isWord run then run else ['_']).flatten ∧
    (sanitize text).toList.filter Char.isAlphanum = text.toList.filter Char.isAlphanum ∧
    sanitize (sanitize text) = sanitize text ∧
    ∀ other, sanitize text = sanitize other ↔
      words text.toList = words other.toList ∧
      startsWithGap text.toList = startsWithGap other.toList ∧
      endsWithGap text.toList = endsWithGap other.toList := by
  have h := isRuns_runs text.toList
  refine ⟨h, ?_, ?_, ?_, fun other => ?_⟩
  · rw [toList_sanitize, h.sanitizeFrom_eq_flatMap fun hin => absurd hin (by decide)]
    rfl
  · rw [toList_sanitize, filter_sanitizeFrom]
  · rw [← String.toList_inj, toList_sanitize, toList_sanitize,
      sanitizeFrom_eq_self (tidy_sanitizeFrom false text.toList)]
  · rw [← String.toList_inj, toList_sanitize, toList_sanitize]
    exact sanitizeFrom_eq_iff

example : sanitize "a b--c" = "a_b_c" := by decide +kernel

end FunctionForge.Naming
