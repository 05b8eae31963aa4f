import FunctionForge.Naming.Identifier
import Mathlib.Data.List.SplitBy

/-!
# The segments of a name

`pieces` cuts a name into its runs of separators and the segments between them, and `written` says
what becomes of each: only the first character of a segment changes, and of a run there remain as
many underscores, or one less before a character that rises in its place.  An identifier, although
it is made character by character, is what the pieces become (`identifierOf_eq_written`).
-/

namespace FunctionForge.Naming

open Text (Casing)

variable {casing : Casing} {kind : Bool}

/-! ### Pieces -/

/-- Whether two characters are both separators, or both none. -/
def sameKind (one other : Char) : Bool :=
  isSeparator one == isSeparator other

/-- A name, cut into its runs of separators and the segments between them. -/
def pieces (name : List Char) : List (List Char) :=
  name.splitBy sameKind

/-- Pieces that are runs of separators and segments without any in turn, the first one of separators
if `kind` says so. -/
inductive Alternating : Bool → List (List Char) → Prop
  | nil (kind : Bool) : Alternating kind []
  | cons {kind : Bool} {piece : List Char} {rest : List (List Char)} (hne : piece ≠ [])
      (hkind : ∀ c ∈ piece, isSeparator c = kind) (hrest : Alternating (!kind) rest) :
      Alternating kind (piece :: rest)

theorem forall_mem_of_isChain {c : Char} {rest : List Char}
    (h : (c :: rest).IsChain fun one other => sameKind one other = true) :
    ∀ d ∈ c :: rest, isSeparator d = isSeparator c := by
  induction rest generalizing c with
  | nil =>
    intro d hd
    rw [List.mem_singleton.mp hd]
  | cons e rest ih =>
    rw [List.isChain_cons_cons] at h
    have hsame : isSeparator c = isSeparator e := beq_iff_eq.mp h.1
    refine List.forall_mem_cons.mpr ⟨rfl, fun d hd => ?_⟩
    rw [ih h.2 d hd, hsame]

/-- Pieces of which each is of one kind, and of which none ends like the next begins. -/
theorem exists_alternating {cut : List (List Char)} (hne : [] ∉ cut)
    (hsame : ∀ piece ∈ cut, piece.IsChain fun one other => sameKind one other = true)
    (hturn : cut.IsChain fun one other =>
      ∃ hone hother, sameKind (one.getLast hone) (other.head hother) = false) :
    ∃ kind, Alternating kind cut ∧ ∀ piece ∈ cut.head?, ∀ c ∈ piece, isSeparator c = kind := by
  induction cut with
  | nil => exact ⟨true, .nil true, nofun⟩
  | cons piece rest ih =>
    rw [List.mem_cons, not_or] at hne
    obtain ⟨hpiece, hrest⟩ := List.forall_mem_cons.mp hsame
    obtain ⟨kind, halternating, hhead⟩ := ih hne.2 hrest hturn.tail
    cases piece with
    | nil => exact absurd rfl hne.1
    | cons c piece =>
      have hall := forall_mem_of_isChain hpiece
      refine ⟨isSeparator c, .cons (List.cons_ne_nil _ _) hall ?_, ?_⟩
      · cases rest with
        | nil => exact .nil _
        | cons next rest =>
          -- The last character of a piece and the first of the next one differ.
          obtain ⟨hone, hother, hdiffer⟩ := (List.isChain_cons_cons.mp hturn).1
          have hlast := hall _ (List.getLast_mem hone)
          have hfirst := hhead next rfl _ (List.head_mem hother)
          rw [sameKind, hlast, hfirst, beq_eq_false_iff_ne] at hdiffer
          rwa [Bool.eq_not_of_ne hdiffer.symm] at halternating
      · intro other hother
        obtain rfl := Option.some.inj hother
        exact hall

theorem exists_alternating_pieces (name : List Char) :
    ∃ kind, Alternating kind (pieces name) := by
  obtain ⟨kind, h, -⟩ := exists_alternating (List.nil_notMem_splitBy sameKind name)
    (fun _ => List.isChain_of_mem_splitBy) (List.isChain_getLast_head_splitBy sameKind name)
  exact ⟨kind, h⟩

/-- Nothing is lost when a name is cut. -/
theorem flatten_pieces (name : List Char) : (pieces name).flatten = name :=
  List.flatten_splitBy sameKind name

/-! ### What becomes of pieces -/

/-- How many underscores remain of a run of separators. All of them remain at either end of the
name; between two segments one less, if the next segment begins with a lowercase character whose
uppercase form begins with another character. -/
def underscores (casing : Casing) (atStart : Bool) (run : Nat) : Option (List Char) → Nat
  | some (c :: _) =>
    if atStart = false ∧ casing.isLower c = true ∧ (casing.upper c).head? ≠ some c then run - 1
    else run
  | _ => run

/-- What becomes of the pieces of a name. -/
def written (casing : Casing) (atStart : Bool) : List (List Char) → List Char
  | [] => []
  | piece :: rest =>
    (if piece.all isSeparator then
        List.replicate (underscores casing atStart piece.length rest.head?) '_'
      else capitalizeChars casing piece) ++
      written casing false rest

theorem written_run {atStart : Bool} {run : List Char} {rest : List (List Char)}
    (h : ∀ c ∈ run, isSeparator c = true) :
    written casing atStart (run :: rest) =
      List.replicate (underscores casing atStart run.length rest.head?) '_' ++
        written casing false rest := by
  rw [written, if_pos (List.all_eq_true.mpr h)]

/-- Of a segment, only the first character changes. -/
theorem written_segment {atStart : Bool} {segment : List Char} {rest : List (List Char)}
    (hne : segment ≠ []) (h : ∀ c ∈ segment, isSeparator c = false) :
    written casing atStart (segment :: rest) =
      capitalizeChars casing segment ++ written casing false rest := by
  rw [written, if_neg]
  intro hall
  obtain ⟨c, hc⟩ := List.exists_mem_of_ne_nil segment hne
  rw [List.all_eq_true] at hall
  exact absurd ((h c hc).symm.trans (hall c hc)) (by decide)

/-- Of a run of separators there remains what the next character leaves of it. -/
theorem underscores_eq_kept (atStart : Bool) (run : Nat) (c : Char) (segment : List Char) :
    underscores casing atStart run (some (c :: segment)) = kept casing atStart run c := by
  rw [underscores, kept, raises]
  cases atStart with
  | true => simp
  | false =>
    by_cases h : casing.isLower c = true ∧ (casing.upper c).head? ≠ some c
    · simp [h.1, h.2]
    · rw [if_neg fun hand => h hand.2, if_pos]
      simpa [imp_iff_not_or] using h

/-! ### Reading a name piece by piece -/

theorem identifierFrom_run_append {run : List Char} (h : ∀ c ∈ run, isSeparator c = true)
    (atStart : Bool) (n : Nat) (name : List Char) :
    identifierFrom casing atStart n (run ++ name) =
      identifierFrom casing atStart (n + run.length) name := by
  induction run generalizing n with
  | nil => rfl
  | cons c run ih =>
    obtain ⟨hc, hrun⟩ := List.forall_mem_cons.mp h
    rw [List.cons_append, identifierFrom, if_pos hc, ih hrun, List.length_cons, Nat.add_right_comm,
      Nat.add_assoc]

/-- Within a segment nothing changes. -/
theorem identifierFrom_tail_append {tail : List Char} (h : ∀ c ∈ tail, isSeparator c = false)
    (name : List Char) :
    identifierFrom casing false 0 (tail ++ name) = tail ++ identifierFrom casing false 0 name := by
  induction tail with
  | nil => rfl
  | cons c tail ih =>
    obtain ⟨hc, htail⟩ := List.forall_mem_cons.mp h
    rw [List.cons_append, identifierFrom, if_neg (by rw [hc]; decide), if_neg (by decide), ih htail]
    rfl

theorem identifierFrom_segment_append {c : Char} {tail : List Char}
    (h : ∀ d ∈ c :: tail, isSeparator d = false) {atStart : Bool} {run : Nat}
    (hstart : (atStart || run != 0) = true) (name : List Char) :
    identifierFrom casing atStart run (c :: tail ++ name) =
      List.replicate (kept casing atStart run c) '_' ++
        (capitalizeChars casing (c :: tail) ++ identifierFrom casing false 0 name) := by
  obtain ⟨hc, htail⟩ := List.forall_mem_cons.mp h
  rw [List.cons_append, identifierFrom, if_neg (by rw [hc]; decide), if_pos hstart,
    identifierFrom_tail_append htail, capitalizeChars, List.append_assoc, List.append_assoc]

/-- What begins with separators is read a run and a segment at a time. -/
theorem identifierFrom_flatten : ∀ {cut : List (List Char)}, Alternating true cut →
    ∀ atStart, identifierFrom casing atStart 0 cut.flatten = written casing atStart cut
  | [], _, _ => rfl
  | [run], .cons _ hrun _, atStart => by
    rw [List.flatten_cons, identifierFrom_run_append hrun, written_run hrun, Nat.zero_add]
    exact (List.append_nil _).symm
  | run :: [] :: rest, .cons _ _ (.cons hne _ _), _ => absurd rfl hne
  | run :: (c :: tail) :: rest, .cons hne hrun (.cons hne' hsegment hrest), atStart => by
    have hpos : run.length ≠ 0 := fun hzero => hne (List.length_eq_zero_iff.mp hzero)
    have hstart : (atStart || run.length != 0) = true := by
      rw [bne_iff_ne.mpr hpos, Bool.or_true]
    rw [List.flatten_cons, List.flatten_cons, identifierFrom_run_append hrun, Nat.zero_add,
      identifierFrom_segment_append hsegment hstart, identifierFrom_flatten hrest false,
      written_run hrun, written_segment hne' hsegment, List.head?_cons, underscores_eq_kept]

/-- The identifier of a name is what its pieces become. -/
theorem identifierOf_eq_written (casing : Casing) {name : List Char} (hname : name ≠ []) :
    (pieces name).flatten = name ∧ (∃ kind, Alternating kind (pieces name)) ∧
      identifierOf casing name = written casing true (pieces name) := by
  obtain ⟨kind, h⟩ := exists_alternating_pieces name
  refine ⟨flatten_pieces name, ⟨kind, h⟩, ?_⟩
  rw [identifierOf, if_neg fun hempty => hname (List.isEmpty_iff.mp hempty)]
  nth_rewrite 1 [← flatten_pieces name]
  generalize pieces name = cut at h
  cases kind with
  | true => exact identifierFrom_flatten h true
  | false =>
    cases h with
    | nil => rfl
    | @cons _ segment rest hne hsegment hrest =>
      obtain ⟨c, tail, rfl⟩ := List.exists_cons_of_ne_nil hne
      rw [List.flatten_cons, identifierFrom_segment_append hsegment rfl,
        written_segment hne hsegment, identifierFrom_flatten hrest false]
      rfl

/-- A name with separators at its start, in a row, and before a digit. -/
theorem identifierOf_eq_written_user :
    "_user--id-2".toList ≠ [] ∧ identifierOf .unicode "_user--id-2".toList =
      written .unicode true
        ["_".toList, "user".toList, "--".toList, "id".toList, "-".toList, "2".toList] := by
  have hne : "_user--id-2".toList ≠ [] := by decide
  obtain ⟨-, -, hwritten⟩ := identifierOf_eq_written .unicode hne
  have hpieces : pieces "_user--id-2".toList =
      ["_".toList, "user".toList, "--".toList, "id".toList, "-".toList, "2".toList] := by
    decide +kernel
  rw [hpieces] at hwritten
  exact ⟨hne, hwritten⟩

example : identifier "_user--id-2" = "_User_Id_2" := by decide +kernel

end FunctionForge.Naming
