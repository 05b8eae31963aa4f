import FunctionForge.Files.Path
import FunctionForge.Proofs.Text.Cut
import Mathlib.Data.String.Basic

/-!
# The segments of a path

Everything that is asked of a path but its text depends on its segments alone: its plain text
(`plainText_eq_iff`), its last name with stem and extension (`fileName?_eq`), the segments of its
folder (`segments_parent`) and those of a path that it is joined with (`segments_join`).  So two
spellings of a path lead to the same spellings of the paths that are read relative to it.
-/

namespace FunctionForge.Files.Path

open Text (cut pieces)

/-! ### Segments of pieces -/

/-- The pieces that name something. -/
def named (names : List String) : List String :=
  names.filter fun s => s != "" && s != "."

/-- The segments of a path with these pieces between its slashes. -/
def segmentsOf : List String → List String
  | [""] => []
  | "" :: rest => "/" :: named rest
  | first :: rest => first :: named rest
  | [] => []

theorem segments_eq (path : Path) : path.segments = segmentsOf (cut '/' path.text) := rfl

@[simp]
theorem named_nil : named [] = [] := rfl

theorem named_append (names others : List String) :
    named (names ++ others) = named names ++ named others :=
  List.filter_append ..

theorem named_cons_of_ne {name : String} (he : name ≠ "") (hd : name ≠ ".")
    (rest : List String) : named (name :: rest) = name :: named rest := by
  rw [named, List.filter_cons_of_pos (by simp [he, hd]), named]

theorem named_cons_of_eq {name : String} (h : name = "" ∨ name = ".") (rest : List String) :
    named (name :: rest) = named rest := by
  rw [named, List.filter_cons_of_neg (by simpa using or_iff_not_imp_left.mp h), named]

theorem named_named (names : List String) : named (named names) = named names := by
  rw [named, named, List.filter_filter]
  simp

theorem mem_of_mem_named {names : List String} {name : String} (h : name ∈ named names) :
    name ∈ names :=
  (List.mem_filter.mp h).1

theorem segmentsOf_empty_cons {rest : List String} (h : rest ≠ []) :
    segmentsOf ("" :: rest) = "/" :: named rest := by
  cases rest with
  | nil => exact absurd rfl h
  | cons second more => rfl

theorem segmentsOf_cons {first : String} (h : first ≠ "") (rest : List String) :
    segmentsOf (first :: rest) = first :: named rest := by
  unfold segmentsOf
  split
  · simp_all
  · simp_all
  · simp_all
  · simp_all

/-- Behind a slash, only the pieces that name something count. -/
theorem segmentsOf_append {names others : List String} (hn : names ≠ []) (ho : others ≠ []) :
    segmentsOf (names ++ others) = segmentsOf (names ++ [""]) ++ named others := by
  cases names with
  | nil => exact absurd rfl hn
  | cons first rest =>
    by_cases hf : first = ""
    · subst hf
      rw [List.cons_append, List.cons_append, segmentsOf_empty_cons (by simp [ho]),
        segmentsOf_empty_cons (by simp), named_append, named_append, List.cons_append,
        List.append_assoc]
      rfl
    · rw [List.cons_append, List.cons_append, segmentsOf_cons hf, segmentsOf_cons hf,
        named_append, named_append, List.cons_append, List.append_assoc]
      rfl

/-- A slash at the end makes no segment. -/
theorem segmentsOf_append_empty {names : List String} (hn : names ≠ []) (he : names ≠ [""]) :
    segmentsOf (names ++ [""]) = segmentsOf names := by
  cases names with
  | nil => exact absurd rfl hn
  | cons first rest =>
    by_cases hf : first = ""
    · subst hf
      have hr : rest ≠ [] := fun h => he (by rw [h])
      rw [List.cons_append, segmentsOf_empty_cons (by simp), segmentsOf_empty_cons hr,
        named_append]
      exact congrArg _ (List.append_nil _)
    · rw [List.cons_append, segmentsOf_cons hf, segmentsOf_cons hf, named_append]
      exact congrArg _ (List.append_nil _)

/-! ### Segments of texts -/

theorem cut_ne_nil (text : String) : cut '/' text ≠ [] := by
  rw [cut, Ne, List.map_eq_nil_iff]
  exact Text.pieces_ne_nil _

theorem cut_eq_singleton_empty_iff {text : String} : cut '/' text = [""] ↔ text = "" := by
  refine ⟨fun h => ?_, fun h => by subst h; rfl⟩
  cases ht : text.toList with
  | nil => exact String.toList_inj.mp ht
  | cons c rest =>
    rw [cut, ht, pieces] at h
    split_ifs at h with hc
    · have := congrArg List.length h
      simp [Text.pieces_ne_nil] at this
    · cases hp : pieces '/' rest with
      | nil => exact absurd hp (Text.pieces_ne_nil rest)
      | cons piece more =>
        rw [hp] at h
        have := congrArg (fun names => names.head?.map String.toList) h
        simp at this

/-- A text is cut where its parts are joined, and within each of them. -/
theorem cut_append (text other : String) :
    cut '/' (text ++ "/" ++ other) = cut '/' text ++ cut '/' other := by
  have hs : "/".toList = ['/'] := rfl
  rw [cut, cut, cut, String.toList_append, String.toList_append, hs, List.append_assoc,
    List.singleton_append, Text.pieces_append_cons, List.map_append]

theorem cut_append_slash (text : String) : cut '/' (text ++ "/") = cut '/' text ++ [""] := by
  have h := cut_append text ""
  rwa [String.append_empty] at h

/-- Below a folder come the names of what is appended to it. -/
theorem segments_append (text other : String) :
    (Path.mk (text ++ "/" ++ other)).segments =
      (Path.mk (text ++ "/")).segments ++ named (cut '/' other) := by
  rw [segments_eq, segments_eq, cut_append, cut_append_slash,
    segmentsOf_append (cut_ne_nil text) (cut_ne_nil other)]

theorem segments_append_slash {text : String} (h : text ≠ "") :
    (Path.mk (text ++ "/")).segments = (Path.mk text).segments := by
  rw [segments_eq, segments_eq, cut_append_slash]
  exact segmentsOf_append_empty (cut_ne_nil text) (mt cut_eq_singleton_empty_iff.mp h)

/-- An absolute path starts with an empty piece. -/
theorem cut_of_isAbsolute {path : Path} (h : path.isAbsolute = true) :
    ∃ rest, rest ≠ [] ∧ cut '/' path.text = "" :: rest := by
  rw [isAbsolute, beq_iff_eq] at h
  cases ht : path.text.toList with
  | nil => simp [ht] at h
  | cons c more =>
    rw [ht, List.head?_cons, Option.some.injEq] at h
    refine ⟨(pieces '/' more).map String.ofList, ?_, ?_⟩
    · simp [Text.pieces_ne_nil]
    · rw [cut, ht, pieces, if_pos h]
      rfl

/-- A relative path that is not empty starts with a name. -/
theorem cut_of_not_isAbsolute {path : Path} (h : ¬path.isAbsolute = true) (ht : path.text ≠ "") :
    ∃ first rest, first ≠ "" ∧ cut '/' path.text = first :: rest := by
  rw [isAbsolute, beq_iff_eq] at h
  cases hl : path.text.toList with
  | nil => exact absurd (String.toList_inj.mp hl) ht
  | cons c more =>
    have hc : c ≠ '/' := fun he => h (by rw [hl, he, List.head?_cons])
    cases hp : pieces '/' more with
    | nil => exact absurd hp (Text.pieces_ne_nil more)
    | cons piece others =>
      refine ⟨String.ofList (c :: piece), others.map String.ofList, ?_, ?_⟩
      · intro he
        have := congrArg String.toList he
        simp at this
      · rw [cut, hl, pieces, if_neg hc, hp]
        rfl

theorem segments_of_isAbsolute {path : Path} (h : path.isAbsolute = true) :
    path.segments = "/" :: named (cut '/' path.text).tail := by
  obtain ⟨rest, hr, hc⟩ := cut_of_isAbsolute h
  rw [segments_eq, hc, segmentsOf_empty_cons hr, List.tail_cons]

/-- The segments of a path that starts at a name are its first piece and the others that name
something. -/
theorem segments_of_not_isAbsolute {path : Path} (h : ¬path.isAbsolute = true)
    (ht : path.text ≠ "") : ∃ first rest, first ≠ "" ∧ cut '/' path.text = first :: rest ∧
      path.segments = first :: named rest := by
  obtain ⟨first, rest, hf, hc⟩ := cut_of_not_isAbsolute h ht
  exact ⟨first, rest, hf, hc, by rw [segments_eq, hc, segmentsOf_cons hf]⟩

/-- Only the empty path has no segments. -/
theorem segments_eq_nil_iff {path : Path} : path.segments = [] ↔ path.text = "" := by
  refine ⟨fun h => ?_, fun h => by rw [segments_eq, h]; rfl⟩
  by_contra ht
  by_cases ha : path.isAbsolute = true
  · rw [segments_of_isAbsolute ha] at h
    exact List.cons_ne_nil _ _ h
  · obtain ⟨first, rest, -, -, hs⟩ := segments_of_not_isAbsolute ha ht
    rw [hs] at h
    exact List.cons_ne_nil _ _ h

theorem length_segmentsOf_le (names : List String) : (segmentsOf names).length ≤ names.length := by
  have hnamed (names : List String) : (named names).length ≤ names.length :=
    List.length_filter_le ..
  unfold segmentsOf
  split
  · exact Nat.zero_le _
  · exact Nat.succ_le_succ (hnamed _)
  · exact Nat.succ_le_succ (hnamed _)
  · exact le_rfl

/-- A path has at most one segment more than its text has bytes. -/
theorem length_segments_le (path : Path) : path.segments.length ≤ path.text.utf8ByteSize + 1 := by
  -- There is a piece more than there are slashes, and every slash takes a byte.
  have hpieces (text : List Char) : (pieces '/' text).length ≤ String.utf8Len text + 1 := by
    induction text with
    | nil => exact le_rfl
    | cons c rest ih =>
      have hpos := c.utf8Size_pos
      rw [pieces, String.utf8Len_cons]
      split_ifs
      · rw [List.length_cons]
        omega
      · split
        · rename_i h
          rw [h, List.length_cons] at ih
          rw [List.length_cons]
          omega
        · exact Nat.le_add_left ..
  rw [segments_eq, ← String.utf8Len_toList]
  refine (length_segmentsOf_le _).trans ?_
  rw [cut, List.length_map]
  exact hpieces _

/-! ### Plain texts -/

theorem not_mem_of_mem_cut {text name : String} (h : name ∈ cut '/' text) : '/' ∉ name.toList := by
  rw [cut, List.mem_map] at h
  obtain ⟨piece, hp, rfl⟩ := h
  rw [String.toList_ofList]
  exact Text.not_mem_of_mem_pieces hp

theorem cut_join_of_mem_cut {names : List String} (hn : names ≠ []) (text : String)
    (h : ∀ name ∈ names, name ∈ cut '/' text) : cut '/' (Text.join "/" names) = names :=
  @Text.cut_join '/' names hn fun name hm => not_mem_of_mem_cut (h name hm)

/-- The plain text of a path spells the same segments. -/
@[simp]
theorem segments_plainText (path : Path) : (Path.mk path.plainText).segments = path.segments := by
  rw [plainText]
  by_cases ht : path.text = ""
  · rw [segments_eq_nil_iff.mpr ht]
    rfl
  by_cases ha : path.isAbsolute = true
  · obtain ⟨rest, -, hc⟩ := cut_of_isAbsolute ha
    rw [segments_of_isAbsolute ha, hc, List.tail_cons]
    by_cases hr : named rest = []
    · rw [hr]
      rfl
    · -- The plain text is cut into the names again, since no name holds a slash.
      have hj : Text.join "/" ("/" :: named rest) = "/" ++ "/" ++ Text.join "/" (named rest) := by
        rw [Text.join]
        exact hr
      have hcut : cut '/' (Text.join "/" (named rest)) = named rest :=
        cut_join_of_mem_cut hr path.text fun name hm => by
          rw [hc]
          exact List.mem_cons_of_mem _ (mem_of_mem_named hm)
      rw [hj, segments_append, hcut, named_named]
      rfl
  · obtain ⟨first, rest, hf, hc, hs⟩ := segments_of_not_isAbsolute ha ht
    have hcut : cut '/' (Text.join "/" (first :: named rest)) = first :: named rest :=
      cut_join_of_mem_cut (List.cons_ne_nil _ _) path.text fun name hm => by
        rw [hc]
        rcases List.mem_cons.mp hm with rfl | hm
        · exact List.mem_cons_self
        · exact List.mem_cons_of_mem _ (mem_of_mem_named hm)
    rw [hs, segments_eq, hcut, segmentsOf_cons hf, named_named]

/-- Two paths have the same plain text exactly if their segments agree. -/
theorem plainText_eq_iff {path other : Path} :
    path.plainText = other.plainText ↔ path.segments = other.segments := by
  refine ⟨fun h => ?_, fun h => by rw [plainText, plainText, h]⟩
  rw [← segments_plainText path, ← segments_plainText other, h]

/-! ### The end of a path -/

/-- The path that a reversed text writes. -/
def ofReverse (text : List Char) : Path := ⟨String.ofList text.reverse⟩

theorem ofReverse_text_reverse (path : Path) : ofReverse path.text.toList.reverse = path := by
  rw [ofReverse, List.reverse_reverse, String.ofList_toList]

theorem ofReverse_slash_cons (text : List Char) :
    ofReverse ('/' :: text) = ⟨(ofReverse text).text ++ "/"⟩ := by
  rw [ofReverse, ofReverse, List.reverse_cons, String.ofList_append]

theorem ofReverse_append (name text : List Char) :
    ofReverse (name ++ '/' :: text) =
      ⟨(ofReverse text).text ++ "/" ++ String.ofList name.reverse⟩ := by
  rw [ofReverse, List.reverse_append, List.reverse_cons, String.ofList_append, String.ofList_append]
  rfl

/-- What is dropped from the end of a path names nothing. -/
theorem segments_dropEmptyEnd (text : List Char) :
    (ofReverse (dropEmptyEnd text)).segments = (ofReverse text).segments := by
  fun_induction dropEmptyEnd text with
  -- Every step drops a slash or a dot at the end, which makes no segment.
  | case1 => rfl
  | case2 rest hrest ih =>
    have hne : (ofReverse rest).text ≠ "" := fun h => hrest (by simpa [ofReverse] using h)
    rw [ih, ofReverse_slash_cons, segments_append_slash hne]
  | case3 rest ih =>
    have hd : ofReverse ('.' :: '/' :: rest) = ⟨(ofReverse rest).text ++ "/" ++ "."⟩ :=
      ofReverse_append ['.'] rest
    rw [ih, ofReverse_slash_cons, hd, segments_append]
    exact (List.append_nil _).symm
  | case4 => rfl

/-- A reversed text from whose end nothing is to be dropped. -/
inductive Trimmed : List Char → Prop
  | empty : Trimmed []
  | root : Trimmed ['/']
  | alone {name : List Char} (hne : name ≠ []) (hslash : '/' ∉ name) : Trimmed name
  | below {name : List Char} (hne : name ≠ []) (hslash : '/' ∉ name) (hdot : name ≠ ['.'])
      (rest : List Char) : Trimmed (name ++ '/' :: rest)

/-- What is left behind the slashes and dots at the end is the root, nothing, or a name with or
without a folder. -/
theorem trimmed_dropEmptyEnd (text : List Char) : Trimmed (dropEmptyEnd text) := by
  fun_induction dropEmptyEnd text with
  | case1 => exact .root
  | case2 rest hrest ih => exact ih
  | case3 rest ih => exact ih
  | case4 text hroot hslash hdot =>
    cases hsplit : Text.splitFirst '/' text with
    | none =>
      rw [Text.splitFirst_eq_none_iff] at hsplit
      by_cases hne : text = []
      · rw [hne]
        exact .empty
      · exact .alone hne hsplit
    | some parts =>
      obtain ⟨name, rest⟩ := parts
      obtain ⟨hname, rfl⟩ := Text.splitFirst_eq_some_iff.mp hsplit
      refine .below ?_ hname ?_ rest
      · rintro rfl
        exact hslash rest rfl
      · rintro rfl
        exact hdot rest rfl

section

variable {name : List Char}

theorem takeWhile_of_not_mem (h : '/' ∉ name) : name.takeWhile (· != '/') = name := by
  rw [List.takeWhile_eq_self_iff]
  intro c hc
  simpa using fun he : c = '/' => h (he ▸ hc)

theorem dropWhile_of_not_mem (h : '/' ∉ name) : name.dropWhile (· != '/') = [] := by
  rw [List.dropWhile_eq_nil_iff]
  intro c hc
  simpa using fun he : c = '/' => h (he ▸ hc)

theorem takeWhile_append_slash (h : '/' ∉ name) (rest : List Char) :
    (name ++ '/' :: rest).takeWhile (· != '/') = name := by
  rw [List.takeWhile_append_of_pos]
  · simp
  · intro c hc
    simpa using fun he : c = '/' => h (he ▸ hc)

theorem dropWhile_append_slash (h : '/' ∉ name) (rest : List Char) :
    (name ++ '/' :: rest).dropWhile (· != '/') = '/' :: rest := by
  rw [List.dropWhile_append_of_pos]
  · simp
  · intro c hc
    simpa using fun he : c = '/' => h (he ▸ hc)

theorem ofList_reverse_ne_empty (h : name ≠ []) : String.ofList name.reverse ≠ "" := by
  simpa using h

theorem ofList_reverse_ne_slash (h : '/' ∉ name) : String.ofList name.reverse ≠ "/" := by
  intro he
  refine h (List.mem_reverse.mp ?_)
  rw [← String.toList_ofList (l := name.reverse), he]
  exact List.mem_singleton_self _

theorem cut_ofList_reverse (h : '/' ∉ name) :
    cut '/' (String.ofList name.reverse) = [String.ofList name.reverse] := by
  rw [cut, String.toList_ofList, Text.pieces_of_not_mem (fun hm => h (List.mem_reverse.mp hm)),
    List.map_singleton]

theorem segments_alone (hne : name ≠ []) (hslash : '/' ∉ name) :
    (ofReverse name).segments = [String.ofList name.reverse] := by
  rw [ofReverse, segments_eq, cut_ofList_reverse hslash,
    segmentsOf_cons (ofList_reverse_ne_empty hne)]
  rfl

/-- A name below a folder is the last segment, behind those of the folder. -/
theorem segments_below (hne : name ≠ []) (hslash : '/' ∉ name) (hdot : name ≠ ['.'])
    (rest : List Char) : (ofReverse (name ++ '/' :: rest)).segments =
      (ofReverse ('/' :: rest)).segments ++ [String.ofList name.reverse] := by
  have hd : String.ofList name.reverse ≠ "." := by
    intro he
    have := congrArg String.toList he
    rw [String.toList_ofList] at this
    exact hdot (by simpa using congrArg List.reverse this)
  rw [ofReverse_append, segments_append, cut_ofList_reverse hslash,
    named_cons_of_ne (ofList_reverse_ne_empty hne) hd, named_nil, ofReverse_slash_cons]

end

/-! ### Last names and folders -/

/-- The name that the last of a path's segments gives a file. -/
def properName? (segments : List String) : Option String :=
  segments.getLast?.filter fun s => s != "/" && s != "." && s != ".."

/-- The last segment is a proper name unless it leads to the folder itself or to the one above. -/
theorem properName?_concat {name : List Char} (hslash : '/' ∉ name) (segments : List String) :
    properName? (segments ++ [String.ofList name.reverse]) =
      if name.reverse = ['.'] ∨ name.reverse = ['.', '.'] then none
      else some (String.ofList name.reverse) := by
  have hs := ofList_reverse_ne_slash hslash
  rw [properName?, List.getLast?_concat, Option.filter_some]
  have hd (l : List Char) : String.ofList name.reverse = String.ofList l ↔ name.reverse = l :=
    String.ofList_inj
  have h1 : String.ofList name.reverse = "." ↔ name.reverse = ['.'] := hd ['.']
  have h2 : String.ofList name.reverse = ".." ↔ name.reverse = ['.', '.'] := hd ['.', '.']
  simp only [bne_iff_ne, ne_eq, hs, not_false_eq_true, Bool.and_eq_true, true_and, h1, h2,
    ← not_or]
  split_ifs with h
  · rfl
  · rfl

/-- The last name of a path is its last segment, if that is neither the root nor dots. -/
theorem fileName?_eq (path : Path) : path.fileName? = properName? path.segments := by
  have hseg := segments_dropEmptyEnd path.text.toList.reverse
  rw [ofReverse_text_reverse] at hseg
  rw [← hseg, fileName?]
  have ht := trimmed_dropEmptyEnd path.text.toList.reverse
  -- What is trimmed has one of four forms, of which only the last two have a name.
  generalize dropEmptyEnd path.text.toList.reverse = text at ht
  cases ht with
  | empty => rfl
  | root => rfl
  | alone hne hslash =>
    have hs := properName?_concat hslash []
    rw [List.nil_append] at hs
    rw [takeWhile_of_not_mem hslash, segments_alone hne hslash, hs]
    simp [hne]
  | below hne hslash hdot rest =>
    rw [takeWhile_append_slash hslash, segments_below hne hslash hdot,
      properName?_concat hslash]
    simp [hne]

theorem dropEmptyEnd_of_not_mem {text : List Char} (h : '/' ∉ text) : dropEmptyEnd text = text := by
  fun_cases dropEmptyEnd text with
  | case1 => rfl
  | case2 rest hrest => exact absurd List.mem_cons_self h
  | case3 rest => exact absurd (List.mem_cons_of_mem _ List.mem_cons_self) h
  | case4 => rfl

/-- There is no slash in the last name of a path. -/
theorem slash_not_mem_of_fileName? {path : Path} {name : String} (h : path.fileName? = some name) :
    '/' ∉ name.toList := by
  rw [fileName?] at h
  split_ifs at h
  rw [← Option.some.inj h, String.toList_ofList, List.mem_reverse]
  intro hm
  simpa using List.mem_takeWhile_imp hm

/-- A last name is the last name of itself. -/
theorem fileName?_of_fileName? {path : Path} {name : String} (h : path.fileName? = some name) :
    (Path.mk name).fileName? = some name := by
  have hslash : '/' ∉ name.toList.reverse := fun hm =>
    slash_not_mem_of_fileName? h (List.mem_reverse.mp hm)
  rw [fileName?] at h
  split_ifs at h with hproper
  have hname : name.toList =
      ((dropEmptyEnd path.text.toList.reverse).takeWhile (· != '/')).reverse := by
    rw [← Option.some.inj h, String.toList_ofList]
  rw [fileName?, dropEmptyEnd_of_not_mem hslash, takeWhile_of_not_mem hslash, List.reverse_reverse]
  rw [← hname] at hproper
  rw [if_neg hproper, String.ofList_toList]

theorem nameParts?_congr {path other : Path} (h : path.segments = other.segments) :
    path.nameParts? = other.nameParts? := by
  rw [nameParts?, nameParts?, fileName?_eq, fileName?_eq, h]

theorem stem?_congr {path other : Path} (h : path.segments = other.segments) :
    path.stem? = other.stem? := by
  rw [stem?, stem?, nameParts?_congr h]

theorem extension?_congr {path other : Path} (h : path.segments = other.segments) :
    path.extension? = other.extension? := by
  rw [extension?, extension?, nameParts?_congr h]

theorem isSome_stem?_iff {path : Path} :
    path.stem?.isSome = true ↔ (properName? path.segments).isSome = true := by
  rw [stem?, Option.isSome_map, nameParts?, fileName?_eq]
  cases properName? path.segments with
  | none => rfl
  | some name =>
    simp only [Option.bind_eq_bind, Option.bind_some]
    split_ifs
    · rfl
    · rfl

theorem parent?_of_alone {path : Path} {name : List Char}
    (h : dropEmptyEnd path.text.toList.reverse = name) (hne : name ≠ []) (hslash : '/' ∉ name) :
    path.parent? = some ⟨""⟩ := by
  rw [parent?, h]
  split
  · exact absurd rfl hne
  · exact absurd (List.mem_singleton_self _) hslash
  · rw [dropWhile_of_not_mem hslash]
    rfl

/-- The folder of a name that stands below one is what stands before the slash. -/
theorem parent?_of_below {path : Path} {name rest : List Char}
    (h : dropEmptyEnd path.text.toList.reverse = name ++ '/' :: rest) (hne : name ≠ [])
    (hslash : '/' ∉ name) : path.parent? = some (ofReverse (dropEmptyEnd ('/' :: rest))) := by
  rw [parent?, h]
  split
  · rename_i hnil
    exact absurd hnil (by simp)
  · rename_i hroot
    have hlen := congrArg List.length hroot
    have := List.length_pos_iff.mpr hne
    simp at hlen
    omega
  · rw [dropWhile_append_slash hslash]
    rfl

theorem concat_ne_root {name : String} (h : name ≠ "/") (segments : List String) :
    segments ++ [name] ≠ ["/"] := by
  intro heq
  have hlast := congrArg List.getLast? heq
  rw [List.getLast?_concat] at hlast
  exact h (Option.some.inj hlast)

/-- The segments of the folder that a path stands in. -/
theorem segments_parent (path : Path) : (path.parent?.getD .here).segments =
    if path.segments = [] ∨ path.segments = ["/"] then ["."] else path.segments.dropLast := by
  have hseg := segments_dropEmptyEnd path.text.toList.reverse
  rw [ofReverse_text_reverse] at hseg
  rw [← hseg]
  have ht := trimmed_dropEmptyEnd path.text.toList.reverse
  generalize htext : dropEmptyEnd path.text.toList.reverse = text at ht
  cases ht with
  | empty =>
    rw [parent?, htext]
    rfl
  | root =>
    rw [parent?, htext]
    rfl
  | alone hne hslash =>
    rw [parent?_of_alone htext hne hslash, segments_alone hne hslash,
      if_neg (by simp [ofList_reverse_ne_slash hslash])]
    rfl
  | @below name hne hslash hdot rest =>
    have hlast := concat_ne_root (ofList_reverse_ne_slash hslash) (ofReverse ('/' :: rest)).segments
    rw [parent?_of_below htext hne hslash, segments_below hne hslash hdot,
      if_neg (by simp [hlast]), List.dropLast_concat]
    exact segments_dropEmptyEnd ('/' :: rest)

/-- Paths of the same segments stand in folders of the same segments. -/
theorem segments_parent_congr {path other : Path} (h : path.segments = other.segments) :
    (path.parent?.getD .here).segments = (other.parent?.getD .here).segments := by
  rw [segments_parent, segments_parent, h]

/-! ### Joining -/

theorem text_of_getLast?_eq_slash {path : Path} (h : path.text.toList.getLast? = some '/') :
    ∃ front, path.text = front ++ "/" := by
  obtain ⟨front, hf⟩ := List.getLast?_eq_some_iff.mp h
  refine ⟨String.ofList front, String.toList_inj.mp ?_⟩
  rw [hf, String.toList_append, String.toList_ofList]
  rfl

/-- An absolute path takes the place of what it is joined with; of a relative one the names come
behind. -/
theorem segments_join (path : Path) (text : String) : (path.join text).segments =
    if (Path.mk text).isAbsolute ∨ path.segments = [] then (Path.mk text).segments
    else path.segments ++ named (cut '/' text) := by
  rw [join]
  by_cases ha : (Path.mk text).isAbsolute = true
  · rw [if_pos ha, if_pos (Or.inl ha)]
  rw [if_neg ha]
  -- The text of the folder is empty, ends in a slash, or needs one.
  split
  · rename_i h
    rw [List.getLast?_eq_none_iff] at h
    rw [if_pos (Or.inr (segments_eq_nil_iff.mpr (String.toList_inj.mp h)))]
  · rename_i h
    obtain ⟨front, hf⟩ := text_of_getLast?_eq_slash h
    have hne : path.text ≠ "" := by
      intro h0
      rw [h0] at h
      exact absurd h (by simp)
    rw [if_neg (by simp [ha, segments_eq_nil_iff, hne]), hf, segments_append, ← hf]
  · rename_i h
    have hne : path.text ≠ "" := by
      intro h0
      rw [h0] at h
      exact absurd h (by simp)
    rw [if_neg (by simp [ha, segments_eq_nil_iff, hne]), segments_append,
      segments_append_slash hne]

/-- Joining depends on the segments of the folder alone. -/
theorem segments_join_congr {path other : Path} (h : path.segments = other.segments)
    (text : String) : (path.join text).segments = (other.join text).segments := by
  rw [segments_join, segments_join, h]

/-- The last piece of a text is what stands after its last slash. -/
theorem exists_cut_eq_concat (text : String) :
    ∃ front, cut '/' text = front ++ [String.ofList (Text.afterLast '/' text.toList)] := by
  -- The last slash splits the text, and there is no other one behind it.
  by_cases h : '/' ∈ text.toList
  · obtain ⟨after, before, hsplit, hafter⟩ := List.eq_append_cons_of_mem (List.mem_reverse.mpr h)
    have htext : text.toList = before.reverse ++ '/' :: after.reverse := by
      rw [← List.reverse_reverse text.toList, hsplit]
      simp
    have hlast : '/' ∉ after.reverse := by rwa [List.mem_reverse]
    rw [cut, htext, Text.pieces_append_cons, Text.pieces_of_not_mem hlast,
      Text.afterLast_append_cons hlast, List.map_append]
    exact ⟨_, rfl⟩
  · rw [cut, Text.pieces_of_not_mem h, Text.afterLast_of_not_mem h]
    exact ⟨[], rfl⟩

/-- A path that is joined with a text ends in the last piece of the text, if that names
something. -/
theorem getLast?_segments_join {path : Path} {text name : String}
    (hname : String.ofList (Text.afterLast '/' text.toList) = name) (he : name ≠ "")
    (hd : name ≠ ".") : (path.join text).segments.getLast? = some name := by
  obtain ⟨front, hcut⟩ := exists_cut_eq_concat text
  rw [hname] at hcut
  have hnamed : named (front ++ [name]) = named front ++ [name] := by
    rw [named_append, named_cons_of_ne he hd, named_nil]
  rw [segments_join]
  split_ifs
  · rw [segments_eq, hcut]
    by_cases hf : front = []
    · rw [hf, List.nil_append, segmentsOf_cons he]
      rfl
    · rw [segmentsOf_append hf (List.cons_ne_nil _ _), named_cons_of_ne he hd, named_nil]
      exact List.getLast?_concat
  · rw [hcut, hnamed, ← List.append_assoc]
    exact List.getLast?_concat

/-- A last name starts with its stem. -/
theorem stem_prefix {path : Path} {name stem : String} (hn : path.fileName? = some name)
    (hs : path.stem? = some stem) : stem.toList <+: name.toList := by
  rw [stem?, nameParts?, hn] at hs
  simp only [Option.bind_eq_bind, Option.bind_some] at hs
  split_ifs at hs
  · obtain rfl := Option.some.inj hs
    simp only [String.ofList_toList, List.prefix_rfl]
  · obtain rfl := Option.some.inj hs
    rw [String.toList_ofList]
    exact List.take_prefix _ _

/-- A last name is its own stem exactly if it has no extension. -/
theorem stem_eq_iff {path : Path} {name stem : String} (hn : path.fileName? = some name)
    (hs : path.stem? = some stem) : stem = name ↔ path.extension? = none := by
  rw [stem?, nameParts?, hn] at hs
  rw [extension?, nameParts?, hn]
  simp only [Option.bind_eq_bind, Option.bind_some] at hs ⊢
  split_ifs at hs ⊢ with hempty
  · obtain rfl := Option.some.inj hs
    exact ⟨fun _ => rfl, fun _ => String.ofList_toList⟩
  · obtain rfl := Option.some.inj hs
    -- The stem leaves out the dot at least.
    have hlength : 0 < name.toList.length := by
      rw [List.length_pos_iff]
      intro h
      rw [h] at hempty
      exact hempty rfl
    refine ⟨fun heq => ?_, fun h => absurd h (Option.some_ne_none _)⟩
    have := congrArg (fun text => text.toList.length) heq
    simp only [String.toList_ofList, List.length_take] at this
    omega

end FunctionForge.Files.Path
