import FunctionForge.Proofs.Files.Reading

/-!
# Paths relative to the folder of a file

A text that is joined to the folder of a file's path leads where walking along it from the folder of
the file leads (`route_join_eq_ok_iff`, `exists_file_of_route`).  So what is found there does not
depend on the path under which the file was reached, only on where the file is
(`locateAnyLength_join_eq_ok_iff`, `loadValueAnyLength_eq_ok_iff`).
-/

namespace FunctionForge.Files.FileTree

open Files.Path (ofReverse)
open Text (cut)

variable {tree : FileTree} {location result : Location}

/-! ### Walks that follow each other -/

/-- A folder is found at a location. -/
def HasFolder (tree : FileTree) (location : Location) : Prop :=
  ∃ entries, tree.entry? location = some (.folder entries)

theorem HasFolder.not_file (h : tree.HasFolder location) {data : FileData}
    (hf : tree.entry? location = some (.file data)) : False := by
  obtain ⟨entries, he⟩ := h
  exact absurd (he.symm.trans hf) nofun

theorem walk_append_eq_ok_iff {names others : List String} :
    tree.walk location (names ++ others) = .ok result ↔
      ∃ inner, tree.walk location names = .ok inner ∧ tree.walk inner others = .ok result := by
  induction names generalizing location with
  | nil => simp [walk]
  | cons name rest ih =>
    rw [List.cons_append]
    constructor
    · intro h
      obtain ⟨entries, he⟩ := exists_folder_of_walk_cons h
      rw [walk_cons he] at h ⊢
      split_ifs at h ⊢
      · exact ih.mp h
      · exact ih.mp h
      · exact ih.mp h
    · rintro ⟨inner, h, hi⟩
      obtain ⟨entries, he⟩ := exists_folder_of_walk_cons h
      rw [walk_cons he] at h ⊢
      split_ifs at h ⊢
      · exact ih.mpr ⟨inner, h, hi⟩
      · exact ih.mpr ⟨inner, h, hi⟩
      · exact ih.mpr ⟨inner, h, hi⟩

/-- A piece that names nothing leads from a folder to itself. -/
theorem walk_blank_eq_ok_iff {name : String} (hn : name = "" ∨ name = ".") :
    tree.walk location [name] = .ok result ↔ result = location ∧ tree.HasFolder location := by
  constructor
  · intro h
    obtain ⟨entries, he⟩ := exists_folder_of_walk_cons h
    rw [walk_cons he, if_pos hn] at h
    exact ⟨(Except.ok.inj h).symm, entries, he⟩
  · rintro ⟨rfl, entries, he⟩
    rw [walk_cons he, if_pos hn]
    rfl

theorem isPassable_of_walk {names : List String} (hp : location.IsPassable)
    (h : tree.walk location names = .ok result) (hf : tree.HasFolder result) :
    result.IsPassable := by
  induction names generalizing location with
  | nil =>
    obtain rfl := Except.ok.inj h
    exact hp
  | cons name rest ih =>
    obtain ⟨entries, he⟩ := exists_folder_of_walk_cons h
    rw [walk_cons he] at h
    split_ifs at h
    · exact ih hp h
    · exact ih hp.outer h
    · cases rest with
      | nil =>
        obtain rfl := Except.ok.inj h
        obtain ⟨inner, hi⟩ := hf
        exact isPassable_child hp hi
      | cons next more =>
        obtain ⟨inner, hi⟩ := exists_folder_of_walk_cons h
        exact ih (isPassable_child hp hi) h

/-- A single piece that leads from a folder to a file is the name of the file. -/
theorem child_of_walk_singleton {name : String} {data : FileData} (hp : location.IsPassable)
    (h : tree.walk location [name] = .ok result) (hf : tree.entry? result = some (.file data)) :
    ∃ trail, location = .inside trail ∧ result = .inside ((name, some (.file data)) :: trail) ∧
      name ≠ "" ∧ name ≠ "." ∧ name ≠ ".." := by
  have hfolder (inner : Location) (hi : inner.IsPassable) (heq : inner = result) : False :=
    HasFolder.not_file (exists_folder_of_isPassable tree (heq ▸ hi)) hf
  obtain ⟨entries, he⟩ := exists_folder_of_walk_cons h
  rw [walk_cons he] at h
  split_ifs at h with hn hup
  · exact (hfolder location hp (Except.ok.inj h)).elim
  · exact (hfolder location.outer hp.outer (Except.ok.inj h)).elim
  · obtain rfl := Except.ok.inj h
    rw [not_or] at hn
    cases location with
    | above => exact absurd hf nofun
    | beyond => exact hp.elim
    | inside trail =>
      refine ⟨trail, rfl, ?_, hn.1, hn.2, hup⟩
      rw [show Fields.get? entries name = some (.file data) from hf]
      rfl

/-! ### Routes -/

/-- Where the pieces of a path lead, whatever else there is to say against it. -/
def route (tree : FileTree) (path : Path) : Except FileError Location :=
  if path.isAbsolute then tree.walk .above (cut '/' path.text).tail
  else tree.walk (.inside []) (cut '/' path.text)

theorem locateAnyLength_eq_ok_iff {path : Path} : tree.locateAnyLength path = .ok location ↔
    Char.ofNat 0 ∉ path.text.toList ∧ path.text ≠ "" ∧ tree.route path = .ok location := by
  rw [locateAnyLength, route]
  by_cases hnul : path.text.toList.contains (Char.ofNat 0) = true
  · rw [if_pos hnul]
    have hmem := List.contains_iff_mem.mp hnul
    exact iff_of_false (by simp) fun h => h.1 hmem
  · rw [if_neg hnul]
    have hmem := mt List.contains_iff_mem.mpr hnul
    by_cases hempty : path.text = ""
    · rw [if_pos (by rw [hempty]; rfl)]
      exact iff_of_false (by simp) fun h => h.2.1 hempty
    · rw [if_neg (by simpa [String.isEmpty_iff] using hempty)]
      exact ⟨fun h => ⟨hmem, hempty, h⟩, fun h => h.2.2⟩

theorem isAbsolute_append_slash (front other : String) :
    (Path.mk (front ++ "/" ++ other)).isAbsolute = (Path.mk (front ++ "/")).isAbsolute := by
  have hs : "/".toList = ['/'] := rfl
  unfold Path.isAbsolute
  simp only [String.toList_append, hs]
  cases front.toList with
  | nil => rfl
  | cons c rest => rfl

/-- Behind a slash, a route goes on from where it has led. -/
theorem route_append_eq_ok_iff {front other : String} :
    tree.route ⟨front ++ "/" ++ other⟩ = .ok result ↔
      ∃ folder, tree.route ⟨front ++ "/"⟩ = .ok folder ∧ tree.HasFolder folder ∧
        tree.walk folder (cut '/' other) = .ok result := by
  -- The slash ends in an empty piece, which leads from a folder to itself.
  have hwalk (start : Location) (names : List String) :
      tree.walk start (names ++ cut '/' other) = .ok result ↔
        ∃ folder, tree.walk start (names ++ [""]) = .ok folder ∧ tree.HasFolder folder ∧
          tree.walk folder (cut '/' other) = .ok result := by
    simp only [walk_append_eq_ok_iff, walk_blank_eq_ok_iff (Or.inl rfl)]
    constructor
    · rintro ⟨inner, hi, h⟩
      obtain ⟨name, rest, hc⟩ := List.exists_cons_of_ne_nil (Path.cut_ne_nil other)
      have hf : tree.HasFolder inner := exists_folder_of_walk_cons (hc ▸ h)
      exact ⟨inner, ⟨inner, hi, rfl, hf⟩, hf, h⟩
    · rintro ⟨folder, ⟨inner, hi, rfl, -⟩, -, h⟩
      exact ⟨folder, hi, h⟩
  rw [route, route, isAbsolute_append_slash, Path.cut_append, Path.cut_append_slash]
  split_ifs
  · rw [List.tail_append_of_ne_nil (Path.cut_ne_nil front),
      List.tail_append_of_ne_nil (Path.cut_ne_nil front)]
    exact hwalk .above _
  · exact hwalk (.inside []) _

theorem route_append_slash_eq_ok_iff {text : String} (ht : text ≠ "") :
    tree.route ⟨text ++ "/"⟩ = .ok result ↔
      tree.route ⟨text⟩ = .ok result ∧ tree.HasFolder result := by
  have habs : (Path.mk (text ++ "/")).isAbsolute = (Path.mk text).isAbsolute := by
    have hne : text.toList ≠ [] := by simpa using ht
    obtain ⟨c, rest, hc⟩ := List.exists_cons_of_ne_nil hne
    unfold Path.isAbsolute
    simp only [String.toList_append, hc]
    rfl
  -- The empty piece behind the slash asks for a folder and stays in it.
  have hwalk (start : Location) (names : List String) :
      tree.walk start (names ++ [""]) = .ok result ↔
        tree.walk start names = .ok result ∧ tree.HasFolder result := by
    simp only [walk_append_eq_ok_iff, walk_blank_eq_ok_iff (Or.inl rfl)]
    constructor
    · rintro ⟨inner, hi, rfl, hf⟩
      exact ⟨hi, hf⟩
    · rintro ⟨h, hf⟩
      exact ⟨result, h, rfl, hf⟩
  rw [route, route, habs, Path.cut_append_slash]
  split_ifs
  · rw [List.tail_append_of_ne_nil (Path.cut_ne_nil text)]
    exact hwalk .above _
  · exact hwalk (.inside []) _

/-- What is dropped from the end of a path does not change where it leads. -/
theorem route_dropEmptyEnd {text : List Char} (h : tree.route (ofReverse text) = .ok result) :
    tree.route (ofReverse (Path.dropEmptyEnd text)) = .ok result := by
  fun_induction Path.dropEmptyEnd text with
  | case1 => exact h
  | case2 rest hrest ih =>
    have hne : (ofReverse rest).text ≠ "" := fun h => hrest (by simpa [ofReverse] using h)
    rw [Path.ofReverse_slash_cons, route_append_slash_eq_ok_iff hne] at h
    exact ih h.1
  | case3 rest ih =>
    have hd : ofReverse ('.' :: '/' :: rest) = ⟨(ofReverse rest).text ++ "/" ++ "."⟩ :=
      Path.ofReverse_append ['.'] rest
    rw [hd, route_append_eq_ok_iff] at h
    obtain ⟨folder, hf, hfolder, h⟩ := h
    have hcut : cut '/' "." = ["."] := rfl
    rw [hcut, walk_blank_eq_ok_iff (Or.inr rfl)] at h
    obtain ⟨rfl, -⟩ := h
    rw [Path.ofReverse_slash_cons] at ih
    exact ih hf
  | case4 => exact h

theorem isPassable_of_route {path : Path} (h : tree.route path = .ok result)
    (hf : tree.HasFolder result) : result.IsPassable := by
  rw [route] at h
  split_ifs at h
  · exact isPassable_of_walk (show Location.above.IsPassable from trivial) h hf
  · have hroot : (Location.inside []).IsPassable := fun _ hm => absurd hm List.not_mem_nil
    exact isPassable_of_walk hroot h hf

theorem properName?_concat_of_ne {name : List Char} (hslash : '/' ∉ name)
    (hdot : String.ofList name.reverse ≠ ".") (hup : String.ofList name.reverse ≠ "..")
    (segments : List String) : Path.properName? (segments ++ [String.ofList name.reverse]) =
      some (String.ofList name.reverse) := by
  rw [Path.properName?, List.getLast?_concat, Option.filter_some]
  simp [Path.ofList_reverse_ne_slash hslash, hdot, hup]

/-- A path that is a name alone leads to a file in the folder of the tree. -/
theorem exists_trail_of_alone {name : List Char} {data : FileData} (hslash : '/' ∉ name)
    (h : tree.route (ofReverse name) = .ok location)
    (hf : tree.entry? location = some (.file data)) :
    location = .inside [(String.ofList name.reverse, some (.file data))] ∧
      String.ofList name.reverse ≠ "." ∧ String.ofList name.reverse ≠ ".." := by
  have habs : ¬(ofReverse name).isAbsolute = true := by
    rw [Path.isAbsolute, beq_iff_eq, ofReverse, String.toList_ofList]
    exact fun hhead => hslash (List.mem_reverse.mp (List.mem_of_head? hhead))
  have hroot : (Location.inside []).IsPassable := fun _ hm => absurd hm List.not_mem_nil
  rw [route, if_neg habs, ofReverse, Path.cut_ofList_reverse hslash] at h
  obtain ⟨trail, htrail, hloc, -, hdot, hup⟩ := child_of_walk_singleton hroot h hf
  obtain rfl := Location.inside.inj htrail
  exact ⟨hloc, hdot, hup⟩

/-- A path that ends in a name leads to a file in the folder to which the rest leads. -/
theorem exists_trail_of_below {name rest : List Char} {data : FileData} (hslash : '/' ∉ name)
    (h : tree.route (ofReverse (name ++ '/' :: rest)) = .ok location)
    (hf : tree.entry? location = some (.file data)) :
    ∃ trail, location = .inside ((String.ofList name.reverse, some (.file data)) :: trail) ∧
      String.ofList name.reverse ≠ "." ∧ String.ofList name.reverse ≠ ".." ∧
      tree.route (ofReverse ('/' :: rest)) = .ok (.inside trail) ∧
      tree.HasFolder (.inside trail) := by
  rw [Path.ofReverse_append, route_append_eq_ok_iff, Path.cut_ofList_reverse hslash] at h
  obtain ⟨folder, hr, hfolder, hw⟩ := h
  obtain ⟨trail, rfl, hloc, -, hdot, hup⟩ :=
    child_of_walk_singleton (isPassable_of_route hr hfolder) hw hf
  rw [← Path.ofReverse_slash_cons] at hr
  exact ⟨trail, hloc, hdot, hup, hr, hfolder⟩

/-- A path that leads to a file has the name of the file as its last one, and without it leads to
the folder of the file. -/
theorem exists_file_of_route {path : Path} {data : FileData}
    (h : tree.route path = .ok location) (hf : tree.entry? location = some (.file data)) :
    ∃ name trail, location = .inside ((name, some (.file data)) :: trail) ∧
      path.fileName? = some name ∧
      tree.route (path.parent?.getD .here) = .ok (.inside trail) ∧
      tree.HasFolder (.inside trail) := by
  have hdrop := @route_dropEmptyEnd tree location path.text.toList.reverse
  have hseg := Path.segments_dropEmptyEnd path.text.toList.reverse
  rw [Path.ofReverse_text_reverse] at hdrop hseg
  replace hdrop := hdrop h
  rw [Path.fileName?_eq, ← hseg]
  have ht := Path.trimmed_dropEmptyEnd path.text.toList.reverse
  generalize htext : Path.dropEmptyEnd path.text.toList.reverse = text at ht hdrop
  -- Once trimmed, the path is empty, the root, a name alone, or a name behind a slash; the first
  -- two lead to folders.
  cases ht with
  | empty =>
    obtain rfl := Except.ok.inj hdrop
    exact absurd hf nofun
  | root =>
    obtain rfl := Except.ok.inj hdrop
    exact absurd hf nofun
  | alone hne hslash =>
    obtain ⟨hloc, hdot, hup⟩ := exists_trail_of_alone hslash hdrop hf
    refine ⟨_, [], hloc, ?_, ?_, tree.entries, rfl⟩
    · rw [Path.segments_alone hne hslash]
      exact properName?_concat_of_ne hslash hdot hup []
    · rw [Path.parent?_of_alone htext hne hslash]
      rfl
  | below hne hslash hdot' rest =>
    obtain ⟨trail, hloc, hdot, hup, hr, hfolder⟩ := exists_trail_of_below hslash hdrop hf
    refine ⟨_, trail, hloc, ?_, ?_, hfolder⟩
    · rw [Path.segments_below hne hslash hdot']
      exact properName?_concat_of_ne hslash hdot hup _
    · rw [Path.parent?_of_below htext hne hslash]
      exact route_dropEmptyEnd hr

/-- A path under which a file can be read has a last name. -/
theorem isSome_stem?_of_read {path : Path} {content : String}
    (h : tree.readAnyLength path = .ok content) : path.stem?.isSome = true := by
  obtain ⟨location, hl, he⟩ := readAnyLength_eq_ok_iff.mp h
  obtain ⟨-, -, hr⟩ := locateAnyLength_eq_ok_iff.mp hl
  obtain ⟨name, trail, -, hn, -⟩ := exists_file_of_route hr he
  rw [Path.isSome_stem?_iff, ← Path.fileName?_eq, hn, Option.isSome_some]

/-! ### Joining -/

/-- A text that is joined to a path leads where walking along it leads from where the path leads. -/
theorem route_join_eq_ok_iff {path : Path} {text : String} {folder : Location}
    (hr : tree.route path = .ok folder) (hf : tree.HasFolder folder)
    (ha : ¬(Path.mk text).isAbsolute = true) :
    tree.route (path.join text) = .ok result ↔ tree.walk folder (cut '/' text) = .ok result := by
  have hbehind {front : String} (hfront : tree.route ⟨front ++ "/"⟩ = .ok folder) :
      tree.route ⟨front ++ "/" ++ text⟩ = .ok result ↔
        tree.walk folder (cut '/' text) = .ok result := by
    rw [route_append_eq_ok_iff]
    constructor
    · rintro ⟨inner, hi, -, hw⟩
      obtain rfl := Except.ok.inj (hi.symm.trans hfront)
      exact hw
    · exact fun hw => ⟨folder, hfront, hf, hw⟩
  -- The path is empty, ends in a slash already, or is given one.
  rw [Path.join, if_neg ha]
  split
  · rename_i hlast
    have ht : path = ⟨""⟩ :=
      congrArg Path.mk (String.toList_inj.mp (List.getLast?_eq_none_iff.mp hlast))
    subst ht
    obtain rfl := Except.ok.inj hr
    rw [route, if_neg ha]
  · rename_i hlast
    obtain ⟨front, hfront⟩ := Path.text_of_getLast?_eq_slash hlast
    obtain ⟨path⟩ := path
    change path = front ++ "/" at hfront
    subst hfront
    exact hbehind hr
  · rename_i hlast
    have ht : path.text ≠ "" := by
      intro h
      rw [h] at hlast
      cases hlast
    exact hbehind ((route_append_slash_eq_ok_iff ht).mpr ⟨hr, hf⟩)

theorem dropEmptyEnd_subset (text : List Char) : Path.dropEmptyEnd text ⊆ text := by
  fun_induction Path.dropEmptyEnd text with
  | case1 => exact fun _ => id
  | case2 rest hrest ih => exact fun c hc => List.mem_cons_of_mem _ (ih hc)
  | case3 rest ih => exact fun c hc => List.mem_cons_of_mem _ (ih hc)
  | case4 => exact fun _ => id

/-- The zero character, which no path may hold. -/
def nul : Char := Char.ofNat 0

theorem nul_not_mem_parent {path : Path} (h : nul ∉ path.text.toList) :
    nul ∉ (path.parent?.getD .here).text.toList := by
  have hhere : nul ∉ Path.here.text.toList := by decide
  rw [Path.parent?]
  split
  · exact hhere
  · exact hhere
  · intro hm
    rw [Option.getD_some, String.toList_ofList, List.mem_reverse] at hm
    have hm' := List.dropWhile_subset _ (dropEmptyEnd_subset _ hm)
    exact h (List.mem_reverse.mp (dropEmptyEnd_subset _ hm'))

theorem nul_mem_join_iff {path : Path} (h : nul ∉ path.text.toList) (text : String) :
    nul ∈ (path.join text).text.toList ↔ nul ∈ text.toList := by
  have hs : nul ∉ "/".toList := by decide
  rw [Path.join]
  split_ifs
  · rfl
  · split
    · rfl
    · simp only [String.toList_append, List.mem_append, h, false_or]
    · simp only [String.toList_append, List.mem_append, h, hs, false_or]

/-- Where a text leads that is read relative to a folder. -/
def relative (tree : FileTree) (folder : Location) (text : String) : Except FileError Location :=
  if text.toList.contains nul then .error .badName
  else if (Path.mk text).isAbsolute then tree.walk .above (cut '/' text).tail
  else tree.walk folder (cut '/' text)

/-- What is read under a path that a text is joined to is what is read relative to the folder to
which the path leads. -/
theorem locateAnyLength_join_eq_ok_iff {path : Path} {text : String} {folder : Location}
    (hn : nul ∉ path.text.toList) (hr : tree.route path = .ok folder) (hf : tree.HasFolder folder)
    (ht : text ≠ "") :
    tree.locateAnyLength (path.join text) = .ok result ↔
      tree.relative folder text = .ok result := by
  have hne : (path.join text).text ≠ "" := by
    rw [Ne, ← Path.segments_eq_nil_iff, Path.segments_join]
    split_ifs with h
    · rwa [Path.segments_eq_nil_iff]
    · exact fun he => h (Or.inr (List.append_eq_nil_iff.mp he).1)
  rw [locateAnyLength_eq_ok_iff, relative]
  by_cases hnul : nul ∈ text.toList
  · rw [if_pos (List.contains_iff_mem.mpr hnul)]
    exact ⟨fun h => absurd ((nul_mem_join_iff hn text).mpr hnul) h.1, nofun⟩
  rw [if_neg (mt List.contains_iff_mem.mp hnul)]
  have hjoin : Char.ofNat 0 ∉ (path.join text).text.toList := mt (nul_mem_join_iff hn text).mp hnul
  -- An absolute text starts anew, and any other one goes on from the folder.
  by_cases ha : (Path.mk text).isAbsolute = true
  · have heq : path.join text = ⟨text⟩ := by rw [Path.join, if_pos ha]
    rw [if_pos ha, heq, route, if_pos ha]
    rw [heq] at hne hjoin
    exact ⟨fun h => h.2.2, fun h => ⟨hjoin, hne, h⟩⟩
  · rw [if_neg ha, route_join_eq_ok_iff hr hf ha]
    exact ⟨fun h => h.2.2, fun h => ⟨hjoin, hne, h⟩⟩

end FunctionForge.Files.FileTree

namespace FunctionForge.Document

open Files (FileData FileTree Location Path)
open Markup (Place)

/-- The value that the file at a location holds. -/
def valueAt? : Location → Option Value
  | .inside ((name, some (.file (.text content))) :: _) =>
    ((Format.ofPath ⟨name⟩).read Place.value content).toOption
  | _ => none

theorem ofPath_of_fileName? {path : Path} {name : String} (h : path.fileName? = some name) :
    Format.ofPath path = Format.ofPath ⟨name⟩ := by
  rw [Format.ofPath, Format.ofPath, Path.extension?, Path.extension?, Path.nameParts?,
    Path.nameParts?, h, Path.fileName?_of_fileName? h]

/-- What is loaded from a file depends on where the file is alone. -/
theorem loadValueAnyLength_eq_ok_iff {files : FileTree} {path : Path} {value : Value} :
    loadValueAnyLength files path = .ok value ↔
      ∃ location, files.locateAnyLength path = .ok location ∧ valueAt? location = some value := by
  -- The format is told by the name of the file, and the walk ends at that name.
  have hname {location : Location} {content : String}
      (hl : files.locateAnyLength path = .ok location)
      (he : files.entry? location = some (.file (.text content))) :
      valueAt? location = ((Format.ofPath path).read Place.value content).toOption := by
    obtain ⟨-, -, hr⟩ := FileTree.locateAnyLength_eq_ok_iff.mp hl
    obtain ⟨name, trail, rfl, hn, -⟩ := FileTree.exists_file_of_route hr he
    rw [valueAt?, ofPath_of_fileName? hn]
  constructor
  · intro h
    obtain ⟨content, hc⟩ := exists_read_of_loadValueAnyLength h
    obtain ⟨location, hl, he⟩ := FileTree.readAnyLength_eq_ok_iff.mp hc
    refine ⟨location, hl, ?_⟩
    simp only [loadValueAnyLength, hc] at h
    rw [hname hl he, h]
    rfl
  · rintro ⟨location, hl, hv⟩
    have hfile : ∃ content, files.entry? location = some (.file (.text content)) := by
      unfold valueAt? at hv
      split at hv
      · exact ⟨_, rfl⟩
      · cases hv
    obtain ⟨content, he⟩ := hfile
    rw [hname hl he] at hv
    simp only [loadValueAnyLength, FileTree.readAnyLength_eq_ok_iff.mpr ⟨location, hl, he⟩]
    cases hr : (Format.ofPath path).read Place.value content with
    | error cause =>
      rw [hr] at hv
      cases hv
    | ok read =>
      rw [hr] at hv
      exact congrArg Except.ok (Option.some.inj hv)

end FunctionForge.Document
