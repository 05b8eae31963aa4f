import FunctionForge.Document.Load
import FunctionForge.Proofs.Files.Path

/-!
# What can be read under a path

`locateAnyLength`, `readAnyLength` and `loadValueAnyLength` do what `locate`, `read` and `loadValue`
do, except that no path is too long for them; the originals succeed where these do and the path is
short (`loadValue_eq_ok_iff`).

A walk along a path that succeeds comes to the same place without the pieces that name nothing
(`walk_named`), so a file has one content under all spellings of its path under which it can be read
(`loadValueAnyLength_congr`).
-/

namespace FunctionForge

open Markup (Place)

namespace Files

/-! ### Walking -/

/-- Whether a location and all that is passed on the way to it are folders. -/
def Location.IsPassable : Location → Prop
  | .inside trail => ∀ step ∈ trail, ∃ entries, step.2 = some (.folder entries)
  | .above => True
  | .beyond => False

theorem Location.IsPassable.outer {location : Location} (h : location.IsPassable) :
    location.outer.IsPassable := by
  cases location with
  | inside trail =>
    cases trail with
    | nil => trivial
    | cons step rest => exact fun other hm => h other (List.mem_cons_of_mem _ hm)
  | above => trivial
  | beyond => trivial

namespace FileTree

open Files.Path (named)

variable {tree : FileTree} {location result : Location}

theorem exists_folder_of_isPassable (tree : FileTree) (h : location.IsPassable) :
    ∃ entries, tree.entry? location = some (.folder entries) := by
  cases location with
  | inside trail =>
    cases trail with
    | nil => exact ⟨tree.entries, rfl⟩
    | cons step rest => exact h step List.mem_cons_self
  | above => exact ⟨[], rfl⟩
  | beyond => exact h.elim

/-- A folder that is stepped into can be passed through. -/
theorem isPassable_child (h : location.IsPassable) {name : String} {entry : Option Entry}
    {entries : Fields Entry}
    (he : tree.entry? (location.child name entry) = some (.folder entries)) :
    (location.child name entry).IsPassable := by
  cases location with
  | inside trail =>
    intro step hm
    rcases List.mem_cons.mp hm with rfl | hm
    · exact ⟨entries, he⟩
    · exact h step hm
  | above => exact absurd he nofun
  | beyond => exact h.elim

/-- What a walk along at least one name starts from is a folder. -/
theorem exists_folder_of_walk_cons {name : String} {rest : List String}
    (h : tree.walk location (name :: rest) = .ok result) :
    ∃ entries, tree.entry? location = some (.folder entries) := by
  rw [walk] at h
  cases he : tree.entry? location with
  | none => simp [he] at h
  | some entry =>
    cases entry with
    | file data => simp [he] at h
    | folder entries => exact ⟨entries, rfl⟩

/-- A step from a folder stays, goes up, or goes down to what stands there. -/
theorem walk_cons {entries : Fields Entry} (h : tree.entry? location = some (.folder entries))
    (name : String) (rest : List String) : tree.walk location (name :: rest) =
      if name = "" ∨ name = "." then tree.walk location rest
      else if name = ".." then tree.walk location.outer rest
      else if name.utf8ByteSize > nameLimit then .error .nameTooLong
      else tree.walk (location.child name (Fields.get? entries name)) rest := by
  rw [walk, h]

/-- A walk that succeeds comes to the same place without the pieces that name nothing. -/
theorem walk_named {names : List String} (h : tree.walk location names = .ok result) :
    tree.walk location (named names) = .ok result := by
  induction names generalizing location with
  | nil => exact h
  | cons name rest ih =>
    obtain ⟨entries, he⟩ := exists_folder_of_walk_cons h
    rw [walk_cons he] at h
    by_cases hn : name = "" ∨ name = "."
    · rw [if_pos hn] at h
      rw [Path.named_cons_of_eq hn]
      exact ih h
    · rw [if_neg hn] at h
      rw [not_or] at hn
      rw [Path.named_cons_of_ne hn.1 hn.2, walk_cons he, if_neg (not_or.mpr hn)]
      split_ifs at h ⊢ with hup hlong
      · exact ih h
      · exact ih h

/-! ### Paths of any length -/

/-- Where a path leads, however long it is. -/
def locateAnyLength (tree : FileTree) (path : Path) : Except FileError Location :=
  if path.text.toList.contains (Char.ofNat 0) then .error .badName
  else if path.text.isEmpty then .error .missing
  else
    let names := Text.cut '/' path.text
    if path.isAbsolute then tree.walk .above names.tail else tree.walk (.inside []) names

/-- The text of a file, however long its path is. -/
def readAnyLength (tree : FileTree) (path : Path) : Except FileError String := do
  match tree.entry? (← tree.locateAnyLength path) with
  | some (.file (.text content)) => return content
  | some (.file .bytes) => .error .notText
  | some (.folder _) => .error .isFolder
  | none => .error .missing

theorem locate_of_short {path : Path} (h : path.text.utf8ByteSize < pathLimit) :
    tree.locate path = tree.locateAnyLength path := by
  rw [locate, locateAnyLength, if_neg (Nat.not_le.mpr h)]

theorem locate_of_long {path : Path} (hn : path.text.toList.contains (Char.ofNat 0) = false)
    (h : pathLimit ≤ path.text.utf8ByteSize) : tree.locate path = .error .nameTooLong := by
  rw [locate, hn, if_neg Bool.false_ne_true, if_pos h]

theorem read_of_short {path : Path} (h : path.text.utf8ByteSize < pathLimit) :
    tree.read path = tree.readAnyLength path := by
  unfold read readAnyLength
  exact congrArg (· >>= _) (locate_of_short h)

/-- A file is read where the path leads to one. -/
theorem readAnyLength_eq_ok_iff {path : Path} {content : String} :
    tree.readAnyLength path = .ok content ↔ ∃ location, tree.locateAnyLength path = .ok location ∧
      tree.entry? location = some (.file (.text content)) := by
  rw [readAnyLength]
  cases tree.locateAnyLength path with
  | error cause => simp [bind, Except.bind]
  | ok location =>
    simp only [bind, Except.bind, Except.ok.injEq, exists_eq_left']
    split
    · rename_i found he
      simp [he, pure, Except.pure]
    · rename_i he
      simp [he]
    · rename_i he
      simp [he]
    · rename_i he
      simp [he]

/-- A path that is not absolute is walked segment by segment. -/
theorem walk_segments {path : Path} (h : tree.locateAnyLength path = .ok location) :
    (if path.segments.head? = some "/" then tree.walk .above path.segments.tail
      else tree.walk (.inside []) path.segments) = .ok location := by
  rw [locateAnyLength] at h
  split_ifs at h with hnul hempty habs
  · rw [Path.segments_of_isAbsolute habs, List.head?_cons, if_pos rfl, List.tail_cons]
    exact walk_named h
  · have ht : path.text ≠ "" := by simpa [String.isEmpty_iff] using hempty
    obtain ⟨first, rest, hf, hc, hs⟩ := Path.segments_of_not_isAbsolute habs ht
    have hslash : first ≠ "/" := by
      rintro rfl
      have hm : "/" ∈ Text.cut '/' path.text := by
        rw [hc]
        exact List.mem_cons_self
      exact Path.not_mem_of_mem_cut hm (List.mem_singleton_self _)
    rw [hs, List.head?_cons, if_neg (by simpa using hslash)]
    rw [hc] at h
    have hw := walk_named h
    -- A dot in front is a segment of its own, and the walk stays where it is.
    by_cases hd : first = "."
    · subst hd
      obtain ⟨entries, he⟩ := exists_folder_of_walk_cons h
      rw [Path.named_cons_of_eq (Or.inr rfl)] at hw
      rw [walk_cons he, if_pos (Or.inr rfl)]
      exact hw
    · rwa [Path.named_cons_of_ne hf hd] at hw

/-- Where a path leads depends on its segments alone. -/
theorem locateAnyLength_congr {path other : Path} (h : path.segments = other.segments)
    (hp : tree.locateAnyLength path = .ok location)
    (ho : tree.locateAnyLength other = .ok result) : location = result := by
  have hp' := walk_segments hp
  rw [h, walk_segments ho] at hp'
  exact (Except.ok.inj hp').symm

/-- Two spellings of a path under which a file can be read have one content. -/
theorem readAnyLength_congr {path other : Path} {content text : String}
    (h : path.segments = other.segments) (hp : tree.readAnyLength path = .ok content)
    (ho : tree.readAnyLength other = .ok text) : content = text := by
  obtain ⟨location, hl, he⟩ := readAnyLength_eq_ok_iff.mp hp
  obtain ⟨result, hl', he'⟩ := readAnyLength_eq_ok_iff.mp ho
  rw [locateAnyLength_congr h hl hl', he'] at he
  simpa using he.symm

end FileTree

end Files

namespace Document

open Files (FileTree Path)

variable {files : FileTree}

/-- The value that a file holds, however long its path is. -/
def loadValueAnyLength (files : FileTree) (path : Path) : Except LoadError Value :=
  match files.readAnyLength path with
  | .ok text => (Format.ofPath path).read Place.value text
  | .error cause => .error (.unreadable path cause)

theorem loadValue_of_short {path : Path} (h : path.text.utf8ByteSize < FileTree.pathLimit) :
    loadValue files path = loadValueAnyLength files path := by
  rw [loadValue, readFile, loadValueAnyLength, FileTree.read_of_short h]
  cases files.readAnyLength path with
  | ok text => rfl
  | error cause => rfl

theorem exists_read_of_loadValueAnyLength {path : Path} {value : Value}
    (h : loadValueAnyLength files path = .ok value) :
    ∃ text, files.readAnyLength path = .ok text := by
  rw [loadValueAnyLength] at h
  cases hr : files.readAnyLength path with
  | ok text => exact ⟨text, rfl⟩
  | error cause => simp [hr] at h

theorem loadValue_of_long {path : Path} {value : Value}
    (h : FileTree.pathLimit ≤ path.text.utf8ByteSize)
    (hv : loadValueAnyLength files path = .ok value) :
    loadValue files path = .error (.unreadable path .nameTooLong) := by
  obtain ⟨text, hr⟩ := exists_read_of_loadValueAnyLength hv
  obtain ⟨location, hl, -⟩ := FileTree.readAnyLength_eq_ok_iff.mp hr
  have hn : path.text.toList.contains (Char.ofNat 0) = false := by
    rw [FileTree.locateAnyLength] at hl
    split_ifs at hl with hnul
    · exact Bool.eq_false_iff.mpr hnul
    · exact Bool.eq_false_iff.mpr hnul
  rw [loadValue, readFile, FileTree.read, FileTree.locate_of_long hn h]
  rfl

/-- What is loaded has a short path. -/
theorem short_of_loadValue {path : Path} {value : Value} (h : loadValue files path = .ok value) :
    path.text.utf8ByteSize < FileTree.pathLimit := by
  by_contra hlong
  rw [loadValue, readFile, FileTree.read, FileTree.locate] at h
  split_ifs at h with hnul hlimit
  · simp [bind, Except.bind] at h
  · simp [bind, Except.bind] at h
  · exact hlimit (Nat.not_lt.mp hlong)
  · exact hlimit (Nat.not_lt.mp hlong)
  · exact hlimit (Nat.not_lt.mp hlong)

/-- A value can be loaded exactly if it could be without the limit and the path is within it. -/
theorem loadValue_eq_ok_iff {path : Path} {value : Value} : loadValue files path = .ok value ↔
    path.text.utf8ByteSize < FileTree.pathLimit ∧ loadValueAnyLength files path = .ok value := by
  constructor
  · intro h
    have hs := short_of_loadValue h
    exact ⟨hs, by rw [← loadValue_of_short hs, h]⟩
  · rintro ⟨hs, h⟩
    rw [loadValue_of_short hs, h]

/-- A file holds one value under all spellings of its path. -/
theorem loadValueAnyLength_congr {path other : Path} {value found : Value}
    (h : path.plainText = other.plainText) (hp : loadValueAnyLength files path = .ok value)
    (ho : loadValueAnyLength files other = .ok found) : value = found := by
  rw [Path.plainText_eq_iff] at h
  obtain ⟨text, hr⟩ := exists_read_of_loadValueAnyLength hp
  obtain ⟨content, hr'⟩ := exists_read_of_loadValueAnyLength ho
  obtain rfl := FileTree.readAnyLength_congr h hr hr'
  -- The extension tells the format, and it depends on the segments alone as well.
  have hformat : Format.ofPath path = Format.ofPath other := by
    rw [Format.ofPath, Format.ofPath, Path.extension?_congr h]
  simp only [loadValueAnyLength, hr, hr'] at hp ho
  rw [hformat, ho] at hp
  exact (Except.ok.inj hp).symm

end Document

end FunctionForge
