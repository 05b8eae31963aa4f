import FunctionForge.Proofs.Document.References
import FunctionForge.Proofs.Document.Traverse
import FunctionForge.Proofs.Files.Relative
import FunctionForge.Proofs.Reference.Run

/-!
# What references lead to

References are read relative to the folder of the file they stand in.  `ReachesAt` says which
references are come to from a document, each with the `Spot` where it stands: the folder that it is
relative to, as the file system finds it, and the file.  There are no more spots than files, and
`Resolvable` says that a schema is found from every one of them.

Bundling does not know where a file is, only a path that has led to it, and joins to the folder of
this path what a reference says.  `Reaches` are the references that it may come to that way, with
the paths.  What they lead to is the same (`StandsAt.target?_eq_some_iff`,
`exists_spot_of_reaches`), but there may be any number of paths.
-/

namespace FunctionForge.Reference.Bundle

open Document (ApiDocument LoadError SchemaOrRef loadValueAnyLength valueAt?)
open Files (FileTree Location Path)

variable {files : FileTree} {folder : Path} {document : ApiDocument} {origin : Origin}
  {path : String}

theorem file?_of_relative (hpart : (parts path).1 ≠ "") (hr : isRemote (parts path).1 = false) :
    file? origin path = .ok (some (origin.folder.join (parts path).1)) := by
  rw [file?, if_neg (by simpa [String.isEmpty_iff] using hpart), hr, if_neg Bool.false_ne_true]

/-! ### Spots -/

/-- Where references stand: in a folder, and in a file of it, or in the document. -/
structure Spot where
  folder : Location
  file : Option Location

/-- Where the references of the file at a location stand. -/
def spotIn (file : Location) : Spot := ⟨file.outer, some file⟩

/-- The location of the file that a reference leads to. -/
def Spot.target? (files : FileTree) (spot : Spot) (path : String) : Option Location :=
  let filePart := (parts path).1
  if filePart.isEmpty then spot.file
  else if isRemote filePart then none
  else (files.relative spot.folder filePart).toOption

/-- The references that are come to from a document in a folder, with the spots where they stand. -/
inductive ReachesAt (files : FileTree) (folder : Location) (document : ApiDocument) :
    Spot → String → Prop
  | start {path : String} (h : path ∈ document.references) :
      ReachesAt files folder document ⟨folder, none⟩ path
  | next {spot : Spot} {path r : String} {file : Location} {value : Value} {schema : SchemaOrRef}
      (h : ReachesAt files folder document spot path) (hf : spot.target? files path = some file)
      (hv : valueAt? file = some value) (hs : schemaAt? value (parts path).2 = some schema)
      (hr : r ∈ schema.references) : ReachesAt files folder document (spotIn file) r

/-- A reference leads into the document or to a schema in a file. -/
def Spot.LeadsOn (files : FileTree) (spot : Spot) (path : String) : Prop :=
  ((parts path).1 = "" ∧ spot.file = none) ∨
    ∃ file value schema, spot.target? files path = some file ∧ valueAt? file = some value ∧
      schemaAt? value (parts path).2 = some schema

/-- The folder of a document is there, and all references that are come to from the document lead
into it or to a schema in a file. -/
def Resolvable (files : FileTree) (folder : Path) (document : ApiDocument) : Prop :=
  ∃ location, files.locateAnyLength folder = .ok location ∧ files.HasFolder location ∧
    ∀ spot path, ReachesAt files location document spot path → spot.LeadsOn files path

/-- The references of the schema that a reference leads to in a file. -/
def referencesAt? (file : Location) (path : String) : Option (List String) :=
  ((valueAt? file).bind fun value => schemaAt? value (parts path).2).map SchemaOrRef.references

theorem referencesAt?_eq_some_iff {file : Location} {refs : List String} :
    referencesAt? file path = some refs ↔ ∃ value schema, valueAt? file = some value ∧
      schemaAt? value (parts path).2 = some schema ∧ schema.references = refs := by
  simp only [referencesAt?, Option.map_eq_some_iff, Option.bind_eq_some_iff]
  constructor
  · rintro ⟨schema, ⟨value, hv, hs⟩, hr⟩
    exact ⟨value, schema, hv, hs, hr⟩
  · rintro ⟨value, schema, hv, hs, hr⟩
    exact ⟨schema, ⟨value, hv, hs⟩, hr⟩

/-- All references lead on if a set of them does so that is not left by following them. -/
theorem resolvable_of_closed {location : Location} {known : Spot → String → Prop}
    (hl : files.locateAnyLength folder = .ok location) (hf : files.HasFolder location)
    (hstart : ∀ path ∈ document.references, known ⟨location, none⟩ path)
    (hnext : ∀ spot path, known spot path → ∃ file refs, spot.target? files path = some file ∧
      referencesAt? file path = some refs ∧ ∀ r ∈ refs, known (spotIn file) r) :
    Resolvable files folder document := by
  refine ⟨location, hl, hf, fun spot path hreach => ?_⟩
  have hknown : known spot path := by
    induction hreach with
    | start hp => exact hstart _ hp
    | next _ hfile hv hs hr ih =>
      obtain ⟨file, refs, hfile', hrefs, hall⟩ := hnext _ _ ih
      obtain ⟨value, schema, hv', hs', rfl⟩ := referencesAt?_eq_some_iff.mp hrefs
      obtain rfl := Option.some.inj (hfile.symm.trans hfile')
      obtain rfl := Option.some.inj (hv.symm.trans hv')
      obtain rfl := Option.some.inj (hs.symm.trans hs')
      exact hall _ hr
  obtain ⟨file, refs, hfile, hrefs, -⟩ := hnext spot path hknown
  obtain ⟨value, schema, hv, hs, -⟩ := referencesAt?_eq_some_iff.mp hrefs
  exact Or.inr ⟨file, value, schema, hfile, hv, hs⟩

/-! ### Paths -/

/-- The references that bundling a document may come to, with the origins by which it knows where
they stand. -/
inductive Reaches (load : Path → Except LoadError Value) (folder : Path) (document : ApiDocument) :
    Origin → String → Prop
  | start {path : String} (h : path ∈ document.references) :
      Reaches load folder document (documentOrigin folder) path
  | next {origin : Origin} {path r : String} {file : Path} {value : Value} {schema : SchemaOrRef}
      (h : Reaches load folder document origin path) (hf : file? origin path = .ok (some file))
      (hv : load file = .ok value) (hs : schemaAt? value (parts path).2 = some schema)
      (hr : r ∈ schema.references) : Reaches load folder document (originIn file) r

/-- The paths of the files that bundling a document may come to. -/
def ReachesFile (load : Path → Except LoadError Value) (folder : Path) (document : ApiDocument)
    (file : Path) : Prop :=
  ∃ origin path, Reaches load folder document origin path ∧ file? origin path = .ok (some file)

/-- All references that bundling may come to lead into the document or to a schema in a file. -/
def Followable (load : Path → Except LoadError Value) (folder : Path) (document : ApiDocument) :
    Prop :=
  ∀ origin path, Reaches load folder document origin path → file? origin path = .ok none ∨
    ∃ file value schema, file? origin path = .ok (some file) ∧ load file = .ok value ∧
      schemaAt? value (parts path).2 = some schema

/-! ### Paths and spots -/

/-- The paths of an origin lead to the locations of a spot. -/
structure StandsAt (files : FileTree) (origin : Origin) (spot : Spot) : Prop where
  nul : FileTree.nul ∉ origin.folder.text.toList
  route : files.route origin.folder = .ok spot.folder
  folder : files.HasFolder spot.folder
  file : Option.Rel (fun file location => files.locateAnyLength file = .ok location) origin.file
    spot.file

/-- A reference leads to the same file from an origin and from its spot. -/
theorem StandsAt.target?_eq_some_iff {spot : Spot} (h : StandsAt files origin spot)
    {location : Location} : spot.target? files path = some location ↔
      ∃ file, file? origin path = .ok (some file) ∧ files.locateAnyLength file = .ok location := by
  obtain ⟨folder, file⟩ := origin
  obtain ⟨start, self⟩ := spot
  obtain ⟨hn, hr, hf, hfile⟩ := h
  rw [Spot.target?, file?]
  -- A reference stays in its own file, leads elsewhere than to a file, or is a path from the
  -- folder.
  split_ifs with hempty hremote
  · cases hfile with
    | none => exact ⟨nofun, fun ⟨_, hne, _⟩ => absurd hne nofun⟩
    | some hl =>
      constructor
      · intro heq
        obtain rfl := Option.some.inj heq
        exact ⟨_, rfl, hl⟩
      · rintro ⟨file, heq, hl'⟩
        obtain rfl := Option.some.inj (Except.ok.inj heq)
        rw [Except.ok.inj (hl.symm.trans hl')]
  · exact ⟨nofun, fun ⟨_, hne, _⟩ => absurd hne nofun⟩
  · have hpart : (parts path).1 ≠ "" := by simpa [String.isEmpty_iff] using hempty
    have hjoin := @FileTree.locateAnyLength_join_eq_ok_iff files location folder _ _ hn hr hf hpart
    have htoOption : (files.relative start (parts path).1).toOption = some location ↔
        files.relative start (parts path).1 = .ok location := by
      cases files.relative start (parts path).1 with
      | error cause => exact ⟨nofun, nofun⟩
      | ok found =>
        exact ⟨fun h => congrArg _ (Option.some.inj h), fun h => congrArg _ (Except.ok.inj h)⟩
    rw [htoOption, ← hjoin]
    constructor
    · exact fun hl => ⟨_, rfl, hl⟩
    · rintro ⟨file, heq, hl⟩
      rwa [Option.some.inj (Except.ok.inj heq)]

theorem standsAt_documentOrigin {location : Location}
    (hl : files.locateAnyLength folder = .ok location) (hf : files.HasFolder location) :
    StandsAt files (documentOrigin folder) ⟨location, none⟩ := by
  obtain ⟨hn, -, hr⟩ := FileTree.locateAnyLength_eq_ok_iff.mp hl
  exact ⟨hn, hr, hf, .none⟩

theorem standsAt_originIn {file : Path} {location : Location} {value : Value}
    (hl : files.locateAnyLength file = .ok location) (hv : valueAt? location = some value) :
    StandsAt files (originIn file) (spotIn location) := by
  obtain ⟨hn, -, hr⟩ := FileTree.locateAnyLength_eq_ok_iff.mp hl
  have hfile : ∃ data, files.entry? location = some (.file data) := by
    unfold valueAt? at hv
    split at hv
    · exact ⟨_, rfl⟩
    · exact absurd hv nofun
  obtain ⟨data, he⟩ := hfile
  obtain ⟨name, trail, rfl, -, hparent, hfolder⟩ := FileTree.exists_file_of_route hr he
  exact ⟨FileTree.nul_not_mem_parent hn, hparent, hfolder, .some hl⟩

/-- What bundling comes to under some paths is come to at the spot to which they lead. -/
theorem exists_spot_of_reaches {location : Location}
    (hl : files.locateAnyLength folder = .ok location) (hf : files.HasFolder location)
    (h : Reaches (loadValueAnyLength files) folder document origin path) :
    ∃ spot, StandsAt files origin spot ∧ ReachesAt files location document spot path := by
  induction h with
  | start hp => exact ⟨_, standsAt_documentOrigin hl hf, .start hp⟩
  | next _ hfile hv hs hr ih =>
    obtain ⟨spot, hstands, hreach⟩ := ih
    obtain ⟨target, htarget, hvalue⟩ := Document.loadValueAnyLength_eq_ok_iff.mp hv
    have hspot := hstands.target?_eq_some_iff.mpr ⟨_, hfile, htarget⟩
    exact ⟨_, standsAt_originIn htarget hvalue, .next hreach hspot hvalue hs hr⟩

/-- If all references lead to a schema from their spots, they do so under all paths. -/
theorem followable_of_resolvable (h : Resolvable files folder document) :
    Followable (loadValueAnyLength files) folder document := by
  intro origin path hreach
  obtain ⟨location, hl, hf, hall⟩ := h
  obtain ⟨spot, hstands, hat⟩ := exists_spot_of_reaches hl hf hreach
  -- Either the reference stays inside the document, or a schema is found where it leads.
  rcases hall spot path hat with ⟨hpart, hnone⟩ | ⟨target, value, schema, htarget, hvalue, hs⟩
  · left
    have hfile := hstands.file
    rw [hnone] at hfile
    rw [file?, hpart]
    cases ho : origin.file with
    | none => rfl
    | some file =>
      rw [ho] at hfile
      exact absurd hfile nofun
  · right
    obtain ⟨file, hfile, hlocate⟩ := hstands.target?_eq_some_iff.mp htarget
    exact ⟨file, value, schema, hfile,
      Document.loadValueAnyLength_eq_ok_iff.mpr ⟨target, hlocate, hvalue⟩, hs⟩

/-- What a reference says takes the place of the last segment of its file's path. -/
theorem length_segments_of_file? {file next : Path}
    (hf : file? (originIn file) path = .ok (some next)) (hlen : 2 ≤ file.segments.length)
    (hpart : (parts path).1 ≠ "") (habs : ¬(Files.Path.mk (parts path).1).isAbsolute = true) :
    next.segments.length + 1 =
      file.segments.length + (Path.named (Text.cut '/' (parts path).1)).length := by
  have hparent : (file.parent?.getD .here).segments = file.segments.dropLast := by
    rw [Path.segments_parent, if_neg]
    rintro (h | h)
    · rw [h] at hlen
      exact absurd hlen (by decide)
    · rw [h] at hlen
      exact absurd hlen (by decide)
  have hne : file.segments.dropLast ≠ [] := by
    intro h
    have := congrArg List.length h
    rw [List.length_dropLast, List.length_nil] at this
    omega
  rw [file?] at hf
  split_ifs at hf with hempty
  · exact absurd (by simpa [String.isEmpty_iff] using hempty) hpart
  · obtain rfl := Option.some.inj (Except.ok.inj hf)
    rw [originIn, Path.segments_join, hparent, if_neg (not_or.mpr ⟨habs, hne⟩), List.length_append,
      List.length_dropLast]
    omega

theorem references_of_load {file : Path} {location : Location} {refs : List String} {value : Value}
    {schema : SchemaOrRef} (hl : files.locateAnyLength file = .ok location)
    (hr : referencesAt? location path = some refs) (hv : loadValueAnyLength files file = .ok value)
    (hs : schemaAt? value (parts path).2 = some schema) : schema.references = refs := by
  obtain ⟨location', hl', hv'⟩ := Document.loadValueAnyLength_eq_ok_iff.mp hv
  obtain rfl := Except.ok.inj (hl.symm.trans hl')
  obtain ⟨value', schema', hfound, hs', rfl⟩ := referencesAt?_eq_some_iff.mp hr
  obtain rfl := Option.some.inj (hv'.symm.trans hfound)
  rw [Option.some.inj (hs.symm.trans hs')]

/-- Bundling goes on from a file to what a reference in it leads to, under a new path. -/
theorem Reaches.advance {file : Path} {location target : Location} {r : String} {value : Value}
    (h : Reaches (loadValueAnyLength files) folder document (originIn file) path)
    (hl : files.locateAnyLength file = .ok location) (hv : valueAt? location = some value)
    (ht : (spotIn location).target? files path = some target)
    (hr : referencesAt? target path = some [r]) :
    ∃ next, file? (originIn file) path = .ok (some next) ∧
      files.locateAnyLength next = .ok target ∧
      Reaches (loadValueAnyLength files) folder document (originIn next) r := by
  obtain ⟨next, hf, hn⟩ := (standsAt_originIn hl hv).target?_eq_some_iff.mp ht
  obtain ⟨found, schema, hfound, hs, hrefs⟩ := referencesAt?_eq_some_iff.mp hr
  have hload := Document.loadValueAnyLength_eq_ok_iff.mpr ⟨target, hn, hfound⟩
  refine ⟨next, hf, hn, .next h hf hload hs ?_⟩
  rw [hrefs]
  exact List.mem_singleton_self r

end FunctionForge.Reference.Bundle
