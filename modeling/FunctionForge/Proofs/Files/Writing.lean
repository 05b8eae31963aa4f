import FunctionForge.Proofs.Fields
import FunctionForge.Proofs.Files.Reading
import FunctionForge.Proofs.Result

/-!
# What is written stays

Whatever is put into a tree of files, what stood there before is still there, unless it is a file
that was put there anew (`Grown`).  This rests on where a path leads: the walk along it passes
through folders only, so that what it comes to hangs in a folder (`IsTrail`), and since folders stay
folders, a path leads to the same names later on (`locate_of_folders`).  A file that is written can
be read under its path then, and under every path that leads to the same names (`Grown.of_write`).
-/

namespace FunctionForge.Files

/-! ### Putting -/

namespace Entry

/-- Names lead to a folder. -/
def HasFolder (entry : Entry) (names : List String) : Prop :=
  ∃ entries, entry.find? names = some (.folder entries)

/-- An entry has become another one: nothing has changed, or only what is in a folder. -/
def Keeps (before after : Entry) : Prop :=
  after = before ∨ (∃ entries, before = .folder entries) ∧ ∃ entries, after = .folder entries

variable {entry target found : Entry} {names others : List String}

/-- What stands under a longer list of names is looked up step by step. -/
theorem find?_append (entry : Entry) (names others : List String) :
    entry.find? (names ++ others) = (entry.find? names).bind fun inner => inner.find? others := by
  induction names generalizing entry with
  | nil => rfl
  | cons name rest ih => simp only [List.cons_append, find?, ih, Option.bind_assoc]

/-- What is put under names stands there. -/
theorem find?_put (entry target : Entry) (names : List String) :
    (entry.put target names).find? names = some target := by
  induction names generalizing entry with
  | nil => rfl
  | cons name rest ih => simp only [put, find?, entries, Fields.get?_insert, if_true,
      Option.bind_some, ih]

/-- Only in a folder is there something under a name. -/
theorem exists_of_find?_cons {name : String} (h : entry.find? (name :: others) = some found) :
    ∃ entries inner, entry = .folder entries ∧ Fields.get? entries name = some inner ∧
      inner.find? others = some found := by
  cases entry with
  | file data => exact absurd h nofun
  | folder entries =>
    obtain ⟨inner, hinner, hfound⟩ := Option.bind_eq_some_iff.mp h
    exact ⟨entries, inner, rfl, hinner, hfound⟩

/-- What is put into a folder under a name that leads to no folder leaves what stands elsewhere. -/
theorem find?_put_of_ne {name : String} (hparent : entry.HasFolder names)
    (hnone : ¬entry.HasFolder (names ++ [name])) (hne : others ≠ names ++ [name])
    (hfound : entry.find? others = some found) :
    ∃ after, (entry.put target (names ++ [name])).find? others = some after ∧
      found.Keeps after := by
  induction names generalizing entry others with
  | nil =>
    obtain ⟨entries, hentries⟩ := hparent
    obtain rfl := Option.some.inj hentries
    cases others with
    | nil =>
      obtain rfl := Option.some.inj hfound
      exact ⟨_, rfl, Or.inr ⟨⟨entries, rfl⟩, ⟨_, rfl⟩⟩⟩
    | cons other more =>
      obtain ⟨_, inner, ⟨rfl⟩, hinner, hmore⟩ := exists_of_find?_cons hfound
      have hother : other ≠ name := by
        rintro rfl
        cases more with
        | nil => exact hne rfl
        | cons next rest =>
          -- Something stands below, so that there would be a folder.
          obtain ⟨below, -, rfl, -⟩ := exists_of_find?_cons hmore
          refine hnone ⟨below, ?_⟩
          simp [find?, Entry.entries, hinner]
      refine ⟨found, ?_, Or.inl rfl⟩
      simpa [put, find?, Entry.entries, Fields.get?_insert, hother, hinner] using hmore
  | cons first rest ih =>
    obtain ⟨entries, hentries⟩ := hparent
    obtain ⟨_, inner, rfl, hinner, hrest⟩ := exists_of_find?_cons hentries
    cases others with
    | nil =>
      obtain rfl := Option.some.inj hfound
      exact ⟨_, rfl, Or.inr ⟨⟨_, rfl⟩, ⟨_, rfl⟩⟩⟩
    | cons other more =>
      obtain ⟨_, below, ⟨rfl⟩, hbelow, hmore⟩ := exists_of_find?_cons hfound
      by_cases hother : other = first
      · subst hother
        obtain rfl := Option.some.inj (hinner.symm.trans hbelow)
        have hdeeper : ¬inner.HasFolder (rest ++ [name]) := by
          rintro ⟨folder, hfolder⟩
          refine hnone ⟨folder, ?_⟩
          simpa [find?, Entry.entries, hinner] using hfolder
        have hmorene : more ≠ rest ++ [name] := by
          rintro rfl
          exact hne rfl
        obtain ⟨after, hafter, hkeeps⟩ := ih ⟨_, hrest⟩ hdeeper hmorene hmore
        refine ⟨after, ?_, hkeeps⟩
        simpa [put, find?, Entry.entries, Fields.get?_insert, hinner] using hafter
      · refine ⟨found, ?_, Or.inl rfl⟩
        simpa [put, find?, Entry.entries, Fields.get?_insert, hother, hbelow] using hmore

end Entry

/-! ### Locations -/

namespace FileTree

variable {tree grown : FileTree} {location other result : Location} {path : Path}
  {names : List String} {trail : List (String × Option Entry)}

/-- The names along a trail, the first one first. -/
def namesOf (trail : List (String × Option Entry)) : List String :=
  (trail.map Prod.fst).reverse

/-- A trail shows what there is: each entry is what its names lead to, and hangs in a folder. -/
inductive IsTrail (tree : FileTree) : List (String × Option Entry) → Prop
  | nil : IsTrail tree []
  | cons {name : String} {entry : Option Entry} {trail : List (String × Option Entry)}
      (hrest : IsTrail tree trail) (hfolder : tree.root.HasFolder (namesOf trail))
      (hentry : entry = tree.find? (namesOf trail ++ [name])) :
      IsTrail tree ((name, entry) :: trail)

/-- Below the folder of the tree, a location shows what there is. -/
def Shows (tree : FileTree) : Location → Prop
  | .inside trail => IsTrail tree trail
  | .above => True
  | .beyond => True

/-- Two locations have the same names. -/
inductive Matches : Location → Location → Prop
  | inside {trail others : List (String × Option Entry)} (h : namesOf trail = namesOf others) :
      Matches (.inside trail) (.inside others)
  | above : Matches .above .above
  | beyond : Matches .beyond .beyond

theorem Matches.names?_eq (h : Matches location other) : location.names? = other.names? := by
  cases h with
  | inside h => exact congrArg some h
  | above => rfl
  | beyond => rfl

theorem namesOf_cons (name : String) (entry : Option Entry)
    (trail : List (String × Option Entry)) :
    namesOf ((name, entry) :: trail) = namesOf trail ++ [name] := by
  simp [namesOf]

/-- What a walk comes to is what stands under the names that it has passed. -/
theorem IsTrail.entry?_eq (h : IsTrail tree trail) :
    tree.entry? (.inside trail) = tree.find? (namesOf trail) := by
  cases h with
  | nil => rfl
  | cons hrest hfolder hentry => rw [namesOf_cons, ← hentry]; rfl

/-- The folder above a location is shown as it is, too. -/
theorem shows_outer (h : Shows tree location) : Shows tree location.outer := by
  cases location with
  | inside trail =>
    cases h with
    | nil => trivial
    | cons hrest hfolder hentry => exact hrest
  | above => trivial
  | beyond => trivial

/-- Locations of the same names lie in folders of the same names. -/
theorem matches_outer (h : Matches location other) : Matches location.outer other.outer := by
  cases h with
  | @inside trail others h =>
    cases trail with
    | nil =>
      obtain rfl : others = [] := by simpa [namesOf] using h
      exact .above
    | cons step rest =>
      cases others with
      | nil => exact absurd h (by simp [namesOf])
      | cons step' rest' =>
        have hrest : namesOf rest = namesOf rest' := by
          rw [namesOf_cons, namesOf_cons] at h
          exact (List.append_inj' h rfl).1
        exact .inside hrest
  | above => exact .above
  | beyond => exact .above

/-- From a folder, a name leads to what the folder has under it. -/
theorem shows_child {entries : Fields Entry} (h : Shows tree location)
    (hentry : tree.entry? location = some (.folder entries)) (name : String) :
    Shows tree (location.child name (Fields.get? entries name)) := by
  cases location with
  | inside trail =>
    have hfound : tree.find? (namesOf trail) = some (.folder entries) := by
      rw [← IsTrail.entry?_eq h, hentry]
    refine .cons h ⟨entries, hfound⟩ ?_
    rw [find?] at hfound ⊢
    rw [Entry.find?_append, hfound]
    simp [Entry.find?, Entry.entries]
  | above => trivial
  | beyond => trivial

theorem matches_child (h : Matches location other) (name : String) (entry entry' : Option Entry) :
    Matches (location.child name entry) (other.child name entry') := by
  cases h with
  | inside h =>
    refine .inside ?_
    rw [namesOf_cons, namesOf_cons, h]
  | above => exact .beyond
  | beyond => exact .beyond

/-- Where folders have stayed folders, what matches a folder is one. -/
theorem exists_folder_of_matches
    (hfolders : ∀ names, tree.root.HasFolder names → grown.root.HasFolder names)
    (hl : Shows tree location) (ho : Shows grown other) (hm : Matches location other)
    {entries : Fields Entry} (hentry : tree.entry? location = some (.folder entries)) :
    ∃ entries, grown.entry? other = some (.folder entries) := by
  cases hm with
  | inside h =>
    rw [IsTrail.entry?_eq hl] at hentry
    obtain ⟨entries', hentries⟩ := hfolders _ ⟨entries, hentry⟩
    refine ⟨entries', ?_⟩
    rw [IsTrail.entry?_eq ho, ← h]
    exact hentries
  | above => exact ⟨[], rfl⟩
  | beyond => exact absurd hentry nofun

/-- A walk passes through folders only, so that it comes to the same names where they have stayed
folders. -/
theorem walk_of_folders
    (hfolders : ∀ names, tree.root.HasFolder names → grown.root.HasFolder names)
    (hl : Shows tree location) (ho : Shows grown other) (hm : Matches location other)
    (h : tree.walk location names = .ok result) :
    Shows tree result ∧ ∃ result', grown.walk other names = .ok result' ∧
      Shows grown result' ∧ Matches result result' := by
  induction names generalizing location other with
  | nil =>
    obtain rfl := Except.ok.inj h
    exact ⟨hl, other, rfl, ho, hm⟩
  | cons name rest ih =>
    obtain ⟨entries, hentry⟩ := exists_folder_of_walk_cons h
    obtain ⟨entries', hentry'⟩ := exists_folder_of_matches hfolders hl ho hm hentry
    rw [walk_cons hentry] at h
    rw [walk_cons hentry']
    -- Each name stays, goes up or goes down, and the two walks do so together.
    split_ifs at h ⊢ with hdot hup hlong
    · exact ih hl ho hm h
    · exact ih (shows_outer hl) (shows_outer ho) (matches_outer hm) h
    · exact ih (shows_child hl hentry name) (shows_child ho hentry' name)
        (matches_child hm name _ _) h

theorem locate_of_folders
    (hfolders : ∀ names, tree.root.HasFolder names → grown.root.HasFolder names)
    (h : tree.locate path = .ok location) :
    Shows tree location ∧ ∃ location', grown.locate path = .ok location' ∧
      Shows grown location' ∧ Matches location location' := by
  unfold locate at h ⊢
  dsimp only at h ⊢
  split_ifs at h ⊢ with hnul hlong hempty habs
  · have habove (tree : FileTree) : Shows tree .above := trivial
    exact walk_of_folders hfolders (habove tree) (habove grown) .above h
  · have hroot (tree : FileTree) : Shows tree (.inside []) := IsTrail.nil
    exact walk_of_folders hfolders (hroot tree) (hroot grown) (.inside rfl) h

theorem shows_of_locate (h : tree.locate path = .ok location) : Shows tree location :=
  (locate_of_folders (fun _ => id) h).1

/-! ### Trees that have grown -/

/-- A path leads to names below the folder of the tree. -/
def LeadsTo (tree : FileTree) (path : Path) (names : List String) : Prop :=
  ∃ location, tree.locate path = .ok location ∧ location.names? = some names

/-- What may become of a tree when something is put under paths: its folders are folders, and its
files are what they were, unless one of the paths leads to them. -/
structure Grown (tree : FileTree) (paths : List Path) (grown : FileTree) : Prop where
  folder : ∀ names, tree.root.HasFolder names → grown.root.HasFolder names
  file : ∀ names data, tree.find? names = some (.file data) →
    grown.find? names = some (.file data) ∨ ∃ path ∈ paths, grown.LeadsTo path names

/-- Where the folders are kept, a path leads to the names that it led to. -/
theorem LeadsTo.of_folders (h : tree.LeadsTo path names)
    (hfolders : ∀ names, tree.root.HasFolder names → grown.root.HasFolder names) :
    grown.LeadsTo path names := by
  obtain ⟨location, hl, hnames⟩ := h
  obtain ⟨-, location', hl', -, hm⟩ := locate_of_folders hfolders hl
  exact ⟨location', hl', hm.names?_eq ▸ hnames⟩

/-- Where a path leads to nothing below the folder of the tree, it does not later on either. -/
theorem LeadsTo.of_locate (h : grown.LeadsTo path names)
    (hfolders : ∀ names, tree.root.HasFolder names → grown.root.HasFolder names)
    (hl : tree.locate path = .ok location) : location.names? = some names := by
  obtain ⟨location', hl', hnames⟩ := h
  obtain ⟨-, other, ho, -, hm⟩ := locate_of_folders hfolders hl
  obtain rfl := Except.ok.inj (hl'.symm.trans ho)
  rw [hm.names?_eq, hnames]

namespace Grown

variable {paths others : List Path} {last : FileTree}

theorem refl (tree : FileTree) (paths : List Path) : Grown tree paths tree where
  folder := fun _ => id
  file := fun _ _ => Or.inl

/-- What has grown twice has grown, by what was written either time. -/
theorem trans (h : Grown tree paths grown) (hnext : Grown grown others last) :
    Grown tree (paths ++ others) last where
  folder := fun names hn => hnext.folder names (h.folder names hn)
  file := by
    intro names data hfile
    rcases h.file names data hfile with hkept | ⟨path, hm, hlead⟩
    · rcases hnext.file names data hkept with hlast | ⟨path, hm, hlead⟩
      · exact Or.inl hlast
      · exact Or.inr ⟨path, List.mem_append_right _ hm, hlead⟩
    · -- A path that led to the file still leads there.
      exact Or.inr ⟨path, List.mem_append_left _ hm, hlead.of_folders hnext.folder⟩

theorem mono (h : Grown tree paths grown) (hsub : paths ⊆ others) : Grown tree others grown where
  folder := h.folder
  file := fun names data hfile => (h.file names data hfile).imp id fun ⟨path, hm, hlead⟩ =>
    ⟨path, hsub hm, hlead⟩

end Grown

/-! ### Putting something at a location -/

/-- Something that is put where no folder is stands there, and nothing else has changed. -/
theorem find?_putAt (target : Entry) (hl : Shows tree location)
    (hnone : ∀ entries, tree.entry? location ≠ some (.folder entries)) :
    (∀ names, location.names? = some names →
      (tree.putAt location target).find? names = some target) ∧
    ∀ names found, location.names? ≠ some names → tree.find? names = some found →
      ∃ after, (tree.putAt location target).find? names = some after ∧ found.Keeps after := by
  cases location with
  | above => exact ⟨fun names h => absurd h nofun, fun names found _ h => ⟨found, h, Or.inl rfl⟩⟩
  | beyond => exact ⟨fun names h => absurd h nofun, fun names found _ h => ⟨found, h, Or.inl rfl⟩⟩
  | inside trail =>
    cases hl with
    | nil => exact absurd rfl (hnone tree.entries)
    | @cons name entry trail hrest hfolder hentry =>
      have hnames : Location.names? (.inside ((name, entry) :: trail)) =
          some (namesOf trail ++ [name]) := congrArg some (namesOf_cons name entry trail)
      have hroot : (tree.putAt (.inside ((name, entry) :: trail)) target).root =
          tree.root.put target (namesOf trail ++ [name]) := by
        rw [putAt, hnames]
        change (tree.put (namesOf trail ++ [name]) target).root = _
        rw [put, root]
        cases namesOf trail <;> rfl
      -- What is overwritten is no folder, so nothing that stands below it is lost.
      have hnot : ¬tree.root.HasFolder (namesOf trail ++ [name]) := by
        rintro ⟨entries, hfound⟩
        exact hnone entries (hentry.trans hfound)
      constructor
      · intro names h
        obtain rfl := Option.some.inj (hnames.symm.trans h)
        rw [find?, hroot, Entry.find?_put]
      · intro names found hne hfound
        have hother : names ≠ namesOf trail ++ [name] := by
          rintro rfl
          exact hne hnames
        rw [find?, hroot]
        exact Entry.find?_put_of_ne hfolder hnot hother hfound

/-- Folders stay folders if nothing takes the place of one. -/
theorem hasFolder_putAt (target : Entry) (hl : Shows tree location)
    (hnone : ∀ entries, tree.entry? location ≠ some (.folder entries)) {names : List String}
    (h : tree.root.HasFolder names) : (tree.putAt location target).root.HasFolder names := by
  obtain ⟨entries, hfound⟩ := h
  have hne : location.names? ≠ some names := by
    intro hnames
    cases location with
    | inside trail =>
      obtain rfl := Option.some.inj hnames
      exact hnone entries ((IsTrail.entry?_eq hl).trans hfound)
    | above => exact absurd hnames nofun
    | beyond => exact absurd hnames nofun
  obtain ⟨after, hafter, rfl | ⟨-, entries', rfl⟩⟩ :=
    (find?_putAt target hl hnone).2 names _ hne hfound
  · exact ⟨entries, hafter⟩
  · exact ⟨entries', hafter⟩

/-- A file stays unless something is put at its place. -/
theorem file_putAt (target : Entry) (hl : Shows tree location)
    (hnone : ∀ entries, tree.entry? location ≠ some (.folder entries)) {names : List String}
    {data : FileData} (h : tree.find? names = some (.file data)) :
    (tree.putAt location target).find? names = some (.file data) ∨
      location.names? = some names := by
  by_cases hnames : location.names? = some names
  · exact Or.inr hnames
  · obtain ⟨after, hafter, rfl | ⟨⟨entries, hfolder⟩, -⟩⟩ :=
      (find?_putAt target hl hnone).2 names _ hnames h
    · exact Or.inl hafter
    · exact absurd hfolder nofun

/-! ### Writing and creating folders -/

/-- Writing puts the text where the path leads, unless a folder is there. -/
theorem write_eq_ok {content : String} (h : tree.write path content = .ok grown) :
    ∃ location, tree.locate path = .ok location ∧
      (∀ entries, tree.entry? location ≠ some (.folder entries)) ∧
      grown = tree.putAt location (.file (.text content)) := by
  rw [write] at h
  obtain ⟨location, hl, h⟩ := bind_eq_ok.mp h
  refine ⟨location, hl, ?_⟩
  split at h
  · exact absurd h nofun
  · rename_i hnone
    exact ⟨hnone, (Except.ok.inj h).symm⟩

/-- A folder is only created where nothing stands. -/
theorem createFolder_eq_ok (h : tree.createFolder path = .ok grown) :
    ∃ location, tree.locate path = .ok location ∧ tree.entry? location = none ∧
      grown = tree.putAt location (.folder []) := by
  rw [createFolder] at h
  obtain ⟨location, hl, h⟩ := bind_eq_ok.mp h
  refine ⟨location, hl, ?_⟩
  split at h
  · exact absurd h nofun
  · rename_i hnone
    exact ⟨hnone, (Except.ok.inj h).symm⟩

/-- A file that is written stands where its path leads. -/
theorem Grown.of_write {content : String} (h : tree.write path content = .ok grown) :
    Grown tree [path] grown ∧
      ∀ names, grown.LeadsTo path names → grown.find? names = some (.file (.text content)) := by
  obtain ⟨location, hl, hnone, rfl⟩ := write_eq_ok h
  have hshows := shows_of_locate hl
  have hfolders (names : List String) (hf : tree.root.HasFolder names) :=
    hasFolder_putAt (.file (.text content)) hshows hnone hf
  refine ⟨⟨hfolders, fun names data hfile => ?_⟩, fun names hlead => ?_⟩
  · refine (file_putAt _ hshows hnone hfile).imp id fun hnames => ?_
    exact ⟨path, List.mem_singleton_self _, .of_folders ⟨location, hl, hnames⟩ hfolders⟩
  · exact (find?_putAt _ hshows hnone).1 names (hlead.of_locate hfolders hl)

/-- A folder that is created changes no file, for there was nothing in its place. -/
theorem Grown.of_createFolder (h : tree.createFolder path = .ok grown) : Grown tree [] grown := by
  obtain ⟨location, hl, hnone, rfl⟩ := createFolder_eq_ok h
  have hshows := shows_of_locate hl
  have hnot : ∀ entries, tree.entry? location ≠ some (.folder entries) := by
    intro entries
    rw [hnone]
    exact nofun
  refine ⟨fun names hf => hasFolder_putAt _ hshows hnot hf, fun names data hfile => Or.inl ?_⟩
  -- There was nothing at the place of the new folder, so no file was there.
  refine (file_putAt _ hshows hnot hfile).resolve_right fun hnames => ?_
  cases location with
  | inside trail =>
    obtain rfl := Option.some.inj hnames
    rw [IsTrail.entry?_eq hshows] at hnone
    exact absurd (hnone.symm.trans hfile) nofun
  | above => exact absurd hnames nofun
  | beyond => exact absurd hnames nofun

theorem Grown.of_createFoldersWithin (fuel : Nat) (tree : FileTree) (path : Path) :
    Grown tree [] (createFoldersWithin fuel tree path).1 := by
  -- A folder is created at once, or behind the one that it hangs in, or not at all.
  fun_induction createFoldersWithin fuel tree path with
  | case1 | case2 | case4 | case8 => exact .refl _ _
  | case3 _ _ _ _ _ hcreated => exact .of_createFolder hcreated
  | case5 _ _ _ _ _ _ _ _ hparent _ ih | case7 _ _ _ _ _ _ _ hparent _ _ _ ih =>
    rwa [hparent] at ih
  | case6 _ _ _ _ _ _ _ hparent _ hcreated _ ih =>
    rw [hparent] at ih
    exact ih.trans (.of_createFolder hcreated)

theorem Grown.of_createFolders (tree : FileTree) (path : Path) :
    Grown tree [] (tree.createFolders path).1 :=
  .of_createFoldersWithin _ tree path

/-- What is read under a path that leads to names is what stands there. -/
theorem read_of_leadsTo {content : String} (h : tree.LeadsTo path names)
    (hfile : tree.find? names = some (.file (.text content))) : tree.read path = .ok content := by
  obtain ⟨location, hl, hnames⟩ := h
  have hshows := shows_of_locate hl
  cases location with
  | inside trail =>
    obtain rfl := Option.some.inj hnames
    have hentry : tree.entry? (.inside trail) = some (.file (.text content)) := by
      rw [IsTrail.entry?_eq hshows]
      exact hfile
    rw [read, hl]
    simp only [bind, Except.bind, hentry]
    rfl
  | above => cases hnames
  | beyond => cases hnames

end FileTree

end FunctionForge.Files
