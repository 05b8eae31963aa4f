import FunctionForge.Proofs.Reference.Opened
import FunctionForge.Proofs.Reference.Reached
import FunctionForge.Proofs.Reference.Shadowing
import FunctionForge.Proofs.Reference.Termination

/-!
# Files that refer to each other

If all references that are come to from a document lead to a schema, bundling comes to an end,
however the files refer to each other, and either succeeds or stops at a path that is too long
(`bundling_of_resolvable`).

The latter happens although the files are finitely many: a reference is joined to the text of the
folder that its file was reached by, and what has been imported is remembered by the joined path, so
files in sibling folders that refer to each other through `../` are imported again under ever longer
paths (`not_bundlesSchemas_siblings`).  Bundling succeeds exactly if none of the paths
is too long under which it would open a file without a limit (`bundlesSchemas_iff_of_opens`), so
every file that is reached needs a path within the limit.
-/

namespace FunctionForge.Reference

open Document (ApiDocument LoadError SchemaOrRef loadValue loadValueAnyLength valueAt?)
open Files (Entry FileTree Location Path)

namespace Bundle

variable {files : FileTree} {folder : Path} {document : ApiDocument} {origin : Origin}
  {path : String} {st st' : Bundling}

/-- One value is found under all spellings of a path, long or short. -/
theorem eq_of_holds {file : Path} {value found : Value}
    (hv : loadValueAnyLength files file = .ok value)
    (hfound : Holds (loadValue files) file.plainText found) : found = value := by
  obtain ⟨spelling, hplain, hload⟩ := hfound
  exact Document.loadValueAnyLength_congr hplain (Document.loadValue_eq_ok_iff.mp hload).2 hv

theorem exists_importName {file : Path} {value : Value} (path : String)
    (hv : loadValueAnyLength files file = .ok value) : ∃ name, importName path file = .ok name := by
  obtain ⟨text, ht⟩ := Document.exists_read_of_loadValueAnyLength hv
  obtain ⟨stem, hs⟩ := Option.isSome_iff_exists.mp (FileTree.isSome_stem?_of_read ht)
  rw [importName]
  cases lastName? (parts path).2 with
  | none => exact ⟨stem, by rw [Option.none_or, hs]⟩
  | some name => exact ⟨name, rfl⟩

/-! ### Failures -/

/-- Where all references lead to a schema, only the length of a path can keep a reference from being
looked at, and what is found there is what the reference leads to. -/
theorem entered_of_followable (h : Followable (loadValueAnyLength files) folder document)
    (hreach : Reaches (loadValueAnyLength files) folder document origin path)
    {r : Except ResolveError (Option Arrival)}
    (he : Entered (loadValue files) origin path st r st') :
    match r with
    | .ok none => True
    | .ok (some arrival) => ∀ r ∈ arrival.schema.references,
        Reaches (loadValueAnyLength files) folder document (originIn arrival.file) r
    | .error cause => ∃ file, Reads origin path st file ∧
        ReachesFile (loadValueAnyLength files) folder document file ∧
        FileTree.pathLimit ≤ file.text.utf8ByteSize ∧
        cause = .external (.unreadable file .nameTooLong) := by
  rcases h origin path hreach with hnone | ⟨file, value, schema, hf, hv, hs⟩
  · cases he with
    | inside _ => trivial
    | known _ _ _ => trivial
    | arrived hf' _ _ _ _ => exact absurd (hnone.symm.trans hf') nofun
    | refused hf' => exact absurd (hnone.symm.trans hf') nofun
    | unnamed hf' _ => exact absurd (hnone.symm.trans hf') nofun
    | unloadable hf' _ _ _ _ => exact absurd (hnone.symm.trans hf') nofun
    | astray hf' _ _ _ _ => exact absurd (hnone.symm.trans hf') nofun
  -- There is a schema where the reference leads, so nothing else than the path can be in the way.
  · cases he with
    | inside _ => trivial
    | known _ _ _ => trivial
    | arrived hf' hn hk hv' hs' =>
      obtain rfl := Option.some.inj (Except.ok.inj (hf.symm.trans hf'))
      obtain rfl := eq_of_holds hv hv'
      obtain rfl := Option.some.inj (hs.symm.trans hs')
      exact fun r hr => .next hreach hf hv hs hr
    | refused hf' => exact absurd (hf.symm.trans hf') nofun
    | unnamed hf' hn =>
      obtain rfl := Option.some.inj (Except.ok.inj (hf.symm.trans hf'))
      obtain ⟨name, hname⟩ := exists_importName path hv
      exact absurd (hname.symm.trans hn) nofun
    | unloadable hf' hn hk hd hv' =>
      obtain rfl := Option.some.inj (Except.ok.inj (hf.symm.trans hf'))
      have hlong : FileTree.pathLimit ≤ file.text.utf8ByteSize := by
        by_contra hshort
        rw [Document.loadValue_of_short (Nat.not_le.mp hshort), hv] at hv'
        exact absurd hv' nofun
      refine ⟨file, ⟨hf, ⟨_, hn⟩, hk, hd⟩, ⟨origin, path, hreach, hf⟩, hlong, ?_⟩
      rw [Document.loadValue_of_long hlong hv] at hv'
      rw [← Except.error.inj hv']
    | astray hf' hn hk hv' hs' =>
      obtain rfl := Option.some.inj (Except.ok.inj (hf.symm.trans hf'))
      obtain rfl := eq_of_holds hv hv'
      exact absurd (hs.symm.trans hs') nofun

/-- Where all references lead to a schema, a run of visits only fails where it opens a file under a
path that is too long. -/
theorem Visited.error_of_followable (h : Followable (loadValueAnyLength files) folder document)
    {refs : List String} {r : Except ResolveError Unit}
    (hv : Visited (loadValue files) origin refs st r st') (hr : Remembers (loadValue files) st)
    (hrefs : ∀ path ∈ refs, Reaches (loadValueAnyLength files) folder document origin path)
    {cause : ResolveError} (hcause : r = .error cause) :
    ∃ file, Opens (loadValue files) origin refs st file ∧
      ReachesFile (loadValueAnyLength files) folder document file ∧
      FileTree.pathLimit ≤ file.text.utf8ByteSize ∧
      cause = .external (.unreadable file .nameTooLong) := by
  induction hv with
  | nil => exact absurd hcause nofun
  | settled hex _ ih =>
    obtain ⟨hen, -⟩ := entered_of_exec hr hex
    obtain ⟨rfl, -⟩ := settled_of_entered hen
    obtain ⟨file, ho, hrest⟩ := ih hr
      (fun other hm => hrefs other (List.mem_cons_of_mem _ hm)) hcause
    exact ⟨file, .past hex ho, hrest⟩
  -- Everything that is reached can be followed, so only the length of a path is left to fail.
  | refused hex =>
    obtain ⟨hen, -⟩ := entered_of_exec hr hex
    rw [← Except.error.inj hcause]
    obtain ⟨file, hreads, hrest⟩ := entered_of_followable h (hrefs _ List.mem_cons_self) hen
    exact ⟨file, .here hreads, hrest⟩
  | imported hex hi _ _ ih =>
    obtain ⟨hen, hr₁⟩ := entered_of_exec hr hex
    obtain ⟨hp, hs⟩ := Visited.progress hi hr₁
    obtain ⟨hprogress, -⟩ := progress_of_arrived hen hp hs
    obtain ⟨file, ho, hrest⟩ := ih hprogress.remembers
      (fun other hm => hrefs other (List.mem_cons_of_mem _ hm)) hcause
    exact ⟨file, .after hex hi ho, hrest⟩
  | failed hex _ ih =>
    obtain ⟨hen, hr₁⟩ := entered_of_exec hr hex
    obtain ⟨file, ho, hrest⟩ := ih hr₁ (entered_of_followable h (hrefs _ List.mem_cons_self) hen)
      hcause
    exact ⟨file, .into hex ho, hrest⟩

/-! ### Successes -/

/-- A run without an error settles all references that it may come to. -/
theorem settled_of_reaches
    (hb : (Resolver.fresh folder).Bundles (loadValue files) document (.ok ()) st)
    (h : Reaches (loadValueAnyLength files) folder document origin path) :
    Settled origin path st := by
  induction h with
  | start hp => exact hb.imported.2.2 _ hp
  | @next origin path r file value schema _ hf hv hs hr ih =>
    rcases ih with hnone | ⟨found, name, hf', hn, hk⟩
    · exact absurd (hf.symm.trans hnone) nofun
    · obtain rfl := Option.some.inj (Except.ok.inj (hf.symm.trans hf'))
      -- What is imported was read under a path of the same segments, so it is the same schema.
      obtain ⟨arrival, ha, -⟩ := hb.imported.1 _ hk
      obtain ⟨value', hv', hs'⟩ := ha.schema
      obtain rfl := eq_of_holds hv hv'
      obtain rfl := Option.some.inj (hs.symm.trans hs')
      exact (ha.settled r hr).congr (Path.plainText_eq_iff.mp ha.file)

/-- A run without an error comes to every file under a path within the limit. -/
theorem exists_short_of_reachesFile
    (hb : (Resolver.fresh folder).Bundles (loadValue files) document (.ok ()) st) {file : Path}
    (h : ReachesFile (loadValueAnyLength files) folder document file) :
    ∃ spelling : Path, spelling.plainText = file.plainText ∧
      spelling.text.utf8ByteSize < FileTree.pathLimit := by
  obtain ⟨origin, path, hreach, hf⟩ := h
  rcases settled_of_reaches hb hreach with hnone | ⟨found, name, hf', -, hk⟩
  · exact absurd (hf.symm.trans hnone) nofun
  · obtain rfl := Option.some.inj (Except.ok.inj (hf.symm.trans hf'))
    obtain ⟨arrival, ha, -⟩ := hb.imported.1 _ hk
    obtain ⟨value, ⟨spelling, hplain, hload⟩, -⟩ := ha.schema
    exact ⟨spelling, hplain, Document.short_of_loadValue hload⟩

end Bundle

namespace Resolver

open Reference.Bundle

variable {files : FileTree} {folder : Path} {document : ApiDocument}

/-- Every run of visits on a document comes to an end. -/
theorem exists_bundles (files : FileTree) (folder : Path) (document : ApiDocument) :
    ∃ r st, (Resolver.fresh folder).Bundles (loadValue files) document r st :=
  exists_visited (finite_loadable files) (fun _ _ h => absurd h nofun) fun _ hp => Or.inl hp

/-- Bundling the schemas of a document succeeds if imports may be nested deep enough. -/
def BundlesSchemas (resolver : Resolver) (load : Path → Except LoadError Value)
    (document : ApiDocument) : Prop :=
  ∃ limit bundled st, exec (bundleSchemas load limit document) ⟨resolver, [], []⟩ =
    some (.ok bundled, st)

theorem bundlesSchemas_iff {resolver : Resolver} {load : Path → Except LoadError Value} :
    resolver.BundlesSchemas load document ↔ ∃ st, resolver.Bundles load document (.ok ()) st := by
  constructor
  · rintro ⟨limit, bundled, st, h⟩
    cases hx : exec (forM document.references (visit load limit (documentOrigin resolver.folder)))
        ⟨resolver, [], []⟩ with
    | none => exact absurd ((exec_bundleSchemas_of_none hx).symm.trans h) nofun
    | some outcome =>
      obtain ⟨r, st'⟩ := outcome
      cases r with
      | error cause => exact absurd ((exec_bundleSchemas_of_error hx).symm.trans h) nofun
      | ok done => exact ⟨st', visited_of_exec hx⟩
  · rintro ⟨st, hb⟩
    obtain ⟨bound, hx⟩ := exec_of_visited hb
    obtain ⟨notices, h⟩ := exec_bundleSchemas_of_ok (hx bound le_rfl)
    exact ⟨bound, _, _, h⟩

/-- Resolving a document comes to an end for all bounds that are large enough. -/
theorem exists_bound (files : FileTree) (folder : Path) (document : ApiDocument) :
    ∃ bound, ∀ limit, bound ≤ limit → (((Resolver.fresh folder).resolveWithin (loadValue files)
      document limit).isSome = true) := by
  obtain ⟨r, st, hb⟩ := exists_bundles files folder document
  obtain ⟨bound, hx⟩ := exec_of_visited hb
  refine ⟨bound, fun limit hl => ?_⟩
  obtain ⟨resolved, hw, -⟩ := resolveWithin_of_exec (hx limit hl)
  rw [hw, Option.isSome_some]

/-- Where all references lead to a schema, bundling only fails where it opens a file under a path
that is too long. -/
theorem error_of_not_bundlesSchemas (h : Followable (loadValueAnyLength files) folder document)
    (hnot : ¬(Resolver.fresh folder).BundlesSchemas (loadValue files) document) :
    ∃ file, (Resolver.fresh folder).Opens (loadValue files) document file ∧
      ReachesFile (loadValueAnyLength files) folder document file ∧
      FileTree.pathLimit ≤ file.text.utf8ByteSize ∧
      ((Resolver.fresh folder).resolve (loadValue files) document).result =
        .error (.external (.unreadable file .nameTooLong)) := by
  obtain ⟨r, st, hb⟩ := exists_bundles files folder document
  cases r with
  | ok done => exact absurd (bundlesSchemas_iff.mpr ⟨st, hb⟩) hnot
  | error cause =>
    obtain ⟨file, hopens, hfile, hlong, rfl⟩ := Visited.error_of_followable h hb
      (fun _ _ h => absurd h nofun) (fun _ hp => .start hp) rfl
    exact ⟨file, hopens, hfile, hlong, (resolve_of_bundles hb).1⟩

/-- If bundling succeeds, no path that it would open is too long where paths have no limit. -/
theorem short_of_opens {file : Path}
    (hok : (Resolver.fresh folder).BundlesSchemas (loadValue files) document)
    (hopens : (Resolver.fresh folder).Opens (loadValueAnyLength files) document file) :
    file.text.utf8ByteSize < FileTree.pathLimit := by
  obtain ⟨st, hb⟩ := bundlesSchemas_iff.mp hok
  have hagree : Agree (loadValue files) (loadValueAnyLength files) (documentOrigin folder)
      document.references ⟨Resolver.fresh folder, [], []⟩ := by
    intro opened ho
    obtain ⟨value, hv⟩ := ho.exists_value hb
    exact Document.loadValue_of_short (Document.short_of_loadValue hv)
  -- The limit makes no difference to the run, so the run without it opens no other files.
  obtain ⟨value, hv⟩ := (Bundle.Opens.of_agree hopens hagree).exists_value hb
  exact Document.short_of_loadValue hv

/-- Where all references lead to a schema, bundling succeeds exactly if all paths are within the
limit under which it would open a file without one. -/
theorem bundlesSchemas_iff_of_opens (h : Followable (loadValueAnyLength files) folder document) :
    (Resolver.fresh folder).BundlesSchemas (loadValue files) document ↔
      ∀ file, (Resolver.fresh folder).Opens (loadValueAnyLength files) document file →
        file.text.utf8ByteSize < FileTree.pathLimit := by
  refine ⟨fun hok file hopens => short_of_opens hok hopens, fun hshort => ?_⟩
  by_contra hnot
  obtain ⟨file, hopens, -, hlong, -⟩ := error_of_not_bundlesSchemas h hnot
  have hagree : Agree (loadValueAnyLength files) (loadValue files) (documentOrigin folder)
      document.references ⟨Resolver.fresh folder, [], []⟩ := fun opened ho =>
    (Document.loadValue_of_short (hshort opened ho)).symm
  exact absurd (hshort file (Bundle.Opens.of_agree hopens hagree)) (Nat.not_lt.mpr hlong)

theorem bundlesSchemas_of_short (h : Followable (loadValueAnyLength files) folder document)
    (hshort : ∀ file, ReachesFile (loadValueAnyLength files) folder document file →
      file.text.utf8ByteSize < FileTree.pathLimit) :
    (Resolver.fresh folder).BundlesSchemas (loadValue files) document := by
  by_contra hnot
  obtain ⟨file, -, hfile, hlong, -⟩ := error_of_not_bundlesSchemas h hnot
  exact absurd (hshort file hfile) (Nat.not_lt.mpr hlong)

/-- Bundling only succeeds if every file that is reached has a path within the limit. -/
theorem exists_short_of_bundlesSchemas
    (hok : (Resolver.fresh folder).BundlesSchemas (loadValue files) document) {file : Path}
    (hfile : ReachesFile (loadValueAnyLength files) folder document file) :
    ∃ spelling : Path, spelling.plainText = file.plainText ∧
      spelling.text.utf8ByteSize < FileTree.pathLimit := by
  obtain ⟨st, hb⟩ := bundlesSchemas_iff.mp hok
  exact exists_short_of_reachesFile hb hfile

/-- Where all references that are come to lead to a schema, bundling comes to an end.  It succeeds
exactly if no path is too long under which it would open a file in a file system that takes all
paths.  It does so if no file is reached under a path that is too long, and only if every file that
is reached has a path of the same plain text within the limit.  If it does not succeed, a path that
is too long is the error. -/
theorem bundling_of_resolvable (h : Resolvable files folder document) :
    (∃ bound, ∀ limit, bound ≤ limit → (((Resolver.fresh folder).resolveWithin (loadValue files)
      document limit).isSome = true)) ∧
    ((Resolver.fresh folder).BundlesSchemas (loadValue files) document ↔
      ∀ file, (Resolver.fresh folder).Opens (loadValueAnyLength files) document file →
        file.text.utf8ByteSize < FileTree.pathLimit) ∧
    ((∀ file, ReachesFile (loadValueAnyLength files) folder document file →
      file.text.utf8ByteSize < FileTree.pathLimit) →
        (Resolver.fresh folder).BundlesSchemas (loadValue files) document) ∧
    ((Resolver.fresh folder).BundlesSchemas (loadValue files) document →
      ∀ file, ReachesFile (loadValueAnyLength files) folder document file →
        ∃ spelling : Path, spelling.plainText = file.plainText ∧
          spelling.text.utf8ByteSize < FileTree.pathLimit) ∧
    (¬(Resolver.fresh folder).BundlesSchemas (loadValue files) document →
      ∃ file, ReachesFile (loadValueAnyLength files) folder document file ∧
        FileTree.pathLimit ≤ file.text.utf8ByteSize ∧
        ((Resolver.fresh folder).resolve (loadValue files) document).result =
          .error (.external (.unreadable file .nameTooLong))) := by
  have hfollow := followable_of_resolvable h
  refine ⟨exists_bound files folder document, bundlesSchemas_iff_of_opens hfollow,
    bundlesSchemas_of_short hfollow, fun hok _ => exists_short_of_bundlesSchemas hok,
    fun hnot => ?_⟩
  obtain ⟨file, -, herror⟩ := error_of_not_bundlesSchemas hfollow hnot
  exact ⟨file, herror⟩

/-! ### Owners and their pets -/

/-- A description with one property, which is described elsewhere. -/
def describing (property target : String) : Entry :=
  .file (.text ("properties: \x7b" ++ property ++ ": \x7b$ref: " ++ target ++ "\x7d\x7d\n"))

/-- A document with one component, which refers to the description of an owner. -/
def ownerDocument (path : String) : ApiDocument where
  openapi := "3.0.3"
  info := ⟨"Kennel", none, "1"⟩
  paths := none
  components := some { Document.Components.none with schemas := [("Kennel", .ref path)] }

/-- An owner and a pet are described in two files that refer to each other. -/
structure Mutual (tree : FileTree) (path toPet toOwner : String) (owner pet : Location) : Prop where
  enters : Spot.target? tree ⟨.inside [], none⟩ path = some owner
  leaves : Spot.target? tree (spotIn owner) toPet = some pet
  returns : Spot.target? tree (spotIn pet) toOwner = some owner
  entered : referencesAt? owner path = some [toPet]
  left : referencesAt? pet toPet = some [toOwner]
  returned : referencesAt? owner toOwner = some [toPet]

theorem Mutual.resolvable {tree : FileTree} {path toPet toOwner : String} {owner pet : Location}
    (h : Mutual tree path toPet toOwner owner pet) :
    Resolvable tree .here (ownerDocument path) := by
  refine @resolvable_of_closed tree .here (ownerDocument path) (.inside [])
    (fun spot r => (spot = ⟨.inside [], none⟩ ∧ r = path) ∨ (spot = spotIn owner ∧ r = toPet) ∨
      (spot = spotIn pet ∧ r = toOwner)) rfl ⟨_, rfl⟩ ?_ ?_
  · intro r hr
    exact Or.inl ⟨rfl, List.mem_singleton.mp hr⟩
  · rintro spot r (⟨rfl, rfl⟩ | ⟨rfl, rfl⟩ | ⟨rfl, rfl⟩)
    · exact ⟨owner, _, h.enters, h.entered,
        fun r hr => Or.inr (Or.inl ⟨rfl, List.mem_singleton.mp hr⟩)⟩
    · exact ⟨pet, _, h.leaves, h.left,
        fun r hr => Or.inr (Or.inr ⟨rfl, List.mem_singleton.mp hr⟩)⟩
    · exact ⟨owner, _, h.returns, h.returned,
        fun r hr => Or.inr (Or.inl ⟨rfl, List.mem_singleton.mp hr⟩)⟩

/-- The two descriptions in one folder. -/
def sharedTree : FileTree :=
  ⟨[("owner.yml", describing "pet" "pet.yml"), ("pet.yml", describing "owner" "owner.yml")]⟩

theorem mutual_sharedTree : Mutual sharedTree "owner.yml" "pet.yml" "owner.yml"
    (.inside [("owner.yml", some (describing "pet" "pet.yml"))])
    (.inside [("pet.yml", some (describing "owner" "owner.yml"))]) :=
  ⟨rfl, rfl, rfl, by decide +kernel, by decide +kernel, by decide +kernel⟩

theorem file?_sharedTree {origin : Origin} (ho : origin.folder = .here) :
    file? origin "owner.yml" = .ok (some ⟨"./owner.yml"⟩) ∧
      file? origin "pet.yml" = .ok (some ⟨"./pet.yml"⟩) := by
  rw [file?_of_relative (by decide +kernel) (by decide +kernel),
    file?_of_relative (by decide +kernel) (by decide +kernel), ho]
  exact ⟨by decide +kernel, by decide +kernel⟩

/-- From either description, the other one is read under the path it has been reached by before. -/
theorem reaches_sharedTree {origin : Origin} {path : String}
    (h : Reaches (loadValueAnyLength sharedTree) .here (ownerDocument "owner.yml") origin path) :
    origin.folder = .here ∧ (path = "owner.yml" ∨ path = "pet.yml") := by
  induction h with
  | start hp => exact ⟨rfl, Or.inl (List.mem_singleton.mp hp)⟩
  | next _ hf hv hs hr ih =>
    obtain ⟨ho, rfl | rfl⟩ := ih
    · obtain rfl := Option.some.inj (Except.ok.inj (hf.symm.trans (file?_sharedTree ho).1))
      rw [references_of_load rfl mutual_sharedTree.entered hv hs] at hr
      exact ⟨rfl, Or.inr (List.mem_singleton.mp hr)⟩
    · obtain rfl := Option.some.inj (Except.ok.inj (hf.symm.trans (file?_sharedTree ho).2))
      rw [references_of_load rfl mutual_sharedTree.left hv hs] at hr
      exact ⟨rfl, Or.inl (List.mem_singleton.mp hr)⟩

/-- Bundling the descriptions in one folder succeeds, although they refer to each other. -/
theorem bundling_of_resolvable_shared :
    Resolvable sharedTree .here (ownerDocument "owner.yml") ∧
      (Resolver.fresh .here).BundlesSchemas (loadValue sharedTree) (ownerDocument "owner.yml") := by
  refine ⟨mutual_sharedTree.resolvable,
    (bundling_of_resolvable mutual_sharedTree.resolvable).2.2.1 ?_⟩
  rintro file ⟨origin, path, hreach, hf⟩
  obtain ⟨ho, hpath⟩ := reaches_sharedTree hreach
  rcases hpath with rfl | rfl
  · obtain rfl := Option.some.inj (Except.ok.inj (hf.symm.trans (file?_sharedTree ho).1))
    decide +kernel
  · obtain rfl := Option.some.inj (Except.ok.inj (hf.symm.trans (file?_sharedTree ho).2))
    decide +kernel

/-- The two descriptions in sibling folders. -/
def siblingTree : FileTree :=
  ⟨[("owners", .folder [("owner.yml", describing "pet" "../pets/pet.yml")]),
    ("pets", .folder [("pet.yml", describing "owner" "../owners/owner.yml")])]⟩

/-- Where the owner is described. -/
def ownerLocation : Location :=
  .inside [("owner.yml", some (describing "pet" "../pets/pet.yml")),
    ("owners", some (.folder [("owner.yml", describing "pet" "../pets/pet.yml")]))]

/-- Where the pet is described. -/
def petLocation : Location :=
  .inside [("pet.yml", some (describing "owner" "../owners/owner.yml")),
    ("pets", some (.folder [("pet.yml", describing "owner" "../owners/owner.yml")]))]

theorem mutual_siblingTree : Mutual siblingTree "owners/owner.yml" "../pets/pet.yml"
    "../owners/owner.yml" ownerLocation petLocation :=
  ⟨rfl, rfl, rfl, by decide +kernel, by decide +kernel, by decide +kernel⟩

/-- The owner is come to under paths of any length. -/
theorem exists_long_path (n : Nat) : ∃ file : Path,
    Reaches (loadValueAnyLength siblingTree) .here (ownerDocument "owners/owner.yml")
      (originIn file) "../pets/pet.yml" ∧
    siblingTree.locateAnyLength file = .ok ownerLocation ∧ n + 2 ≤ file.segments.length := by
  have h := mutual_siblingTree
  induction n with
  | zero =>
    have hstands : StandsAt siblingTree (documentOrigin .here) ⟨.inside [], none⟩ :=
      standsAt_documentOrigin rfl ⟨_, rfl⟩
    obtain ⟨file, hf, hl⟩ := hstands.target?_eq_some_iff.mp h.enters
    obtain ⟨value, schema, hv, hs, hrefs⟩ := referencesAt?_eq_some_iff.mp h.entered
    have hload := Document.loadValueAnyLength_eq_ok_iff.mpr ⟨_, hl, hv⟩
    refine ⟨file, .next (.start (List.mem_singleton_self _)) hf hload hs ?_, hl, ?_⟩
    · rw [hrefs]
      exact List.mem_singleton_self _
    · have hfile : file? (documentOrigin .here) "owners/owner.yml" =
          .ok (some ⟨"./owners/owner.yml"⟩) := by decide +kernel
      obtain rfl := Option.some.inj (Except.ok.inj (hf.symm.trans hfile))
      decide +kernel
  | succ n ih =>
    obtain ⟨file, hreach, hl, hlen⟩ := ih
    obtain ⟨value, -, hv, -⟩ := referencesAt?_eq_some_iff.mp h.entered
    obtain ⟨value', -, hv', -⟩ := referencesAt?_eq_some_iff.mp h.left
    -- Each way takes the name of the file from the path and adds three segments.
    obtain ⟨pet, hpet, hlpet, hreach'⟩ := hreach.advance hl hv h.leaves h.left
    obtain ⟨owner, howner, hlowner, hback⟩ := hreach'.advance hlpet hv' h.returns h.returned
    have hout : (Path.named (Text.cut '/' (parts "../pets/pet.yml").1)).length = 3 := by
      decide +kernel
    have hin : (Path.named (Text.cut '/' (parts "../owners/owner.yml").1)).length = 3 := by
      decide +kernel
    have hlpet' := length_segments_of_file? hpet (by omega) (by decide +kernel) (by decide +kernel)
    have hlowner' := length_segments_of_file? howner (by omega) (by decide +kernel)
      (by decide +kernel)
    exact ⟨owner, hback, hlowner, by omega⟩

/-- Bundling the descriptions in sibling folders fails, although all references lead to a schema. -/
theorem not_bundlesSchemas_siblings :
    Resolvable siblingTree .here (ownerDocument "owners/owner.yml") ∧
      ¬(Resolver.fresh .here).BundlesSchemas (loadValue siblingTree)
        (ownerDocument "owners/owner.yml") := by
  refine ⟨mutual_siblingTree.resolvable, fun hok => ?_⟩
  obtain ⟨file, hreach, hl, hlen⟩ := exists_long_path FileTree.pathLimit
  obtain ⟨value, -, hv, -⟩ := referencesAt?_eq_some_iff.mp mutual_siblingTree.entered
  obtain ⟨next, hf, -⟩ := (standsAt_originIn hl hv).target?_eq_some_iff.mp mutual_siblingTree.leaves
  obtain ⟨spelling, hplain, hshort⟩ := exists_short_of_bundlesSchemas hok ⟨_, _, hreach, hf⟩
  have hsegments := Path.length_segments_le spelling
  rw [Path.plainText_eq_iff.mp hplain] at hsegments
  have hnext := length_segments_of_file? hf (by omega) (by decide +kernel) (by decide +kernel)
  have hout : (Path.named (Text.cut '/' (parts "../pets/pet.yml").1)).length = 3 := by
    decide +kernel
  omega

end Resolver

end FunctionForge.Reference
