import FunctionForge.Proofs.Reference.Cycles
import FunctionForge.Proofs.Union

/-!
# Values of unions in bundled documents

Bundling replaces the references of a union's members, but not those in the mapping of its
discriminator.  The two are matched by their last names afterwards, so that a value still selects a
member that is written with the same reference if the reference and the one that takes its place end
in the same name (`wire_value_kept_iff`).  A reference with a pointer does so unless the last part
of the pointer is escaped, and a reference to a whole file only if the file has no extension.
-/

namespace FunctionForge.Reference

open Document (ApiDocument Discriminator Schema SchemaOrRef loadValueAnyLength)
open Files (FileTree Path)
open Model (resolveInterface)
open Naming (refName)
open FunctionForge.Union (Admissible LastSelected Selects)

/-! ### Last parts of pointers -/

theorem length_unescape_le (part : String) :
    (unescape part).toList.length ≤ part.toList.length := by
  have hreplace (pattern new text : String) (h : new.toList.length ≤ pattern.toList.length) :
      (Text.replaceAll pattern new text).toList.length ≤ text.toList.length := by
    rw [Text.replaceAll, String.toList_ofList]
    exact Text.length_replaceFrom_le h 0 text.toList
  exact (hreplace "~0" "~" _ (by decide)).trans (hreplace "~1" "/" part (by decide))

/-- The name of a pointer's last part. -/
theorem lastName?_append (pointer : String) {segment : String} (hs : '/' ∉ segment.toList)
    (he : segment ≠ "") : lastName? (pointer ++ "/" ++ segment) = some (unescape segment) := by
  have hcut : Text.cut '/' segment = [segment] := by
    rw [Text.cut, Text.pieces_of_not_mem hs, List.map_singleton, String.ofList_toList]
  rw [lastName?, Path.cut_append, hcut, List.reverse_append, List.reverse_singleton,
    List.singleton_append, List.find?_cons_of_pos (by simpa using he), Option.map_some]

namespace Bundle

/-! ### Last names of references -/

theorem toList_refName_localRef (name : String) :
    (refName (localRef name)).toList = Text.afterLast '/' name.toList := by
  rw [refName, toList_localRef_eq_append, Text.afterLast_append, String.toList_ofList]

/-- The reference that takes the place of a pointer ends in its last part if that is not escaped. -/
theorem refName_localRef_unescape_iff {segment : String} (h : '/' ∉ segment.toList) :
    refName (localRef (unescape segment)) = segment ↔ unescape segment = segment := by
  constructor
  · intro heq
    have hlist := congrArg String.toList heq
    rw [toList_refName_localRef] at hlist
    -- With a slash in the name, only a part of it would be left.
    have hslash : '/' ∉ (unescape segment).toList := by
      intro hm
      have hlt := Text.length_afterLast_lt hm
      rw [hlist] at hlt
      exact absurd (length_unescape_le segment) hlt.not_ge
    rw [Text.afterLast_of_not_mem hslash] at hlist
    exact String.toList_inj.mp hlist
  · intro heq
    rw [heq, refName_localRef h]

theorem parts_append {lead : String} (h : '#' ∈ lead.toList) (rest : String) :
    (parts (lead ++ rest)).2 = (parts lead).2 ++ rest := by
  cases hs : Text.splitFirst '#' lead.toList with
  | none => exact absurd h (Text.splitFirst_eq_none_iff.mp hs)
  | some pair =>
    obtain ⟨hbefore, hlead⟩ := Text.splitFirst_eq_some_iff.mp hs
    have hall : Text.splitFirst '#' (lead ++ rest).toList = some (pair.1, pair.2 ++ rest.toList) :=
      Text.splitFirst_eq_some_iff.mpr ⟨hbefore, by rw [String.toList_append, hlead]; simp⟩
    rw [parts, parts, Text.cutFirst, Text.cutFirst, hs, hall]
    simp

theorem parts_of_not_mem {path : String} (h : '#' ∉ path.toList) : parts path = (path, "") := by
  rw [parts, Text.cutFirst, Text.splitFirst_eq_none_iff.mpr h]
  rfl

/-- What a pointer leads to is imported under the name that the last part of the pointer writes. -/
theorem importName_of_pointer {lead segment name : String} {file : Path} (hlead : '#' ∈ lead.toList)
    (hs : '/' ∉ segment.toList) (he : segment ≠ "")
    (hn : importName (lead ++ "/" ++ segment) file = .ok name) : name = unescape segment := by
  rw [importName_eq_ok_iff, importedName?_key, String.append_assoc, parts_append hlead,
    ← String.append_assoc, lastName?_append _ hs he, Option.some_or] at hn
  exact (Option.some.inj hn).symm

theorem refName_append (lead : String) {segment : String} (h : '/' ∉ segment.toList) :
    refName (lead ++ "/" ++ segment) = segment := by
  have hslash : "/".toList = ['/'] := rfl
  rw [refName, String.toList_append, String.toList_append, hslash, List.append_assoc,
    List.singleton_append, Text.afterLast_append_cons h, String.ofList_toList]

/-- The reference that takes the place of a file ends in its last name if that has no extension. -/
theorem refName_localRef_stem_iff {origin : Origin} {path name : String} {file : Path}
    (hf : file? origin path = .ok (some file)) (hn : importName path file = .ok name)
    (hpath : '#' ∉ path.toList) (he : refName path ≠ "") (hd : refName path ≠ ".") :
    refName (localRef name) = refName path ↔ file.extension? = none := by
  have hparts := parts_of_not_mem hpath
  have hstem : file.stem? = some name := by
    rw [importName_eq_ok_iff, importedName?_key, hparts] at hn
    exact hn
  have hfile : file = origin.folder.join path := by
    rw [file?, hparts] at hf
    dsimp only at hf
    split_ifs at hf with hempty
    · rw [String.isEmpty_iff] at hempty
      exact absurd (by rw [hempty]; rfl) he
    · exact (Option.some.inj (Except.ok.inj hf)).symm
  have hlast : file.segments.getLast? = some (refName path) := by
    rw [hfile]
    exact Path.getLast?_segments_join rfl he hd
  -- A file with a stem has a last name, which is the last segment of its path.
  have hname : file.fileName? = some (refName path) := by
    have hsome : file.fileName?.isSome = true := by
      rw [Path.fileName?_eq, ← Path.isSome_stem?_iff, hstem]
      rfl
    rw [Path.fileName?_eq, Path.properName?, hlast, Option.filter_some] at hsome ⊢
    split_ifs at hsome ⊢ with hproper
    · rfl
    · cases hsome
  have hslash : '/' ∉ name.toList := by
    intro hm
    have hmem := (Path.stem_prefix hname hstem).subset hm
    rw [refName, String.toList_ofList] at hmem
    exact Text.not_mem_afterLast '/' _ hmem
  rw [refName_localRef hslash]
  exact Path.stem_eq_iff hname hstem

/-! ### Values of members -/

/-- The discriminator of a union maps a value to a reference that is a member of the union. -/
structure MapsMember (schema : Schema) (discriminator : Discriminator) (value path : String) :
    Prop where
  declared : schema.discriminator = some discriminator
  nodup : discriminator.mapping.keys.Nodup
  mapped : (value, path) ∈ discriminator.mapping
  member : .ref path ∈ schema.oneOf

namespace MapsMember

variable {schema : Schema} {discriminator : Discriminator} {value path : String}

/-- Bundling replaces the member and leaves the discriminator as it is. -/
theorem bundled (h : MapsMember schema discriminator value path) (g : String → String) :
    (schema.mapReferences g).discriminator = some discriminator ∧
      .ref (g path) ∈ (schema.mapReferences g).oneOf := by
  rw [Schema.discriminator_mapReferences, Schema.oneOf_mapReferences]
  exact ⟨h.declared, List.mem_map_of_mem (f := SchemaOrRef.mapReferences g) h.member⟩

/-- The value selects what has the last name of its reference, unless a later reference has it, and
what bears the value itself as its name, if no reference has that. -/
theorem selects_iff (h : MapsMember schema discriminator value path) (name : String) :
    Selects discriminator.mapping name value ↔
      (name = refName path ∧ ∃ before after,
        discriminator.mapping = before ++ (value, path) :: after ∧
          ∀ later ∈ after, refName later.2 ≠ refName path) ∨
      (name = value ∧ ∀ pair ∈ discriminator.mapping, refName pair.2 ≠ value) := by
  constructor
  · intro hs
    cases hs with
    | @declared before after _ target hsplit htarget hlast =>
      -- The value is declared once, so it is declared for the reference of the member.
      have hmem : (value, target) ∈ discriminator.mapping := by rw [hsplit]; simp
      obtain ⟨-, rfl⟩ := Prod.mk.inj (List.inj_on_of_nodup_map h.nodup h.mapped hmem rfl)
      subst htarget
      exact Or.inl ⟨rfl, before, after, hsplit, hlast⟩
    | undeclared hnone => exact Or.inr ⟨rfl, hnone⟩
  · rintro (⟨rfl, before, after, hsplit, hlast⟩ | ⟨rfl, hnone⟩)
    · exact .declared hsplit rfl hlast
    · exact .undeclared hnone

end MapsMember

end Bundle

namespace Resolver

open Reference.Bundle

variable {files : FileTree} {folder : Path} {document result : ApiDocument} {st : Bundling}

/-- All references that are come to lead into the document or to something that is imported. -/
theorem Bundles.settled_of_reaches
    (h : (Resolver.fresh folder).Bundles (Document.loadValue files) document (.ok ()) st)
    {origin : Origin} {path : String}
    (hr : Reaches (loadValueAnyLength files) folder document origin path) :
    Settled origin path st := by
  induction hr with
  | start hp => exact h.imported.2.2 _ hp
  | @next origin path r file value schema _ hf hv hs hr ih =>
    rcases ih with hnone | ⟨found, name, hfound, -, hmark⟩
    · exact absurd (hf.symm.trans hnone) nofun
    · obtain rfl := Option.some.inj (Except.ok.inj (hf.symm.trans hfound))
      obtain ⟨arrival, ha, -⟩ := h.imported.1 _ hmark
      obtain ⟨value', hvalue', hschema⟩ := ha.schema
      -- The file holds one value, under whatever spelling of its path it was loaded.
      obtain rfl : value' = value := eq_of_holds hv hvalue'
      obtain rfl : arrival.schema = schema := Option.some.inj (hschema.symm.trans hs)
      exact (ha.settled r hr).congr (Path.plainText_eq_iff.mp ha.file)

/-- In a resolved document, a schema stands with its references replaced.  A value that a union maps
to one of its members is mapped to the class of that member exactly if no member of the replaced
union is in the way of an interface and the last one that the value selects has the class.  It
selects the replaced member if that ends in the same name as the reference did, and no later value
has the name, or if it bears the value itself as its name, and no value has that.  The names are the
same for a pointer whose last part is not escaped and for a file without an extension. -/
theorem wire_value_kept_iff
    (h : ((Resolver.fresh folder).resolve (Document.loadValue files) document).result =
      .ok result) :
    (∃ imports, inlineComponents (merged imports
        (document.mapReferences (Bundle.rewritten (documentOrigin folder)))) = .ok result ∧
      ∀ entry ∈ imports, ∃ arrival : Arrival, entry = (arrival.name, arrival.bundled)) ∧
    ∀ (origin : Origin) (schema : Schema) (discriminator : Discriminator) (value path : String)
      (file : Path), MapsMember schema discriminator value path →
      Reaches (loadValueAnyLength files) folder document origin path →
      file? origin path = .ok (some file) →
      let bundled := schema.mapReferences (Bundle.rewritten origin)
      ∃ name ∈ result.schemas.keys, Bundle.rewritten origin path = localRef name ∧
        .ref (localRef name) ∈ bundled.oneOf ∧
        (∀ (known : KnownTypes) (rawName : String),
          (∃ model, resolveInterface known rawName bundled = .ok model ∧
            model.mapping.get? value = some (known.entityName (localRef name))) ↔
          (∀ member ∈ bundled.oneOf, Admissible known member) ∧
            ∃ last, LastSelected discriminator.mapping bundled.oneOf value last ∧
              known.entityName last = known.entityName (localRef name)) ∧
        (Selects discriminator.mapping (refName (localRef name)) value ↔
          (refName (localRef name) = refName path ∧ ∃ before after,
            discriminator.mapping = before ++ (value, path) :: after ∧
              ∀ later ∈ after, refName later.2 ≠ refName path) ∨
          (refName (localRef name) = value ∧
            ∀ pair ∈ discriminator.mapping, refName pair.2 ≠ value)) ∧
        (∀ lead segment, path = lead ++ "/" ++ segment → '#' ∈ lead.toList →
          '/' ∉ segment.toList → segment ≠ "" →
          (refName (localRef name) = refName path ↔ unescape segment = segment)) ∧
        ('#' ∉ path.toList → refName path ≠ "" → refName path ≠ "." →
          (refName (localRef name) = refName path ↔ file.extension? = none)) := by
  obtain ⟨st, hb, -, hi⟩ := exists_bundles_of_resolve h
  refine ⟨⟨st.imports, hi, fun entry he => ?_⟩, ?_⟩
  · obtain ⟨mark, -, arrival, -, heq⟩ := hb.imported.2.1 entry he
    exact ⟨arrival, heq⟩
  intro origin schema discriminator value path file hmaps hr hf bundled
  obtain ⟨hd, hmember⟩ := hmaps.bundled (Bundle.rewritten origin)
  -- The reference leads into a file, so that what it leads to is imported.
  rcases hb.settled_of_reaches hr with hnone | ⟨found, name, hfound, hn, hmark⟩
  · exact absurd (hf.symm.trans hnone) nofun
  obtain rfl := Option.some.inj (Except.ok.inj (hf.symm.trans hfound))
  have hkey : name ∈ st.imports.keys := by
    obtain ⟨arrival, ha, hk⟩ := hb.imported.1 _ hmark
    rwa [Option.some.inj (ha.name.symm.trans (importName_eq_ok_iff.mp hn))] at hk
  have hrewritten := rewritten_of_file hf hn
  rw [hrewritten] at hmember
  refine ⟨name, mem_keys_of_mem_imports hi hkey, hrewritten, hmember,
    fun known rawName => Model.exists_interface_mapping_iff hd rawName value _,
    hmaps.selects_iff _, ?_, refName_localRef_stem_iff hf hn⟩
  rintro lead segment rfl hlead hslash he
  rw [importName_of_pointer hlead hslash he hn, refName_append lead hslash]
  exact refName_localRef_unescape_iff hslash

/-! ### Cats in other files -/

/-- A folder with the description of a cat, once in a file of its own and once among others. -/
def catTree : FileTree :=
  ⟨[("cat.yml", .file (.text "type: object\n")),
    ("defs.yml", .file (.text "Cat:\n  type: object\n"))]⟩

/-- The pets, all of which are cats and called feline. -/
def felineUnion (path : String) : Schema where
  __ := Schema.blank
  oneOf := [.ref path]
  discriminator := some ⟨"kind", [("feline", path)]⟩

theorem mapsMember_felineUnion (path : String) :
    MapsMember (felineUnion path) ⟨"kind", [("feline", path)]⟩ "feline" path :=
  ⟨rfl, List.nodup_singleton _, List.mem_singleton_self _, List.mem_singleton_self _⟩

/-- A document about pets, which refers to the description of a cat. -/
def felineDocument (path : String) : ApiDocument where
  openapi := "3.0.3"
  info := ⟨"Pets", none, "1"⟩
  paths := none
  components := some { Document.Components.none with
    schemas := [("Pet", .inline (felineUnion path))] }

/-- The classes that references stand for in the resolved document about pets. -/
abbrev felineTypes (result : ApiDocument) : KnownTypes :=
  .scan result.schemas .plain fun _ => true

/-- A cat among others is still called feline. -/
theorem wire_value_kept_iff_defs : ∃ result,
    ((Resolver.fresh .here).resolve (Document.loadValue catTree)
      (felineDocument "defs.yml#/Cat")).result = .ok result ∧
    ∃ model, resolveInterface (felineTypes result) "Pet"
        ((felineUnion "defs.yml#/Cat").mapReferences (Bundle.rewritten (documentOrigin .here))) =
          .ok model ∧
      model.mapping.get? "feline" = some "Cat" := by
  obtain ⟨result, h, htypes⟩ := @exists_resolve_of_resolveWithin (Resolver.fresh .here)
    (Document.loadValue catTree) (felineDocument "defs.yml#/Cat") 2
    (fun result => !(felineTypes result).isAlias "Cat" &&
      (felineTypes result).entityName (localRef "Cat") == "Cat") (by decide +kernel)
  rw [Bool.and_eq_true, Bool.not_eq_true', beq_iff_eq] at htypes
  obtain ⟨hfree, hclass⟩ := htypes
  obtain ⟨name, -, hrewritten, -, hkept, hselects, hpointer, -⟩ := (wire_value_kept_iff h).2
    (documentOrigin .here) _ _ _ _ ⟨"./defs.yml"⟩ (mapsMember_felineUnion _)
    (.start List.mem_cons_self) (by decide +kernel)
  have hlocal : Bundle.rewritten (documentOrigin .here) "defs.yml#/Cat" = localRef "Cat" := by
    decide +kernel
  rw [hrewritten.symm.trans hlocal] at hkept hselects hpointer
  have hagree : refName (localRef "Cat") = refName "defs.yml#/Cat" :=
    (hpointer "defs.yml#" "Cat" rfl (by decide) (by decide) (by decide)).mpr (by decide +kernel)
  have hbundled : ((felineUnion "defs.yml#/Cat").mapReferences
      (Bundle.rewritten (documentOrigin .here))).oneOf = [.ref (localRef "Cat")] := by
    rw [Schema.oneOf_mapReferences, ← hlocal]
    rfl
  rw [hbundled] at hkept
  refine ⟨result, h, ?_⟩
  rw [← hclass]
  refine (hkept (felineTypes result) "Pet").mpr
    ⟨fun member hm => ?_, _, ⟨[], [], rfl, ?_, fun _ hm => absurd hm List.not_mem_nil⟩, rfl⟩
  · rw [List.mem_singleton.mp hm, Admissible, hclass]
    exact hfree
  · exact hselects.mpr
      (Or.inl ⟨hagree, [], [], rfl, fun _ hm => absurd hm List.not_mem_nil⟩)

/-- A cat in a file of its own is called by the name of the file instead. -/
theorem resolveModels_felineDocument :
    MapsMember (felineUnion "cat.yml") ⟨"kind", [("feline", "cat.yml")]⟩ "feline" "cat.yml" ∧
    ∃ result, ((Resolver.fresh .here).resolve (Document.loadValue catTree)
      (felineDocument "cat.yml")).result = .ok result ∧
    (Model.resolveModels result.schemas .plain).models =
      ⟨[.interface ⟨"Pet", "Pet", none, ["Cat"], "Kind", [("cat", "Cat")]⟩,
        .object ⟨"cat", "Cat", none, [], none, ["Pet"], []⟩], []⟩ := by
  obtain ⟨result, h, hmodels⟩ := @exists_resolve_of_resolveWithin (Resolver.fresh .here)
    (Document.loadValue catTree) (felineDocument "cat.yml") 2
    (fun result => decide ((Model.resolveModels result.schemas .plain).models =
      ⟨[.interface ⟨"Pet", "Pet", none, ["Cat"], "Kind", [("cat", "Cat")]⟩,
        .object ⟨"cat", "Cat", none, [], none, ["Pet"], []⟩], []⟩)) (by decide +kernel)
  exact ⟨mapsMember_felineUnion _, result, h, of_decide_eq_true hmodels⟩

end Resolver

end FunctionForge.Reference
